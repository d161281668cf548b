import BleGateway.StateSeed.Invariant

/-! # The handlers keep the invariant

A disconnect or a forget, a completion, and a commit that finds the session idle and a context
to read with.
-/

namespace BleGateway.StateSeed

open Scheduler (Result)

/-! ## Disconnect and forget -/

namespace Outstanding

variable (id : DeviceId) (o : Outstanding)

@[simp] theorem forget_context : (o.forget id).context = o.context := by
  unfold forget; split <;> rfl

@[simp] theorem forget_job : (o.forget id).job = o.job := by
  unfold forget; split <;> rfl

@[simp] theorem forget_deviceId : (o.forget id).deviceId = o.deviceId := by
  simp [deviceId]

end Outstanding

variable {jobs : List Outstanding} {s : Seed}

theorem ContextsInv.forget {contexts : Ix → Context} (h : ContextsInv contexts jobs)
    (id : DeviceId) :
    ContextsInv contexts (jobs.map (·.forget id)) := by
  refine ⟨?_, fun o ho => ?_, fun i hi => ?_⟩
  · have hcomp : (jobs.map (·.forget id)).map (·.context) = jobs.map (·.context) := by
      rw [List.map_map]
      exact List.map_congr_left fun o _ => o.forget_context id
    rw [hcomp]
    exact h.nodup
  · obtain ⟨o', ho', rfl⟩ := List.mem_map.mp ho
    simpa using h.held o' ho'
  · obtain ⟨o, ho, rfl⟩ := h.owed i hi
    exact ⟨_, List.mem_map_of_mem ho, o.forget_context id⟩

theorem jobsOf_forget_of_ne {id id' : DeviceId} (hne : id' ≠ id) (jobs : List Outstanding) :
    jobsOf (jobs.map (·.forget id)) id' = jobsOf jobs id' := by
  induction jobs with
  | nil => rfl
  | cons o jobs ih =>
      have hcons : ∀ (o : Outstanding) (jobs : List Outstanding), jobsOf (o :: jobs) id' =
          if o.deviceId = id' then o :: jobsOf jobs id' else jobsOf jobs id' := by
        intro o jobs
        simp [jobsOf, List.filter_cons]
      rw [List.map_cons, hcons, hcons, ih, Outstanding.forget_deviceId]
      by_cases ho : o.deviceId = id'
      · have hkeep : o.forget id = o := by
          rw [Outstanding.forget, if_neg (by rw [ho]; exact hne)]
        rw [hkeep]
      · simp [ho]

theorem forget_seed_contexts (s : Seed) (id : DeviceId) : (forget s id).contexts = s.contexts := by
  rw [forget]
  cases s.findSession id <;> rfl

/-- A forget keeps the invariant, whatever state the device is in. -/
theorem forget_inv {σ : Sys} {id : DeviceId} (hb : SeedInvBut id σ) :
    SeedInv (σ.forgetSession id) := by
  have hctx : ContextsInv (forget σ.seed id).contexts (σ.outstanding.map (·.forget id)) := by
    rw [forget_seed_contexts]
    exact hb.contexts.forget id
  have hgone : ∀ o ∈ jobsOf (σ.outstanding.map (·.forget id)) id, o.forgotten = true := by
    intro o ho
    obtain ⟨hmem, hid⟩ := mem_jobsOf.mp ho
    obtain ⟨o', _, rfl⟩ := List.mem_map.mp hmem
    rw [Outstanding.forget_deviceId] at hid
    rw [Outstanding.forget, if_pos hid]
  have hothers : ∀ id', id' ≠ id → (forget σ.seed id).sessionOf id' = σ.seed.sessionOf id' →
      ViewInv id' ((σ.forgetSession id).view id') := by
    intro id' hne hsession
    have hview : (σ.forgetSession id).view id' = σ.view id' := by
      simp only [Sys.view, Sys.forgetSession, hsession, Function.update_of_ne hne,
        jobsOf_forget_of_ne hne]
    rw [hview]
    exact hb.others id' hne
  have hnone : (forget σ.seed id).sessionOf id = none →
      ViewInv id ((σ.forgetSession id).view id) := fun h => .gone h (Function.update_self ..) hgone
  cases hk : σ.seed.findSession id with
  | none =>
      have hseed : forget σ.seed id = σ.seed := by
        rw [forget, hk]
      refine SeedInvBut.close ⟨?_, ?_, hb.schemas, hctx, fun id' hne => hothers id' hne ?_⟩
        (hnone ?_)
      · show Directory.Distinct _ _ (forget σ.seed id).sessions
        rw [hseed]
        exact hb.sessions
      · show ∀ j, ((forget σ.seed id).sessions j).used = false →
          (forget σ.seed id).sessions j = {}
        rw [hseed]
        exact hb.zeroed
      · rw [hseed]
      · rw [hseed]
        exact Seed.sessionOf_eq_none hk
  | some k =>
      obtain ⟨hku, hkid⟩ := Seed.findSession_spec hk
      have hseed : forget σ.seed id = σ.seed.setSession k {} := by
        rw [forget, hk]
      refine SeedInvBut.close ⟨?_, fun j hj => ?_, hb.schemas, hctx,
        fun id' hne => hothers id' hne ?_⟩ (hnone ?_)
      · show Directory.Distinct _ _ (forget σ.seed id).sessions
        rw [hseed]
        exact hb.sessions.update fun h => absurd h (by simp)
      · change ((forget σ.seed id).sessions j).used = false at hj
        show (forget σ.seed id).sessions j = {}
        rw [hseed, Seed.setSession_sessions] at hj ⊢
        by_cases hjk : j = k
        · rw [hjk, Function.update_self]
        · rw [Function.update_of_ne hjk] at hj ⊢
          exact hb.zeroed j hj
      · rw [hseed]
        refine Seed.sessionOf_setSession_of_ne (fun _ => ?_) fun h => absurd h (by simp)
        rw [hkid]
        exact hne.symm
      · rw [hseed, ← hkid]
        exact hb.sessions.record_clear hku rfl

/-! ## Completions -/

theorem ContextsInv.release {contexts : Ix → Context} (h : ContextsInv contexts jobs)
    {o : Outstanding} (ho : o ∈ jobs) :
    ContextsInv (Function.update contexts o.context { contexts o.context with inUse := false })
      (jobs.erase o) := by
  have hjobs : jobs.Nodup := h.nodup.of_map _
  -- no other job carries the context
  have hne : ∀ o' ∈ jobs.erase o, o' ∈ jobs ∧ o'.context ≠ o.context := by
    intro o' ho'
    obtain ⟨hdiff, hmem⟩ := hjobs.mem_erase_iff.mp ho'
    exact ⟨hmem, fun heq => hdiff (List.inj_on_of_nodup_map h.nodup hmem ho heq)⟩
  refine ⟨?_, fun o' ho' => ?_, fun i hi => ?_⟩
  · exact h.nodup.sublist ((List.erase_sublist ..).map _)
  · obtain ⟨hmem, hctx⟩ := hne o' ho'
    rw [Function.update_of_ne hctx]
    exact h.held o' hmem
  · have hi' : i ≠ o.context := by
      rintro rfl
      rw [Function.update_self] at hi
      cases hi
    rw [Function.update_of_ne hi'] at hi
    obtain ⟨o', ho', rfl⟩ := h.owed i hi
    refine ⟨o', hjobs.mem_erase_iff.mpr ⟨?_, ho'⟩, rfl⟩
    rintro rfl
    exact hi' rfl

theorem jobsOf_erase (id : DeviceId) (jobs : List Outstanding) (o : Outstanding) :
    jobsOf (jobs.erase o) id = (jobsOf jobs id).erase o :=
  List.erase_filter.symm

theorem jobsOf_erase_of_ne {id : DeviceId} {o : Outstanding} (hne : o.deviceId ≠ id) :
    jobsOf (jobs.erase o) id = jobsOf jobs id := by
  rw [jobsOf_erase]
  exact List.erase_of_not_mem fun h => hne (mem_jobsOf.mp h).2

/-- What the critical section of a completion does to the session of the context's device. -/
theorem completionSection_eq {i k : Ix} (hk : s.findSession (s.contexts i).deviceId = some k)
    (result : Option Result) :
    if (s.sessions k).ownerToken = (s.contexts i).ownerToken then
      ∃ n r, n ≤ (s.sessions k).nextFeatureIndex ∧ completionSection s result i =
        (s.setContext i { s.contexts i with inUse := false }).setSession k
          { s.sessions k with
            jobActive := false, activeJobId := 0, nextFeatureIndex := n, retryCount := r }
    else completionSection s result i = s.setContext i { s.contexts i with inUse := false } := by
  have hk' : (s.setContext i { s.contexts i with inUse := false }).findSession
      (s.contexts i).deviceId = some k := hk
  rw [completionSection, hk']
  dsimp only [Seed.setContext_sessions]
  split
  · split
    · exact ⟨_, _, Nat.sub_le _ 1, rfl⟩
    · exact ⟨_, _, le_refl _, rfl⟩
  · rfl

theorem completionSection_gone {i : Ix} (hk : s.findSession (s.contexts i).deviceId = none)
    (result : Option Result) :
    completionSection s result i = s.setContext i { s.contexts i with inUse := false } := by
  have hk' : (s.setContext i { s.contexts i with inUse := false }).findSession
      (s.contexts i).deviceId = none := hk
  rw [completionSection, hk']

section Complete

variable {σ : Sys} {o : Outstanding}

/-- The state in which a completion has given its context back. -/
def Sys.released (σ : Sys) (o : Outstanding) : Sys :=
  { σ with
    outstanding := σ.outstanding.erase o
    seed := σ.seed.setContext o.context { σ.seed.contexts o.context with inUse := false } }

theorem SeedInv.released (h : SeedInv σ) (ho : o ∈ σ.outstanding) :
    SeedInvBut o.deviceId (σ.released o) where
  sessions := h.sessions
  zeroed := h.zeroed
  schemas := h.schemas
  contexts := h.contexts.release ho
  others id' hne := by
    have hview : (σ.released o).view id' = σ.view id' := by
      show View.mk _ _ _ (jobsOf (σ.outstanding.erase o) id') = _
      rw [jobsOf_erase_of_ne hne.symm]
      rfl
    rw [hview]
    exact h.views id'

/-- A device's session when one of its jobs has completed, and what is left to say of it. -/
theorem Live.released {id : DeviceId} {v : View} {s : Session} {w : Watch} (hl : Live id v s w)
    (ho : o ∈ v.jobs) {n r : Nat} (hn : n ≤ s.nextFeatureIndex)
    (howner : s.ownerToken = o.job.ownerToken) (session : Option Session) :
    Live id { v with session := session, jobs := v.jobs.erase o }
      { s with
        jobActive := false, activeJobId := 0, nextFeatureIndex := n, retryCount := r } w where
  schema := hl.schema
  revision := hl.revision
  flag := by
    have hflag := hl.flag
    rw [List.countP_erase]
    cases hf : o.forgotten with
    | true =>
        -- a leftover with the token of the session: the schema has nothing to read
        have hread : ¬w.schema.HasReadable := fun hr => (hl.leftover hr o ho hf).1 howner.symm
        have hidle : s.jobActive = false := by
          cases hj : s.jobActive with
          | false => rfl
          | true => exact absurd (hl.running hj).2 hread
        rw [hidle] at hflag
        simpa using hflag
    | false =>
        have hle : v.jobs.countP (fun o => !o.forgotten) ≤ 1 := by
          rw [hflag]
          split <;> omega
        rw [if_pos ⟨ho, by simp⟩, if_neg (by simp)]
        omega
  owner := fun o' ho' => hl.owner o' (List.mem_of_mem_erase ho')
  running := fun h => absurd h (by simp)
  leftover := by
    intro hr o' ho' hforgot
    obtain ⟨hne, hbelow⟩ := hl.leftover hr o' (List.mem_of_mem_erase ho') hforgot
    exact ⟨hne, fun o'' ho'' => hbelow o'' (List.mem_of_mem_erase ho'')⟩
  progress := fun hok i f hi => hl.progress hok i f (lt_of_lt_of_le hi hn)

/-- Nothing changes for a session to which the completed job does not belong. -/
theorem Live.dropped {id : DeviceId} {v : View} {s : Session} {w : Watch} (hl : Live id v s w)
    (hf : o.forgotten = true) : Live id { v with jobs := v.jobs.erase o } s w where
  schema := hl.schema
  revision := hl.revision
  flag := by
    rw [List.countP_erase, if_neg (by simp [hf])]
    exact hl.flag
  owner := fun o' ho' => hl.owner o' (List.mem_of_mem_erase ho')
  running := hl.running
  leftover := by
    intro hr o' ho' hforgot
    obtain ⟨hne, hbelow⟩ := hl.leftover hr o' (List.mem_of_mem_erase ho') hforgot
    exact ⟨hne, fun o'' ho'' => hbelow o'' (List.mem_of_mem_erase ho'')⟩
  progress := hl.progress

/-- The context a completion gives back, or a lower one, serves the next read. -/
theorem contextFree_of_released (h : SeedInv σ) (ho : o ∈ σ.outstanding)
    (hopen : ∀ o' ∈ jobsOf σ.outstanding o.deviceId, o' ≠ o → o.context < o'.context) :
    (σ.released o).seed.ContextFree o.deviceId := by
  have hown : ((σ.released o).seed.contexts o.context).inUse = false := by
    simp [Sys.released]
  obtain ⟨i, hle, hi⟩ : ∃ i ≤ o.context, (σ.released o).seed.findContext o.deviceId = some i :=
    Seed.exists_findContext hown
  rw [Seed.ContextFree, hi]
  cases huse : ((σ.released o).seed.contexts i).inUse with
  | false => simp [huse]
  | true =>
      -- a context in use is another job's of the device, and those lie above
      have hctx := (h.released ho).contexts
      obtain ⟨o', ho', rfl⟩ := hctx.owed i huse
      have hmem : o' ∈ σ.outstanding := List.mem_of_mem_erase ho'
      have hne : o' ≠ o := (h.contexts.nodup.of_map _).mem_erase_iff.mp ho' |>.1
      have hid : o'.deviceId = o.deviceId := by
        rcases (Seed.findContext_spec hi).1 with hfalse | hid
        · rw [huse] at hfalse
          cases hfalse
        · rwa [hctx.held o' ho'] at hid
      exact absurd (hopen o' (mem_jobsOf.mpr ⟨hmem, hid⟩) hne) (not_lt.mpr hle)

theorem released_view : (σ.released o).view o.deviceId =
    { σ.view o.deviceId with jobs := (jobsOf σ.outstanding o.deviceId).erase o } := by
  show View.mk _ _ _ (jobsOf (σ.outstanding.erase o) o.deviceId) = _
  rw [jobsOf_erase]
  rfl

/-- The completion of a job that carries the session's token. -/
theorem complete_own (h : SeedInv σ) (ho : o ∈ σ.outstanding) {k : Ix} {w : Watch}
    (hk : σ.seed.findSession o.deviceId = some k) (hw : σ.latest o.deviceId = some w)
    (hl : Live o.deviceId (σ.view o.deviceId) (σ.seed.sessions k) w)
    (howner : (σ.seed.sessions k).ownerToken = o.job.ownerToken) {n r : Nat}
    (hn : n ≤ (σ.seed.sessions k).nextFeatureIndex) (answer : Except EspErr UInt32)
    (hs : s = (σ.released o).seed.setSession k
      { σ.seed.sessions k with
        jobActive := false, activeJobId := 0, nextFeatureIndex := n, retryCount := r }) :
    SeedInv ((σ.released o).after o.deviceId
      (startNext σ.schemas o.deviceId answer DEVICE_SCHEMA_MAX_FEATURES s).1
      (startNext σ.schemas o.deviceId answer DEVICE_SCHEMA_MAX_FEATURES s).2) := by
  have hmem : o ∈ jobsOf σ.outstanding o.deviceId := mem_jobsOf.mpr ⟨ho, rfl⟩
  have hb := h.released ho
  have hkr : (σ.released o).seed.findSession o.deviceId = some k := hk
  have hself : s.sessions k = { σ.seed.sessions k with
      jobActive := false, activeJobId := 0, nextFeatureIndex := n, retryCount := r } := by
    rw [hs, Seed.setSession_sessions, Function.update_self]
  have hb' : SeedInvBut o.deviceId ((σ.released o).after o.deviceId s none) := by
    rw [hs]
    exact hb.after hkr (by rfl) (by rfl) (by rfl) (by simp) hb.contexts
  have hk' : s.findSession o.deviceId = some k := by
    rw [hs, ← hkr]
    exact Seed.findSession_setSession (by rfl) (by rfl) _
  have hview : ((σ.released o).after o.deviceId s none).view o.deviceId =
      { σ.view o.deviceId with
        session := some (s.sessions k), jobs := (jobsOf σ.outstanding o.deviceId).erase o } := by
    rw [← Seed.sessionOf_of_find hk', ← jobsOf_erase]
    rfl
  have hl' : Live o.deviceId (((σ.released o).after o.deviceId s none).view o.deviceId)
      (s.sessions k) w := by
    rw [hview, hself]
    exact hl.released hmem hn howner _
  have hidle : (s.sessions k).jobActive = false := by rw [hself]
  have hunread : ¬w.schema.HasReadable → ∀ (i : Nat) (f : Feature),
      w.schema.features[i]? = some f → f.readable = false := by
    intro hread i f hf
    by_contra hr
    exact hread ⟨f, List.mem_of_getElem? hf, by simpa using hr⟩
  have hown : w.schema.HasReadable → o.forgotten = false := by
    intro hread
    by_contra hf
    exact (hl.leftover hread o hmem (by simpa using hf)).1 howner.symm
  have hinv := resume_inv hb' (by rw [after_seed]; exact hk') hw (by rw [after_seed]; exact hl')
    (fun _ _ hmore => ?_) (fun _ hstopped => ?_) answer
  · rw [after_seed, after_schemas] at hinv
    exact hinv
  · -- a feature is left to read, so `o` was the one job of the session
    have hread : w.schema.HasReadable := by
      by_contra hno
      exact hmore fun i f _ _ hf => hunread hno i f hf
    have hopen := contextFree_of_released h ho fun o' ho' hne => by
      have herase : o' ∈ (jobsOf σ.outstanding o.deviceId).erase o :=
        (List.mem_erase_of_ne hne).mpr ho'
      have hleft : o'.forgotten = true := by
        rw [hview] at hl'
        exact hl'.forgotten_of_idle hidle o' herase
      exact (hl.leftover hread o' ho' hleft).2 o hmem (hown hread)
    rw [after_seed, hs]
    rw [Seed.ContextFree, Seed.findContext_congr (Seed.setSession_contexts ..)]
    exact hopen
  · -- the session was stopped, so it has never had anything to read
    rw [after_seed, hself] at hstopped
    have hread : ¬w.schema.HasReadable := by
      intro hr
      have hactive : (σ.seed.sessions k).jobActive = true := by
        by_contra hj
        have := hl.forgotten_of_idle (by simpa using hj) o hmem
        rw [hown hr] at this
        cases this
      cases (hl.running hactive).1.symm.trans hstopped
    refine ⟨fun _ i f _ hf => hunread hread i f hf, fun _ f hf hr => ?_⟩
    exact absurd ⟨f, hf, hr⟩ hread

/-- **A completion keeps the invariant.** -/
theorem complete_inv (h : SeedInv σ) (ho : o ∈ σ.outstanding) (result : Option Result)
    (answer : Except EspErr UInt32) :
    SeedInv (Sys.after { σ with outstanding := σ.outstanding.erase o }
      (σ.seed.contexts o.context).deviceId
      (completion σ.schemas σ.seed result o.context answer).1
      (completion σ.schemas σ.seed result o.context answer).2) := by
  have hheld := h.contexts.held o ho
  have hdev : (σ.seed.contexts o.context).deviceId = o.deviceId := by rw [hheld]
  have htok : (σ.seed.contexts o.context).ownerToken = o.job.ownerToken := by rw [hheld]
  have hmem : o ∈ jobsOf σ.outstanding o.deviceId := mem_jobsOf.mpr ⟨ho, rfl⟩
  have hb := h.released ho
  rw [completion, hdev]
  cases hk : σ.seed.findSession o.deviceId with
  | none =>
      -- the session has been forgotten: the context is free again, and that is all
      have hkc : σ.seed.findSession (σ.seed.contexts o.context).deviceId = none := by rw [hdev, hk]
      have hkr : (σ.released o).seed.findSession o.deviceId = none := hk
      rw [completionSection_gone hkc]
      show SeedInv (Sys.after _ _ (startNext _ _ _ _ (σ.released o).seed).1
        (startNext _ _ _ _ (σ.released o).seed).2)
      rw [startNext_gone hkr]
      refine hb.close ?_
      rw [released_view]
      cases h.views o.deviceId with
      | gone session watch left =>
          exact .gone session watch fun o' ho' => left o' (List.mem_of_mem_erase ho')
      | live s w session =>
          cases session.symm.trans (Seed.sessionOf_eq_none hk)
  | some k =>
      obtain ⟨w, hw, hl, hs⟩ : ∃ w, σ.latest o.deviceId = some w ∧
          Live o.deviceId (σ.view o.deviceId) (σ.seed.sessions k) w ∧
            ((σ.seed.sessions k).jobActive = false →
              Settled o.deviceId (σ.seed.sessions k) w) := by
        have hsession := Seed.sessionOf_of_find hk
        cases h.views o.deviceId with
        | gone session => cases session.symm.trans hsession
        | live s w session watch live settled =>
            obtain rfl := Option.some.inj (session.symm.trans hsession)
            exact ⟨w, watch, live, settled⟩
      have hkc : σ.seed.findSession (σ.seed.contexts o.context).deviceId = some k := by
        rw [hdev, hk]
      have hsection := completionSection_eq hkc result
      rw [htok] at hsection
      by_cases howner : (σ.seed.sessions k).ownerToken = o.job.ownerToken
      · -- the completed job was the session's: read on
        rw [if_pos howner] at hsection
        obtain ⟨n, r, hn, hsection⟩ := hsection
        exact complete_own h ho hk hw hl howner hn answer hsection
      · -- a leftover: the session stays as it is
        rw [if_neg howner] at hsection
        have hf : o.forgotten = true := by
          cases hf : o.forgotten with
          | true => rfl
          | false => exact absurd (hl.owner o hmem hf).symm howner
        have hlive : Live o.deviceId ((σ.released o).view o.deviceId) (σ.seed.sessions k) w := by
          rw [released_view]
          exact hl.dropped hf
        rw [hsection]
        exact resume_inv (σ := σ.released o) hb hk hw hlive
          (fun hidle hactive hskips => absurd (fun i f hi _ hf =>
            (hs hidle).exhausted hactive i f hi hf) hskips)
          (fun hidle _ => hs hidle) answer

end Complete

/-! ## Commits -/

variable {schemas : SchemaTable}

theorem schemaOf_eq_some {id : DeviceId} {schema : Schema} (h : schemaOf schemas id = some schema) :
    ∃ r, (schemas r).used = true ∧ (schemas r).deviceId = id := by
  cases hr : findRecord schemas id with
  | none =>
      rw [schemaOf, Directory.record_of_lookup_none hr] at h
      cases h
  | some r => exact ⟨r, Directory.lookup_spec hr⟩

/-- What a commit does to the schema table. -/
structure Committed (schemas schemas' : SchemaTable) (id : DeviceId) (schema : Schema) :
    Prop where
  distinct : Directory.Distinct SchemaRecord.used SchemaRecord.deviceId schemas'
  schema : schemaOf schemas' id = some schema
  others : ∀ id', id' ≠ id → schemaOf schemas' id' = schemaOf schemas id'

theorem committed_update {id : DeviceId} {schema : Schema} {r : Ix} {record : SchemaRecord}
    (hd : Directory.Distinct SchemaRecord.used SchemaRecord.deviceId
      (Function.update schemas r record))
    (hused : record.used = true) (hid : record.deviceId = id)
    (hschema : record.committed = some schema)
    (hold : (schemas r).used = true → (schemas r).deviceId = id) :
    Committed schemas (Function.update schemas r record) id schema where
  distinct := hd
  schema := by
    have hrec := hd.record_update hused
    rw [hid] at hrec
    rw [schemaOf, hrec, Option.bind_some, hschema]
  others id' hne := by
    have hrec := Directory.record_update_of_ne 
      (fun hu he => hne (he.symm.trans (hold hu))) (fun _ he => hne (he.symm.trans hid))
    rw [schemaOf, schemaOf, hrec]

theorem commitSchema_spec {schemas' : SchemaTable} {id : DeviceId} {schema : Schema}
    (hd : Directory.Distinct SchemaRecord.used SchemaRecord.deviceId schemas)
    (h : commitSchema schemas id schema = some schemas') :
    Committed schemas schemas' id schema := by
  rw [commitSchema] at h
  cases hr : findRecord schemas id with
  | some r =>
      obtain ⟨hused, hid⟩ := Directory.lookup_spec hr
      rw [hr] at h
      cases h
      exact committed_update (hd.update_same (fun _ => hused) (by rfl)) hused hid rfl
        fun _ => hid
  | none =>
      rw [hr] at h
      cases hv : Directory.vacant SchemaRecord.used schemas with
      | none =>
          rw [hv] at h
          cases h
      | some r =>
          rw [hv] at h
          cases h
          have hfree := Directory.vacant_spec hv
          refine committed_update (hd.update fun _ j _ hj he => ?_) rfl rfl rfl
            fun hu => absurd (hu.symm.trans hfree) (by simp)
          exact Directory.lookup_eq_none.mp hr j hj he

section Commit

variable {σ : Sys} {id : DeviceId} {schema : Schema} {k : Ix}

/-- The first start after a commit. -/
theorem first_start (hb : SeedInvBut id σ) (hk : σ.seed.findSession id = some k)
    (hw : σ.latest id = some ⟨schema, [], false⟩) (hschema : schemaOf σ.schemas id = some schema)
    (hrev : (σ.seed.sessions k).schemaRevision = schema.revision)
    (hnext : (σ.seed.sessions k).nextFeatureIndex = 0)
    (hidle : (σ.seed.sessions k).jobActive = false)
    (hactive : (σ.seed.sessions k).active = true)
    (hleft : ∀ o ∈ jobsOf σ.outstanding id, o.forgotten = true)
    (hok : schema.HasReadable → σ.seed.ContextFree id ∧
      ∀ o ∈ jobsOf σ.outstanding id, o.job.ownerToken ≠ (σ.seed.sessions k).ownerToken)
    (answer : Except EspErr UInt32) :
    SeedInv (σ.after id (startNext σ.schemas id answer DEVICE_SCHEMA_MAX_FEATURES σ.seed).1
      (startNext σ.schemas id answer DEVICE_SCHEMA_MAX_FEATURES σ.seed).2) := by
  have hopen : ∀ o ∈ jobsOf σ.outstanding id, o.forgotten = false → False := by
    intro o ho hf
    rw [hleft o ho] at hf
    cases hf
  have hl : Live id (σ.view id) (σ.seed.sessions k) ⟨schema, [], false⟩ :=
    { schema := hschema
      revision := hrev
      flag := by
        rw [hidle, if_neg (by simp), List.countP_eq_zero]
        intro o ho
        simp [hleft o ho]
      owner := fun o ho hf => (hopen o ho hf).elim
      running := fun h => absurd (h.symm.trans hidle) (by simp)
      leftover := fun hr o ho _ => ⟨(hok hr).2 o ho, fun o' ho' hf => (hopen o' ho' hf).elim⟩
      progress := fun _ i f hi => absurd hi (by rw [hnext]; omega) }
  refine start_inv hb hk hw hl hidle hactive (fun hmore => ?_) answer
  have hread : schema.HasReadable := by
    by_contra hno
    refine hmore fun i f _ _ hf => ?_
    by_contra hr
    exact hno ⟨f, List.mem_of_getElem? hf, by simpa using hr⟩
  exact (hok hread).1

/-- The state between a schema's commit and its listener. -/
def Sys.committed (σ : Sys) (schemas : SchemaTable) (id : DeviceId) (schema : Schema) : Sys :=
  { σ with
    schemas := schemas
    latest := Function.update σ.latest id (some ⟨schema, [], false⟩) }

theorem SeedInv.committed (h : SeedInv σ) (hc : Committed σ.schemas schemas id schema) :
    SeedInvBut id (σ.committed schemas id schema) where
  sessions := h.sessions
  zeroed := h.zeroed
  schemas := hc.distinct
  contexts := h.contexts
  others id' hne := by
    have hview : (σ.committed schemas id schema).view id' = σ.view id' := by
      simp only [Sys.view, Sys.committed, Function.update_of_ne hne, hc.others id' hne]
    rw [hview]
    exact h.views id'

/-- There is always a session for a device with a schema. -/
theorem session_vacant (h : SeedInv σ) (hc : Committed σ.schemas schemas id schema)
    (hk : σ.seed.findSession id = none) :
    ∃ k, Directory.vacant Session.used σ.seed.sessions = some k := by
  rw [← Option.isSome_iff_exists, Option.isSome_iff_ne_none]
  have hno := Directory.lookup_eq_none.mp hk
  obtain ⟨r, hr, hrid⟩ := schemaOf_eq_some hc.schema
  refine Directory.vacant_ne_none SchemaRecord.used SchemaRecord.deviceId schemas (j := r)
    h.sessions (fun i hi => ?_) fun i hi => ?_
  · -- every session has a watch, hence a committed schema
    have hne : (σ.seed.sessions i).deviceId ≠ id := hno i hi
    have hsession := Seed.sessionOf_of_find (h.sessions.lookup_eq hi)
    cases h.views (σ.seed.sessions i).deviceId with
    | gone session => cases session.symm.trans hsession
    | live s w _ _ live =>
        exact schemaOf_eq_some ((hc.others _ hne).trans live.schema)
  · rw [hrid]
    exact hno i hi

/-- The session a commit works on: it waits for nothing, and whatever is outstanding for the
device belongs to forgotten sessions. -/
theorem commit_session (h : SeedInv σ) (hc : Committed σ.schemas schemas id schema)
    (hidle : ∀ k, (σ.seed.sessions k).used = true → (σ.seed.sessions k).deviceId = id →
      (σ.seed.sessions k).jobActive = false) :
    ∃ s k, σ.seed.findOrCreateSession id = some (s, k) ∧ s.findSession id = some k ∧
      s.contexts = σ.seed.contexts ∧ s.nextOwner = σ.seed.nextOwner ∧
      (s.sessions k).jobActive = false ∧
      (∀ o ∈ jobsOf σ.outstanding id, o.forgotten = true) ∧
      SeedInvBut id { σ.committed schemas id schema with seed := s } := by
  have hb := h.committed hc
  cases hk : σ.seed.findSession id with
  | some k =>
      obtain ⟨hused, hid⟩ := Seed.findSession_spec hk
      have hjob := hidle k hused hid
      have hsession := Seed.sessionOf_of_find hk
      refine ⟨σ.seed, k, ?_, hk, rfl, rfl, hjob, ?_, hb⟩
      · rw [Seed.findOrCreateSession, hk]
      · cases h.views id with
        | gone session => cases session.symm.trans hsession
        | live s w session _ live =>
            obtain rfl := Option.some.inj (session.symm.trans hsession)
            exact live.forgotten_of_idle hjob
  | none =>
      obtain ⟨k, hv⟩ := session_vacant h hc hk
      have hfree := Directory.vacant_spec hv
      have hzero := h.zeroed k hfree
      have hd : Directory.Distinct Session.used Session.deviceId
          (Function.update σ.seed.sessions k { σ.seed.sessions k with
            used := true, deviceId := id }) :=
        h.sessions.update fun _ j _ hj he => Directory.lookup_eq_none.mp hk j hj he
      refine ⟨σ.seed.setSession k { σ.seed.sessions k with used := true, deviceId := id }, k,
        ?_, ?_, rfl, rfl, ?_, ?_, ?_⟩
      · rw [Seed.findOrCreateSession, hk, hv]
      · refine hd.lookup_eq_some.mpr ?_
        rw [Function.update_self]
        exact ⟨rfl, rfl⟩
      · rw [Seed.setSession_sessions, Function.update_self, hzero]
      · cases h.views id with
        | gone _ _ left => exact left
        | live s w session =>
            cases session.symm.trans (Seed.sessionOf_eq_none hk)
      · refine ⟨hd, fun j hj => ?_, hc.distinct, h.contexts, fun id' hne => ?_⟩
        · have hjk : j ≠ k := by
            rintro rfl
            rw [Seed.setSession_sessions, Function.update_self] at hj
            cases hj
          rw [Seed.setSession_sessions, Function.update_of_ne hjk] at hj ⊢
          exact h.zeroed j hj
        · have hsession : (σ.seed.setSession k { σ.seed.sessions k with
              used := true, deviceId := id }).sessionOf id' = σ.seed.sessionOf id' :=
            Seed.sessionOf_setSession_of_ne (fun hu => absurd (hu.symm.trans hfree) (by simp))
              fun _ he => hne he.symm
          have hview := hb.others id' hne
          rw [Sys.view] at hview ⊢
          rw [hsession]
          exact hview

/-- **A commit keeps the invariant** under the condition. -/
theorem commit_inv (h : SeedInv σ) {answer : Except EspErr UInt32}
    (hok : CommitsIdle σ (.commit id schema answer))
    (hc : commitSchema σ.schemas id schema = some schemas) :
    SeedInv ((σ.committed schemas id schema).after id
      (onSchemaCommit schemas σ.seed id schema.revision answer).1
      (onSchemaCommit schemas σ.seed id schema.revision answer).2) := by
  have hspec := commitSchema_spec h.schemas hc
  obtain ⟨s, k, hfound, hk, hctx, howner, hjob, hleft, hb⟩ := commit_session h hspec hok.1
  have hno : ¬((s.sessions k).jobActive && (s.sessions k).ownerToken ≠ 0) = true := by
    simp [hjob]
  rw [onSchemaCommit, hfound]
  dsimp only
  rw [if_neg hno]
  -- the listener's writes: the session starts over, under a new token
  have hkept : SeedInvBut id (({ σ.committed schemas id schema with seed := s } : Sys).after id
      (Seed.setSession { s with nextOwner := Scheduler.nextId s.nextOwner } k
        { s.sessions k with
          schemaRevision := schema.revision
          ownerToken := Scheduler.nextId s.nextOwner
          nextFeatureIndex := 0
          activeJobId := 0
          retryCount := 0
          active := true }) none) :=
    hb.after hk (by rfl) (by rfl) (by rfl) (by simp) hb.contexts
  generalize hs' : Seed.setSession _ k _ = s' at hkept ⊢
  have hself := congrArg (fun s : Seed => s.sessions k) hs'
  rw [Seed.setSession_sessions, Function.update_self] at hself
  have hk' : s'.findSession id = some k := by
    rw [← hs', ← hk]
    exact Seed.findSession_setSession (by rfl) (by rfl) _
  have hfree : schema.HasReadable → s'.ContextFree id ∧ ∀ o ∈ jobsOf σ.outstanding id,
      o.job.ownerToken ≠ (s'.sessions k).ownerToken := by
    intro hr
    obtain ⟨hctxfree, htokens⟩ := hok.2 hr
    refine ⟨?_, fun o ho => ?_⟩
    · have hcontexts : s'.contexts = σ.seed.contexts := by
        rw [← hs', ← hctx]
        rfl
      rw [Seed.ContextFree, Seed.findContext_congr hcontexts, hcontexts]
      exact hctxfree
    · obtain ⟨hmem, hid⟩ := mem_jobsOf.mp ho
      have hheld := h.contexts.held o hmem
      have := htokens o.context (by rw [hheld]) (by rw [hheld]; exact hid)
      rw [hheld] at this
      rw [← hself, howner]
      exact this
  have hinv := first_start hkept (by rw [after_seed]; exact hk') (Function.update_self ..)
    (by rw [after_schemas]; exact hspec.schema) (by rw [after_seed, ← hself])
    (by rw [after_seed, ← hself]) (by rw [after_seed, ← hself]; exact hjob)
    (by rw [after_seed, ← hself]) hleft (by rw [after_seed]; exact hfree) answer
  rw [after_seed] at hinv
  exact hinv

end Commit

end BleGateway.StateSeed
