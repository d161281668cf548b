import BleGateway.StateSeed.Model
import Mathlib.Data.List.Count

/-! # The invariant of state seeding

Every handler works for one device. The invariant is therefore stated for what concerns one
device (its `View`), and a handler has to restore it for one view only. This file has the
invariant and the start of a read, with which every handler ends.
-/

namespace BleGateway.StateSeed

/-! ## The condition on a step -/

def Schema.HasReadable (schema : Schema) : Prop := ∃ f ∈ schema.features, f.readable = true

instance (schema : Schema) : Decidable schema.HasReadable :=
  inferInstanceAs (Decidable (∃ f ∈ schema.features, f.readable = true))

/-- A read for `id` can be given a context. -/
def Seed.ContextFree (s : Seed) (id : DeviceId) : Prop :=
  (s.findContext id).any (fun i => !(s.contexts i).inUse) = true

instance (s : Seed) (id : DeviceId) : Decidable (s.ContextFree id) :=
  inferInstanceAs (Decidable (_ = true))

/-- A schema is committed only while the session of the device waits for no completion. If it
has features to read, then the search for a context ends at a free one, and no context that is
still held for the device carries the owner token the session is about to get. -/
def CommitsIdle (σ : Sys) : Label → Prop
  | .commit id schema _ =>
      (∀ k, (σ.seed.sessions k).used = true → (σ.seed.sessions k).deviceId = id →
        (σ.seed.sessions k).jobActive = false) ∧
      (schema.HasReadable → σ.seed.ContextFree id ∧
        ∀ i, (σ.seed.contexts i).inUse = true → (σ.seed.contexts i).deviceId = id →
          (σ.seed.contexts i).ownerToken ≠ Scheduler.nextId σ.seed.nextOwner)
  | _ => True

instance (σ : Sys) (l : Label) : Decidable (CommitsIdle σ l) := by
  cases l with
  | commit id schema answer => exact inferInstanceAs (Decidable (_ ∧ _))
  | complete => exact inferInstanceAs (Decidable True)
  | disconnect => exact inferInstanceAs (Decidable True)
  | forget => exact inferInstanceAs (Decidable True)

/-! ## What concerns one device -/

/-- The read of a feature has been submitted since the commit. -/
def Watch.Read (w : Watch) (id : DeviceId) (f : Feature) : Prop :=
  ∃ owner, seedJob id owner f ∈ w.submitted

/-- The session of a device, its latest commit, its schema and its outstanding jobs. -/
structure View where
  session : Option Session
  watch : Option Watch
  schema : Option Schema
  jobs : List Outstanding

def schemaOf (schemas : SchemaTable) (id : DeviceId) : Option Schema :=
  (Directory.record SchemaRecord.used SchemaRecord.deviceId schemas id).bind (·.committed)

def Seed.sessionOf (s : Seed) (id : DeviceId) : Option Session :=
  Directory.record Session.used Session.deviceId s.sessions id

def jobsOf (jobs : List Outstanding) (id : DeviceId) : List Outstanding :=
  jobs.filter fun o => decide (o.deviceId = id)

def Sys.view (σ : Sys) (id : DeviceId) : View where
  session := σ.seed.sessionOf id
  watch := σ.latest id
  schema := schemaOf σ.schemas id
  jobs := jobsOf σ.outstanding id

/-- The session is part of a read-out of `w`. -/
structure Live (id : DeviceId) (v : View) (s : Session) (w : Watch) : Prop where
  schema : v.schema = some w.schema
  revision : s.schemaRevision = w.schema.revision
  flag : v.jobs.countP (fun o => !o.forgotten) = if s.jobActive = true then 1 else 0
  owner : ∀ o ∈ v.jobs, o.forgotten = false → o.job.ownerToken = s.ownerToken
  running : s.jobActive = true → s.active = true ∧ w.schema.HasReadable
  leftover : w.schema.HasReadable → ∀ o ∈ v.jobs, o.forgotten = true →
    o.job.ownerToken ≠ s.ownerToken ∧
      ∀ o' ∈ v.jobs, o'.forgotten = false → o'.context < o.context
  progress : w.submitFailed = false → ∀ i f, i < s.nextFeatureIndex →
    w.schema.features[i]? = some f → f.readable = true → w.Read id f

/-- A session without an outstanding job has nothing left to read. -/
structure Settled (id : DeviceId) (s : Session) (w : Watch) : Prop where
  exhausted : s.active = true → ∀ i f, s.nextFeatureIndex ≤ i →
    w.schema.features[i]? = some f → f.readable = false
  read : w.submitFailed = false → ∀ f ∈ w.schema.features, f.readable = true → w.Read id f

/-- The invariant of one device. -/
inductive ViewInv (id : DeviceId) (v : View) : Prop
  | gone (session : v.session = none) (watch : v.watch = none)
      (left : ∀ o ∈ v.jobs, o.forgotten = true)
  | live (s : Session) (w : Watch) (session : v.session = some s) (watch : v.watch = some w)
      (live : Live id v s w) (settled : s.jobActive = false → Settled id s w)

/-- The contexts in use are those of the outstanding jobs. -/
structure ContextsInv (contexts : Ix → Context) (jobs : List Outstanding) : Prop where
  nodup : (jobs.map (·.context)).Nodup
  held : ∀ o ∈ jobs, contexts o.context = ⟨true, o.deviceId, o.job.ownerToken⟩
  owed : ∀ i, (contexts i).inUse = true → ∃ o ∈ jobs, o.context = i

structure SeedInv (σ : Sys) : Prop where
  sessions : Directory.Distinct Session.used Session.deviceId σ.seed.sessions
  zeroed : ∀ k, (σ.seed.sessions k).used = false → σ.seed.sessions k = {}
  schemas : Directory.Distinct SchemaRecord.used SchemaRecord.deviceId σ.schemas
  contexts : ContextsInv σ.seed.contexts σ.outstanding
  views : ∀ id, ViewInv id (σ.view id)

/-! ## What `state_seed_start_next` does -/

variable {schema : Schema} {schemas : SchemaTable} {f : Feature}

theorem getFeatureAt_eq {id : DeviceId} (h : schemaOf schemas id = some schema) (index : Nat) :
    getFeatureAt schemas id schema.revision index =
      (schema.features[index]?).elim (.error .notFound) .ok := by
  have hrec : ((findRecord schemas id).bind fun r => (schemas r).committed) = some schema := by
    rw [← h, schemaOf, Directory.record, findRecord, Option.bind_map]
    rfl
  rw [getFeatureAt, hrec]
  cases hf : schema.features[index]? <;> simp [hf]

/-- The features of the schema from index `a` up to `b` are not readable. -/
def Schema.Skips (schema : Schema) (a b : Nat) : Prop :=
  ∀ i f, a ≤ i → i < b → schema.features[i]? = some f → f.readable = false

/-- How `state_seed_start_next` ends for a session of `schema` that waits for its next read. -/
inductive Started (id : DeviceId) (schema : Schema) (s : Seed) (k : Ix)
    (answer : Except EspErr UInt32) : Seed × Option Submit → Prop
  /-- No readable feature is left. -/
  | finished (n : Nat) (a : Bool) (from_next : (s.sessions k).nextFeatureIndex ≤ n)
      (skips : schema.Skips (s.sessions k).nextFeatureIndex schema.features.length) :
      Started id schema s k answer
        (s.setSession k { s.sessions k with nextFeatureIndex := n, active := a }, none)
  | submitted (m : Nat) (f : Feature) (i : Ix) (jobId : UInt32)
      (from_next : (s.sessions k).nextFeatureIndex ≤ m)
      (feature : schema.features[m]? = some f) (readable : f.readable = true)
      (skips : schema.Skips (s.sessions k).nextFeatureIndex m)
      (context : s.findContext id = some i) (free : (s.contexts i).inUse = false)
      (accepted : answer = .ok jobId) :
      Started id schema s k answer
        ((s.setContext i ⟨true, id, (s.sessions k).ownerToken⟩).setSession k
          { s.sessions k with nextFeatureIndex := m + 1, jobActive := true, activeJobId := jobId },
          some ⟨i, seedJob id (s.sessions k).ownerToken f, answer⟩)
  | refused (m : Nat) (f : Feature) (i : Ix) (err : EspErr)
      (from_next : (s.sessions k).nextFeatureIndex ≤ m)
      (feature : schema.features[m]? = some f) (readable : f.readable = true)
      (skips : schema.Skips (s.sessions k).nextFeatureIndex m)
      (context : s.findContext id = some i) (free : (s.contexts i).inUse = false)
      (rejected : answer = .error err) :
      Started id schema s k answer
        ((s.setContext i ⟨false, id, (s.sessions k).ownerToken⟩).setSession k
          { s.sessions k with nextFeatureIndex := m + 1, jobActive := false, active := false },
          some ⟨i, seedJob id (s.sessions k).ownerToken f, answer⟩)

theorem Schema.Skips.tail {a b : Nat} (h : schema.Skips a b) :
    schema.Skips (a + 1) b := by
  intro i f hi hb hf
  exact h i f (by omega) hb hf

theorem Schema.Skips.cons {a b : Nat} (h : schema.Skips (a + 1) b)
    (hf : schema.features[a]? = some f) (hr : f.readable = false) : schema.Skips a b := by
  intro i g hai hib hg
  rcases Nat.eq_or_lt_of_le hai with rfl | hlt
  · rw [hf] at hg
    exact Option.some.inj hg ▸ hr
  · exact h i g hlt hib hg

/-- **One start of a read.** With enough rounds left to reach the end of the schema, and a
free context if a readable feature comes, the session submits its next readable feature or is
through. -/
theorem startNext_spec {id : DeviceId} (hschema : schemaOf schemas id = some schema)
    (answer : Except EspErr UInt32) (attempts : Nat) {s : Seed} {k : Ix}
    (hk : s.findSession id = some k) (hactive : (s.sessions k).active = true)
    (hidle : (s.sessions k).jobActive = false)
    (hrev : (s.sessions k).schemaRevision = schema.revision)
    (hrounds : schema.features.length ≤ (s.sessions k).nextFeatureIndex + attempts)
    (hfree : ¬schema.Skips (s.sessions k).nextFeatureIndex schema.features.length →
      s.ContextFree id) :
    Started id schema s k answer (startNext schemas id answer attempts s) := by
  induction attempts generalizing s with
  | zero =>
      have hdone : schema.Skips (s.sessions k).nextFeatureIndex schema.features.length := by
        intro i f hi hlen
        omega
      have hsame : s = s.setSession k { s.sessions k with } := by
        simp [Seed.setSession]
      rw [startNext]
      have hfin : Started id schema s k answer _ := .finished
        (s.sessions k).nextFeatureIndex (s.sessions k).active (le_refl _) hdone
      rwa [← hsame] at hfin
  | succ attempts ih =>
      have hget : getFeatureAt schemas id (s.sessions k).schemaRevision
          (s.sessions k).nextFeatureIndex =
            (schema.features[(s.sessions k).nextFeatureIndex]?).elim (.error .notFound) .ok := by
        rw [hrev, getFeatureAt_eq hschema]
      rw [startNext, hk]
      dsimp only
      rw [if_neg (by simp [hactive, hidle]), hget]
      cases hf : schema.features[(s.sessions k).nextFeatureIndex]? with
      | none =>
          have hlen := List.getElem?_eq_none_iff.mp hf
          refine .finished _ false (le_refl _) ?_
          intro i f hi hlt
          omega
      | some f =>
          dsimp only [Option.elim]
          cases hr : f.readable with
          | false =>
              -- skip the feature: one round less, one feature less
              have hfind : (s.setSession k { s.sessions k with
                  nextFeatureIndex := (s.sessions k).nextFeatureIndex + 1 }).findSession id =
                    some k :=
                (Seed.findSession_setSession (by rfl) (by rfl) id).trans hk
              have hskips : ∀ b, schema.Skips ((s.sessions k).nextFeatureIndex + 1) b →
                  schema.Skips (s.sessions k).nextFeatureIndex b := fun b h => h.cons hf hr
              have hih := ih hfind (by simpa using hactive) (by simpa using hidle)
                (by simpa using hrev) (by simp; omega) (fun hmore => ?_)
              · rw [if_pos (by simp)]
                generalize startNext schemas id answer attempts _ = r at hih ⊢
                cases hih with
                | finished n a from_next skips =>
                    simp only [Seed.setSession_sessions, Function.update_self,
                      Seed.setSession_setSession] at from_next skips ⊢
                    exact .finished n a (by omega) (hskips _ skips)
                | submitted m g i jobId from_next feature readable skips context free accepted =>
                    simp only [Seed.setSession_sessions, Function.update_self,
                      Seed.setSession_setContext_setSession, Seed.setSession_contexts]
                      at from_next skips free ⊢
                    rw [Seed.findContext_congr (Seed.setSession_contexts ..)] at context
                    exact .submitted m g i jobId (by omega) feature readable (hskips _ skips)
                      context free accepted
                | refused m g i err from_next feature readable skips context free rejected =>
                    simp only [Seed.setSession_sessions, Function.update_self,
                      Seed.setSession_setContext_setSession, Seed.setSession_contexts]
                      at from_next skips free ⊢
                    rw [Seed.findContext_congr (Seed.setSession_contexts ..)] at context
                    exact .refused m g i err (by omega) feature readable (hskips _ skips)
                      context free rejected
              · have hfree' := hfree fun h => hmore (by simpa using h.tail)
                rw [Seed.ContextFree, Seed.findContext_congr (Seed.setSession_contexts ..)]
                exact hfree'
          | true =>
              have hlt : (s.sessions k).nextFeatureIndex < schema.features.length :=
                (List.getElem?_eq_some_iff.mp hf).1
              have hmore : ¬schema.Skips (s.sessions k).nextFeatureIndex
                  schema.features.length := by
                intro h
                have := h _ f (le_refl _) hlt hf
                simp [hr] at this
              have hnone : schema.Skips (s.sessions k).nextFeatureIndex
                  (s.sessions k).nextFeatureIndex := by
                intro i g hi hlt
                omega
              obtain ⟨i, hi, hfree⟩ : ∃ i, s.findContext id = some i ∧
                  (s.contexts i).inUse = false := by
                have := hfree hmore
                rw [Seed.ContextFree, Option.any_eq_true] at this
                simpa using this
              rw [if_neg (by simp), Seed.findContext_congr rfl, hi]
              dsimp only
              rw [if_neg (by simp [hfree])]
              cases answer with
              | ok jobId =>
                  exact .submitted _ f i jobId (le_refl _) hf hr hnone hi hfree rfl
              | error err =>
                  exact .refused _ f i err (le_refl _) hf hr hnone hi hfree rfl

/-! ## What a step leaves of a view -/

/-- The invariant of everything but the device `id`, for which a handler is running. -/
structure SeedInvBut (id : DeviceId) (σ : Sys) : Prop where
  sessions : Directory.Distinct Session.used Session.deviceId σ.seed.sessions
  zeroed : ∀ k, (σ.seed.sessions k).used = false → σ.seed.sessions k = {}
  schemas : Directory.Distinct SchemaRecord.used SchemaRecord.deviceId σ.schemas
  contexts : ContextsInv σ.seed.contexts σ.outstanding
  others : ∀ id', id' ≠ id → ViewInv id' (σ.view id')

theorem SeedInv.but {σ : Sys} (h : SeedInv σ) (id : DeviceId) : SeedInvBut id σ :=
  ⟨h.sessions, h.zeroed, h.schemas, h.contexts, fun id' _ => h.views id'⟩

theorem SeedInvBut.close {id : DeviceId} {σ : Sys} (h : SeedInvBut id σ)
    (hid : ViewInv id (σ.view id)) : SeedInv σ where
  sessions := h.sessions
  zeroed := h.zeroed
  schemas := h.schemas
  contexts := h.contexts
  views id' := by
    by_cases hne : id' = id
    · rw [hne]; exact hid
    · exact h.others id' hne

namespace Seed

variable {s : Seed} {k : Ix} {session : Session} {id : DeviceId}

theorem findSession_spec (h : s.findSession id = some k) :
    (s.sessions k).used = true ∧ (s.sessions k).deviceId = id :=
  Directory.lookup_spec h

theorem sessionOf_of_find (h : s.findSession id = some k) :
    s.sessionOf id = some (s.sessions k) :=
  Directory.record_of_lookup h

theorem sessionOf_eq_none (h : s.findSession id = none) : s.sessionOf id = none :=
  Directory.record_of_lookup_none h

/-- The session of a device after it has been changed in place. -/
theorem sessionOf_setSession
    (hd : Directory.Distinct Session.used Session.deviceId s.sessions)
    (hk : s.findSession id = some k) (hused : session.used = (s.sessions k).used)
    (hid : session.deviceId = (s.sessions k).deviceId) :
    (s.setSession k session).sessionOf id = some session := by
  obtain ⟨hku, hkid⟩ := findSession_spec hk
  have hd' : Directory.Distinct Session.used Session.deviceId
      (Function.update s.sessions k session) :=
    hd.update_same (fun _ => hku) hid
  have hrec := hd'.record_update (hused.trans hku)
  rwa [hid, hkid] at hrec

theorem sessionOf_setSession_of_ne {id' : DeviceId}
    (hold : (s.sessions k).used = true → (s.sessions k).deviceId ≠ id')
    (hnew : session.used = true → session.deviceId ≠ id') :
    (s.setSession k session).sessionOf id' = s.sessionOf id' :=
  Directory.record_update_of_ne hold hnew

end Seed

theorem jobsOf_append (jobs : List Outstanding) (o : Outstanding) (id : DeviceId) :
    jobsOf (jobs ++ [o]) id = jobsOf jobs id ++ if o.deviceId = id then [o] else [] := by
  rw [jobsOf, jobsOf, List.filter_append]
  by_cases h : o.deviceId = id <;> simp [h]

variable {jobs : List Outstanding} {o : Outstanding}

theorem mem_jobsOf {id : DeviceId} :
    o ∈ jobsOf jobs id ↔ o ∈ jobs ∧ o.deviceId = id := by
  simp [jobsOf]

/-! ## A start keeps the invariant -/

section Start

variable {id : DeviceId} {σ : Sys} {k : Ix} {w : Watch}

theorem Live.all_read {s : Session} {v : View} (h : Live id v s w)
    (hskips : w.schema.Skips s.nextFeatureIndex w.schema.features.length)
    (hok : w.submitFailed = false) (i : Nat) (f : Feature)
    (hf : w.schema.features[i]? = some f) (hr : f.readable = true) : w.Read id f := by
  have hlen : i < w.schema.features.length := (List.getElem?_eq_some_iff.mp hf).1
  by_cases hi : i < s.nextFeatureIndex
  · exact h.progress hok i f hi hf hr
  · have := hskips i f (by omega) hlen hf
    simp [hr] at this

/-- A session without an outstanding job has only forgotten ones. -/
theorem Live.forgotten_of_idle {s : Session} {v : View} (h : Live id v s w)
    (hidle : s.jobActive = false) (o : Outstanding) (ho : o ∈ v.jobs) : o.forgotten = true := by
  have hcount := h.flag
  rw [hidle, if_neg (by simp), List.countP_eq_zero] at hcount
  simpa using hcount o ho

theorem Watch.Read.record (h : w.Read id f) (submit : Submit) :
    (w.record submit).Read id f := by
  obtain ⟨owner, hmem⟩ := h
  refine ⟨owner, ?_⟩
  rw [Watch.record]
  cases submit.answer with
  | ok _ => exact List.mem_append_left _ hmem
  | error _ => exact hmem

@[simp] theorem Watch.record_schema (submit : Submit) : (w.record submit).schema = w.schema := by
  rw [Watch.record]
  cases submit.answer <;> rfl

theorem after_view_of_ne {id' : DeviceId} (hne : id' ≠ id) {seed : Seed} {submit : Option Submit}
    (hjob : ∀ sub ∈ submit, sub.job.request.deviceId = id)
    (hsession : seed.sessionOf id' = σ.seed.sessionOf id') :
    (σ.after id seed submit).view id' = σ.view id' := by
  cases submit with
  | none => simp only [Sys.after, Sys.view, hsession]
  | some submit =>
      have hdev : submit.job.request.deviceId = id := hjob submit rfl
      have hjobs : ∀ c f, jobsOf (σ.outstanding ++ [⟨c, submit.job, f⟩]) id' =
          jobsOf σ.outstanding id' := by
        intro c f
        rw [jobsOf_append, if_neg (by rw [Outstanding.deviceId, hdev]; exact hne.symm),
          List.append_nil]
      simp only [Sys.after, Sys.view, hsession, Function.update_of_ne hne]
      cases submit.answer with
      | ok _ => rw [hjobs]
      | error _ => rfl

@[simp] theorem after_seed (seed : Seed) (submit : Option Submit) :
    (σ.after id seed submit).seed = seed := by
  cases submit <;> rfl

@[simp] theorem after_schemas (seed : Seed) (submit : Option Submit) :
    (σ.after id seed submit).schemas = σ.schemas := by
  cases submit <;> rfl

/-- A handler for `id` that writes the session of `id` in place leaves the rest as it is. -/
theorem SeedInvBut.after (hb : SeedInvBut id σ) (hk : σ.seed.findSession id = some k)
    {s : Seed} {session : Session} (hs : s.sessions = σ.seed.sessions)
    (hused : session.used = (σ.seed.sessions k).used)
    (hid : session.deviceId = (σ.seed.sessions k).deviceId) {submit : Option Submit}
    (hjob : ∀ sub ∈ submit, sub.job.request.deviceId = id)
    (hctx : ContextsInv s.contexts (σ.after id (s.setSession k session) submit).outstanding) :
    SeedInvBut id (σ.after id (s.setSession k session) submit) := by
  obtain ⟨hku, hkid⟩ := Seed.findSession_spec hk
  refine ⟨?_, fun j hj => ?_, ?_, ?_, fun id' hne => ?_⟩
  · rw [after_seed, Seed.setSession_sessions, hs]
    exact hb.sessions.update_same (fun _ => hku) hid
  · rw [after_seed, Seed.setSession_sessions, hs] at hj ⊢
    have hjk : j ≠ k := by
      rintro rfl
      rw [Function.update_self, hused, hku] at hj
      cases hj
    rw [Function.update_of_ne hjk] at hj ⊢
    exact hb.zeroed j hj
  · rw [after_schemas]
    exact hb.schemas
  · rw [after_seed]
    exact hctx
  · have hsession : (s.setSession k session).sessionOf id' = σ.seed.sessionOf id' := by
      rw [Seed.sessionOf, Seed.setSession_sessions, hs]
      refine Directory.record_update_of_ne (fun _ => ?_) (fun _ => ?_)
      · rw [hkid]; exact hne.symm
      · rw [hid, hkid]; exact hne.symm
    rw [after_view_of_ne hne hjob hsession]
    exact hb.others id' hne

/-- The session of `id` after the handler. -/
theorem SeedInvBut.sessionOf_after (hb : SeedInvBut id σ) (hk : σ.seed.findSession id = some k)
    {s : Seed} {session : Session} (hs : s.sessions = σ.seed.sessions)
    (hused : session.used = (σ.seed.sessions k).used)
    (hid : session.deviceId = (σ.seed.sessions k).deviceId) :
    (s.setSession k session).sessionOf id = some session := by
  have hd : Directory.Distinct Session.used Session.deviceId s.sessions := by
    rw [hs]
    exact hb.sessions
  have hfind : s.findSession id = some k := by
    rw [← hk, Seed.findSession, Seed.findSession, hs]
  rw [← hs] at hused hid
  exact Seed.sessionOf_setSession hd hfind hused hid

theorem start_finished (hb : SeedInvBut id σ) (hk : σ.seed.findSession id = some k)
    (hw : σ.latest id = some w) (hl : Live id (σ.view id) (σ.seed.sessions k) w)
    {n : Nat} {a : Bool} (hn : (σ.seed.sessions k).nextFeatureIndex ≤ n)
    (hskips : w.schema.Skips (σ.seed.sessions k).nextFeatureIndex w.schema.features.length)
    (hidle : (σ.seed.sessions k).jobActive = false) :
    SeedInv (σ.after id (σ.seed.setSession k
      { σ.seed.sessions k with nextFeatureIndex := n, active := a }) none) := by
  refine SeedInvBut.close
    (hb.after hk (by rfl) (by rfl) (by rfl) (by simp) hb.contexts) ?_
  have hsession : (σ.seed.setSession k
      { σ.seed.sessions k with nextFeatureIndex := n, active := a }).sessionOf id = some _ :=
    hb.sessionOf_after hk (by rfl) (by rfl) (by rfl)
  refine .live _ w hsession hw ?_ fun _ => ?_
  · exact
      { schema := hl.schema
        revision := hl.revision
        flag := hl.flag
        owner := hl.owner
        running := fun h => absurd h (by simp [hidle])
        leftover := hl.leftover
        progress := fun hok i f _ hf hr => hl.all_read hskips hok i f hf hr }
  · refine ⟨fun _ i f hi hf => ?_, fun hok f hmem hr => ?_⟩
    · have hlen := (List.getElem?_eq_some_iff.mp hf).1
      exact hskips i f (hn.trans hi) hlen hf
    · obtain ⟨i, hf⟩ := List.mem_iff_getElem?.mp hmem
      exact hl.all_read hskips hok i f hf hr

variable {i : Ix}

/-- The context that a start takes lies below those of the device's leftover jobs. -/
theorem context_below (hctx : ContextsInv σ.seed.contexts σ.outstanding)
    (hi : σ.seed.findContext id = some i) (hfree : (σ.seed.contexts i).inUse = false)
    (ho : o ∈ jobsOf σ.outstanding id) : i < o.context := by
  obtain ⟨hmem, hid⟩ := mem_jobsOf.mp ho
  have hheld := hctx.held o hmem
  by_contra hle
  rcases (not_lt.mp hle).lt_or_eq with hlt | heq
  · -- the search would have stopped at the older context
    have := ((Seed.findContext_spec hi).2 o.context hlt).2
    rw [hheld] at this
    exact this hid
  · rw [← heq, hheld] at hfree
    simp at hfree

theorem ContextsInv.take {contexts : Ix → Context} (h : ContextsInv contexts jobs)
    (hfree : (contexts o.context).inUse = false) :
    ContextsInv (Function.update contexts o.context ⟨true, o.deviceId, o.job.ownerToken⟩)
      (jobs ++ [o]) := by
  have hne : ∀ o' ∈ jobs, o'.context ≠ o.context := by
    intro o' ho' heq
    rw [← heq, h.held o' ho'] at hfree
    simp at hfree
  refine ⟨?_, fun o' ho' => ?_, fun i hi => ?_⟩
  · rw [List.map_append, List.nodup_append]
    refine ⟨h.nodup, by simp, fun a ha b hb => ?_⟩
    obtain ⟨o', ho', rfl⟩ := List.mem_map.mp ha
    obtain rfl : b = o.context := by simpa using hb
    exact hne o' ho'
  · rcases List.mem_append.mp ho' with hold | hnew
    · rw [Function.update_of_ne (hne o' hold)]
      exact h.held o' hold
    · obtain rfl : o' = o := by simpa using hnew
      exact Function.update_self ..
  · by_cases heq : i = o.context
    · exact ⟨o, by simp, heq.symm⟩
    · rw [Function.update_of_ne heq] at hi
      obtain ⟨o', ho', rfl⟩ := h.owed i hi
      exact ⟨o', List.mem_append_left _ ho', rfl⟩

/-- Writing a free context that stays free. -/
theorem ContextsInv.update_free {contexts : Ix → Context} (h : ContextsInv contexts jobs)
    {c : Context} (hfree : (contexts i).inUse = false) (hc : c.inUse = false) :
    ContextsInv (Function.update contexts i c) jobs := by
  refine ⟨h.nodup, fun o ho => ?_, fun j hj => ?_⟩
  · have hne : o.context ≠ i := by
      rintro rfl
      rw [h.held o ho] at hfree
      simp at hfree
    rw [Function.update_of_ne hne]
    exact h.held o ho
  · have hne : j ≠ i := by
      rintro rfl
      rw [Function.update_self, hc] at hj
      simp at hj
    rw [Function.update_of_ne hne] at hj
    exact h.owed j hj

theorem start_submitted (hb : SeedInvBut id σ) (hk : σ.seed.findSession id = some k)
    (hw : σ.latest id = some w) (hl : Live id (σ.view id) (σ.seed.sessions k) w)
    (hidle : (σ.seed.sessions k).jobActive = false) (hactive : (σ.seed.sessions k).active = true)
    {m : Nat} {jobId : UInt32} (hf : w.schema.features[m]? = some f) (hr : f.readable = true)
    (hskips : w.schema.Skips (σ.seed.sessions k).nextFeatureIndex m)
    (hi : σ.seed.findContext id = some i) (hfree : (σ.seed.contexts i).inUse = false) :
    SeedInv (σ.after id
      ((σ.seed.setContext i ⟨true, id, (σ.seed.sessions k).ownerToken⟩).setSession k
        { σ.seed.sessions k with
          nextFeatureIndex := m + 1, jobActive := true, activeJobId := jobId })
      (some ⟨i, seedJob id (σ.seed.sessions k).ownerToken f, .ok jobId⟩)) := by
  have hctx := hb.contexts.take
    (o := ⟨i, seedJob id (σ.seed.sessions k).ownerToken f, false⟩) hfree
  refine SeedInvBut.close
    (hb.after hk (by rfl) (by rfl) (by rfl) (by simp [seedJob]) hctx) ?_
  have hsession : ((σ.seed.setContext i ⟨true, id, (σ.seed.sessions k).ownerToken⟩).setSession k
      { σ.seed.sessions k with
        nextFeatureIndex := m + 1, jobActive := true, activeJobId := jobId }).sessionOf id =
      some _ :=
    hb.sessionOf_after hk (by rfl) (by rfl) (by rfl)
  have hleft := hl.forgotten_of_idle hidle
  have hjobs : jobsOf (σ.outstanding ++
      [⟨i, seedJob id (σ.seed.sessions k).ownerToken f, false⟩]) id =
        jobsOf σ.outstanding id ++ [⟨i, seedJob id (σ.seed.sessions k).ownerToken f, false⟩] :=
    (jobsOf_append ..).trans (by simp [Outstanding.deviceId, seedJob])
  have hwatch : (Function.update σ.latest id ((σ.latest id).map
      (·.record ⟨i, seedJob id (σ.seed.sessions k).ownerToken f, .ok jobId⟩))) id =
        some (w.record ⟨i, seedJob id (σ.seed.sessions k).ownerToken f, .ok jobId⟩) := by
    rw [Function.update_self, hw, Option.map_some]
  refine .live _ _ hsession hwatch ?_ fun h => absurd h (by simp)
  have hnew : ∀ o ∈ jobsOf (σ.outstanding ++
      [⟨i, seedJob id (σ.seed.sessions k).ownerToken f, false⟩]) id,
      o ∈ jobsOf σ.outstanding id ∧ o.forgotten = true ∨
        o = ⟨i, seedJob id (σ.seed.sessions k).ownerToken f, false⟩ := by
    intro o ho
    rw [hjobs] at ho
    rcases List.mem_append.mp ho with hold | hnew
    · exact Or.inl ⟨hold, hleft o hold⟩
    · exact Or.inr (by simpa using hnew)
  have hreadable : w.schema.HasReadable := ⟨f, List.mem_of_getElem? hf, hr⟩
  exact
    { schema := hl.schema
      revision := hl.revision
      flag := by
        have hold := hl.flag
        rw [hidle, if_neg (by simp)] at hold
        show (jobsOf (σ.outstanding ++ _) id).countP _ = _
        rw [hjobs, List.countP_append]
        exact congrArg (· + 1) hold
      owner := by
        intro o ho hopen
        rcases hnew o ho with ⟨_, hforgot⟩ | rfl
        · rw [hopen] at hforgot
          cases hforgot
        · rfl
      running := fun _ => ⟨hactive, by rw [Watch.record_schema]; exact hreadable⟩
      leftover := by
        intro _ o ho hforgot
        rcases hnew o ho with ⟨hold, _⟩ | rfl
        · refine ⟨(hl.leftover hreadable o hold hforgot).1, fun o' ho' hopen => ?_⟩
          rcases hnew o' ho' with ⟨_, hforgot'⟩ | rfl
          · rw [hopen] at hforgot'
            cases hforgot'
          · exact context_below hb.contexts hi hfree hold
        · cases hforgot
      progress := by
        intro hok j g hj hg hgr
        rw [Watch.record_schema] at hg
        -- below the next index, skipped as not readable, or the feature just submitted
        rcases Nat.lt_succ_iff_lt_or_eq.mp hj with hlt | rfl
        · by_cases hnext : j < (σ.seed.sessions k).nextFeatureIndex
          · exact (hl.progress hok j g hnext hg hgr).record _
          · have := hskips j g (not_lt.mp hnext) hlt hg
            simp [hgr] at this
        · obtain rfl : f = g := Option.some.inj (hf.symm.trans hg)
          exact ⟨_, List.mem_append_right _ (List.mem_singleton_self _)⟩ }

theorem start_refused (hb : SeedInvBut id σ) (hk : σ.seed.findSession id = some k)
    (hw : σ.latest id = some w) (hl : Live id (σ.view id) (σ.seed.sessions k) w)
    (hidle : (σ.seed.sessions k).jobActive = false) {m : Nat} {err : EspErr}
    (hfree : (σ.seed.contexts i).inUse = false) :
    SeedInv (σ.after id
      ((σ.seed.setContext i ⟨false, id, (σ.seed.sessions k).ownerToken⟩).setSession k
        { σ.seed.sessions k with nextFeatureIndex := m + 1, jobActive := false, active := false })
      (some ⟨i, seedJob id (σ.seed.sessions k).ownerToken f, .error err⟩)) := by
  have hctx := hb.contexts.update_free
    (c := ⟨false, id, (σ.seed.sessions k).ownerToken⟩) hfree rfl
  refine SeedInvBut.close
    (hb.after hk (by rfl) (by rfl) (by rfl) (by simp [seedJob]) hctx) ?_
  have hsession : ((σ.seed.setContext i ⟨false, id, (σ.seed.sessions k).ownerToken⟩).setSession k
      { σ.seed.sessions k with
        nextFeatureIndex := m + 1, jobActive := false, active := false }).sessionOf id = some _ :=
    hb.sessionOf_after hk (by rfl) (by rfl) (by rfl)
  have hwatch : (Function.update σ.latest id ((σ.latest id).map
      (·.record ⟨i, seedJob id (σ.seed.sessions k).ownerToken f, .error err⟩))) id =
        some { w with submitFailed := true } := by
    rw [Function.update_self, hw, Option.map_some]
    rfl
  refine .live _ _ hsession hwatch ?_ fun _ => ?_
  · exact
      { schema := hl.schema
        revision := hl.revision
        flag := by
          have hold := hl.flag
          rw [hidle] at hold
          exact hold
        owner := hl.owner
        running := fun h => absurd h (by simp)
        leftover := hl.leftover
        progress := fun hok => absurd hok (by simp) }
  · exact ⟨fun h => absurd h (by simp), fun hok => absurd hok (by simp)⟩

/-- **A start keeps the invariant**: it gives the device's session its next job, or leaves it
with nothing to read. -/
theorem start_inv (hb : SeedInvBut id σ) (hk : σ.seed.findSession id = some k)
    (hw : σ.latest id = some w) (hl : Live id (σ.view id) (σ.seed.sessions k) w)
    (hidle : (σ.seed.sessions k).jobActive = false)
    (hactive : (σ.seed.sessions k).active = true)
    (hfree : ¬w.schema.Skips (σ.seed.sessions k).nextFeatureIndex w.schema.features.length →
      σ.seed.ContextFree id) (answer : Except EspErr UInt32) :
    SeedInv (σ.after id (startNext σ.schemas id answer DEVICE_SCHEMA_MAX_FEATURES σ.seed).1
      (startNext σ.schemas id answer DEVICE_SCHEMA_MAX_FEATURES σ.seed).2) := by
  have hrounds : w.schema.features.length ≤
      (σ.seed.sessions k).nextFeatureIndex + DEVICE_SCHEMA_MAX_FEATURES :=
    w.schema.bounded.trans (Nat.le_add_left _ _)
  have hspec := startNext_spec hl.schema answer DEVICE_SCHEMA_MAX_FEATURES hk hactive hidle
    hl.revision hrounds hfree
  generalize startNext σ.schemas id answer DEVICE_SCHEMA_MAX_FEATURES σ.seed = r at hspec ⊢
  cases hspec with
  | finished n a from_next skips => exact start_finished hb hk hw hl from_next skips hidle
  | submitted m f i jobId from_next feature readable skips context free accepted =>
      subst accepted
      exact start_submitted hb hk hw hl hidle hactive feature readable skips context free
  | refused m f i err from_next feature readable skips context free rejected =>
      subst rejected
      exact start_refused hb hk hw hl hidle free

/-- A session that waits for a completion, or has been deactivated, is left alone. -/
theorem startNext_stays {s : Seed} (hk : s.findSession id = some k)
    (h : (s.sessions k).jobActive = true ∨ (s.sessions k).active = false)
    (answer : Except EspErr UInt32) (attempts : Nat) :
    startNext schemas id answer attempts s = (s, none) := by
  cases attempts with
  | zero => rfl
  | succ attempts =>
      rw [startNext, hk]
      dsimp only
      rw [if_pos (by rcases h with h | h <;> simp [h])]

theorem startNext_gone {s : Seed} (hk : s.findSession id = none) (answer : Except EspErr UInt32)
    (attempts : Nat) :
    startNext schemas id answer attempts s = (s, none) := by
  cases attempts with
  | zero => rfl
  | succ attempts => rw [startNext, hk]

/-- The last call of a completion keeps the invariant. -/
theorem resume_inv (hb : SeedInvBut id σ) (hk : σ.seed.findSession id = some k)
    (hw : σ.latest id = some w) (hl : Live id (σ.view id) (σ.seed.sessions k) w)
    (hfree : (σ.seed.sessions k).jobActive = false → (σ.seed.sessions k).active = true →
      ¬w.schema.Skips (σ.seed.sessions k).nextFeatureIndex w.schema.features.length →
        σ.seed.ContextFree id)
    (hsettled : (σ.seed.sessions k).jobActive = false → (σ.seed.sessions k).active = false →
      Settled id (σ.seed.sessions k) w) (answer : Except EspErr UInt32) :
    SeedInv (σ.after id (startNext σ.schemas id answer DEVICE_SCHEMA_MAX_FEATURES σ.seed).1
      (startNext σ.schemas id answer DEVICE_SCHEMA_MAX_FEATURES σ.seed).2) := by
  have hview : ((σ.seed.sessions k).jobActive = false →
      Settled id (σ.seed.sessions k) w) → SeedInv (σ.after id σ.seed none) := fun h =>
    hb.close (.live _ w (Seed.sessionOf_of_find hk) hw hl h)
  cases hjob : (σ.seed.sessions k).jobActive with
  | true =>
      rw [startNext_stays hk (Or.inl hjob)]
      exact hview fun h => absurd (hjob.symm.trans h) (by simp)
  | false =>
      cases hactive : (σ.seed.sessions k).active with
      | true => exact start_inv hb hk hw hl hjob hactive (hfree hjob hactive) answer
      | false =>
          rw [startNext_stays hk (Or.inr hactive)]
          exact hview fun _ => hsettled hjob hactive

end Start

end BleGateway.StateSeed
