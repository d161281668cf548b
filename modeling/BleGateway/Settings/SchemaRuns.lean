import BleGateway.Settings.StreamSteps
import BleGateway.Settings.Builders

/-! # What a schema stream keeps

A relation between the builder of the open schema stream and the frames its owner has sent, which
every accepted frame keeps, holds of every schema that is committed. No run is excluded here, also
none in which the two streams of a device are open together: an open schema stream has a record that
is marked for it, so a frame of its owner is accepted or ends the stream.
-/

namespace BleGateway.Settings

open Protocol

/-- Every frame of a schema stream keeps the relation. -/
structure SchemaRule (P : SchemaBuilder → List Message → Prop) : Prop where
  start : ∀ revision msg, msg.type = .settingsBegin → P (.init revision) [msg]
  other : ∀ b frames msg, msg.type ≠ .settingsItem → msg.type ≠ .settingsOptionItem →
    P b frames → P b (frames ++ [msg])
  item : ∀ r stream stream' frames msg, msg.type = .settingsItem →
    acceptItem r stream msg = some stream' → P stream.builder frames →
      P stream'.builder (frames ++ [msg])
  option : ∀ r stream stream' frames msg, msg.type = .settingsOptionItem →
    acceptOption r stream msg = some stream' → P stream.builder frames →
      P stream'.builder (frames ++ [msg])

/-- The open stream has a marked record, and its builder is related to its frames. -/
structure Streamed (P : SchemaBuilder → List Message → Prop) (p : Protocol) (sf : List Message) :
    Prop where
  distinct : p.Distinct
  stream : ∀ stream, p.schemaStream = some stream →
    ∃ r, p.recordOf stream.owner = some r ∧ r.schemaStreamActive = true ∧ P stream.builder sf

/-- A handler keeps that, and a schema it commits is what a related builder holds. -/
structure SchemaAfter (P : SchemaBuilder → List Message → Prop) (p : Protocol)
    (sf : List Message) (id : DeviceId) (msg : Message) (res : Protocol × List Effect) : Prop where
  streams : Streamed P res.1 (framesAfter (p.schemaStream.map (·.owner)) sf id msg)
  commits : ∀ id' schema, Effect.commitSchema id' schema ∈ res.2 →
    ∃ b : SchemaBuilder, schema = b.commit ∧
      P b (framesAfter (p.schemaStream.map (·.owner)) sf id msg)

section Keep

variable {P : SchemaBuilder → List Message → Prop} {p p' : Protocol} {sf : List Message}
  {id : DeviceId} {i : Rx} {r' : DeviceRecord} {msg : Message}

/-- A change that keeps the stream it leaves open, and its record. -/
theorem Streamed.elsewhere (h : Streamed P p sf) (hd : p'.Distinct)
    (hs : ∀ stream, p'.schemaStream = some stream → p.schemaStream = some stream ∧
      p'.recordOf stream.owner = p.recordOf stream.owner) : Streamed P p' sf where
  distinct := hd
  stream stream hstream := by
    obtain ⟨hold, hrec⟩ := hs stream hstream
    rw [hrec]
    exact h.stream stream hold

/-- A write of a record that leaves its mark. -/
theorem Streamed.touch (h : Streamed P p sf) (hi : p.findRecord id = some i)
    (hrecords : p'.records = (p.setRecord i r').records)
    (hstream : p'.schemaStream = p.schemaStream)
    (hused : r'.used = (p.records i).used) (hid : r'.deviceId = (p.records i).deviceId)
    (hmark : r'.schemaStreamActive = (p.records i).schemaStreamActive) : Streamed P p' sf := by
  obtain ⟨-, hu, hkey⟩ := findRecord_spec hi
  refine ⟨?_, fun stream hs => ?_⟩
  · rw [Distinct, hrecords]
    exact Distinct.setRecord hi (hid.trans hkey) h.distinct
  · obtain ⟨r, hr, hactive, hP⟩ := h.stream stream (hstream ▸ hs)
    rw [recordOf_congr hrecords, recordOf_setRecord hi (hid.trans hkey) (hused.trans hu)]
    by_cases he : stream.owner = id
    · rw [he, recordOf_of_find hi] at hr
      cases hr
      exact ⟨r', if_pos he, hmark.trans hactive, hP⟩
    · exact ⟨r, (if_neg he).trans hr, hactive, hP⟩

/-- A frame without effect is no item and no option of the owner. -/
theorem Streamed.ignore (hrule : SchemaRule P) (h : Streamed P p sf)
    (hmsg : p.schemaStream.map (·.owner) = some id →
      msg.type ≠ .settingsItem ∧ msg.type ≠ .settingsOptionItem) :
    Streamed P p (framesAfter (p.schemaStream.map (·.owner)) sf id msg) := by
  refine ⟨h.distinct, fun stream hs => ?_⟩
  obtain ⟨r, hr, hactive, hP⟩ := h.stream stream hs
  refine ⟨r, hr, hactive, ?_⟩
  rw [hs, Option.map_some] at hmsg ⊢
  by_cases he : stream.owner = id
  · rw [he, framesAfter_self]
    obtain ⟨hitem, hoption⟩ := hmsg (congrArg some he)
    exact hrule.other _ _ _ hitem hoption hP
  · rw [framesAfter_of_ne he]
    exact hP

/-- A change of the schema stream of a device and of its record. -/
theorem Streamed.step {sf' : List Message} (h : Streamed P p sf) (hi : p.findRecord id = some i)
    (hrecords : p'.records = (p.setRecord i r').records) (hused : r'.used = (p.records i).used)
    (hid : r'.deviceId = (p.records i).deviceId)
    (hstream : ∀ stream, p'.schemaStream = some stream →
      stream.owner = id ∧ r'.schemaStreamActive = true ∧ P stream.builder sf') :
    Streamed P p' sf' := by
  obtain ⟨-, hu, hkey⟩ := findRecord_spec hi
  refine ⟨?_, fun stream hs => ?_⟩
  · rw [Distinct, hrecords]
    exact Distinct.setRecord hi (hid.trans hkey) h.distinct
  · obtain ⟨howner, hactive, hP⟩ := hstream stream hs
    refine ⟨r', ?_, hactive, hP⟩
    rw [recordOf_congr hrecords, recordOf_setRecord hi (hid.trans hkey) (hused.trans hu),
      if_pos howner]

/-- A record is written and the schema stream stays as it is. -/
theorem Streamed.write (hrule : SchemaRule P) (h : Streamed P p sf) (hi : p.findRecord id = some i)
    (hrecords : p'.records = (p.setRecord i r').records)
    (hstream : p'.schemaStream = p.schemaStream)
    (hused : r'.used = (p.records i).used) (hid : r'.deviceId = (p.records i).deviceId)
    (hmark : r'.schemaStreamActive = (p.records i).schemaStreamActive)
    (hitem : msg.type ≠ .settingsItem) (hoption : msg.type ≠ .settingsOptionItem) :
    Streamed P p' (framesAfter (p.schemaStream.map (·.owner)) sf id msg) :=
  (h.ignore hrule fun _ => ⟨hitem, hoption⟩).touch hi hrecords hstream hused hid hmark

/-! ## Frames -/

/-- The record that the owner of the stream finds is marked. -/
theorem Streamed.marked (h : Streamed P p sf) (hi : p.findRecord id = some i)
    {stream : SchemaStream}
    (hs : p.schemaStream = some stream) (howner : stream.owner = id) :
    (p.records i).schemaStreamActive = true ∧ P stream.builder sf := by
  obtain ⟨r, hr, hactive, hP⟩ := h.stream stream hs
  rw [howner, recordOf_of_find hi] at hr
  cases hr
  exact ⟨hactive, hP⟩

/-- The owner of the stream is in it. -/
theorem Streamed.inside (h : Streamed P p sf) {stream : SchemaStream}
    (hs : p.schemaStream = some stream) : ∃ i, p.InSchema stream.owner i stream := by
  obtain ⟨r, hr, hactive, -⟩ := h.stream stream hs
  obtain ⟨i, hi, hri⟩ := find_of_recordOf hr
  exact ⟨i, hi, hs, rfl, by rw [hri]; exact hactive⟩

/-- The record that a device gets anew is not the one of the stream. -/
theorem Streamed.findOrCreate (h : Streamed P p sf)
    (hrec : p.findOrCreateRecord id = some (p', i)) :
    Streamed P p' sf := by
  obtain ⟨hd, hi, hs, -, hothers, hown⟩ := findOrCreateRecord_spec h.distinct hrec
  apply h.elsewhere hd
  intro stream hst
  have hold : p.schemaStream = some stream := hs.symm.trans hst
  refine ⟨hold, ?_⟩
  by_cases he : stream.owner = id
  · obtain ⟨r, hr, -, -⟩ := h.stream stream hold
    rw [he] at hr ⊢
    rcases hown with hsome | hnone
    · rw [hsome]
      exact recordOf_of_find hi
    · rw [hnone] at hr
      cases hr
  · exact hothers _ he

/-- **One frame.** -/
theorem onNotify_schemaAfter (hrule : SchemaRule P) (h : Streamed P p sf) (alloc locked : Bool) :
    SchemaAfter P p sf id msg (p.onNotify id msg alloc locked) := by
  have hstep := onNotify_step p id msg alloc locked
  generalize p.onNotify id msg alloc locked = res at hstep ⊢
  cases hstep with
  | skipped apart =>
      refine ⟨h.ignore hrule fun howner => ?_, fun _ _ hmem => absurd hmem List.not_mem_nil⟩
      obtain ⟨stream, hs, rfl⟩ := Option.map_eq_some_iff.mp howner
      obtain ⟨i, hin⟩ := h.inside hs
      exact not_or.mp fun hitem => apart hitem i stream hin
  | schemaOpened opens record =>
      obtain ⟨hmsg, -, -, -, -, hfree, -⟩ := opens
      obtain ⟨-, hi, -⟩ := findOrCreateRecord_spec h.distinct record
      refine ⟨(h.findOrCreate record).step hi rfl rfl rfl fun stream hstream => ?_,
        fun _ _ hmem => by simp at hmem⟩
      cases hstream
      rw [Option.isNone_iff_eq_none.mp hfree]
      exact ⟨rfl, rfl, hrule.start _ msg hmsg⟩
  | refused type _ record =>
      obtain ⟨-, hi, hs₁, -⟩ := findOrCreateRecord_spec h.distinct record
      refine ⟨?_, fun _ _ hmem => by simp at hmem⟩
      rw [← hs₁]
      exact (h.findOrCreate record).write hrule hi rfl rfl rfl rfl rfl (by simp [type])
        (by simp [type])
  | schemaRejected inside =>
      refine ⟨h.step inside.found rfl rfl rfl fun stream hstream => ?_,
        fun _ _ hmem => by simp at hmem⟩
      cases hstream
  | item inside type accepts =>
      obtain ⟨hactive, hP⟩ := h.marked inside.found inside.opened inside.owner
      refine ⟨h.step inside.found rfl rfl rfl fun opened hopened => ?_,
        fun _ _ hmem => absurd hmem List.not_mem_nil⟩
      cases hopened
      rw [inside.opened, Option.map_some, inside.owner, framesAfter_self]
      exact ⟨(acceptItem_owner accepts).trans inside.owner, hactive,
        hrule.item _ _ _ _ _ type accepts hP⟩
  | @option i _ _ inside type accepts =>
      obtain ⟨hactive, hP⟩ := h.marked inside.found inside.opened inside.owner
      have hsame : p.records = (p.setRecord i (p.records i)).records :=
        (Function.update_eq_self i p.records).symm
      refine ⟨h.step inside.found hsame rfl rfl fun opened hopened => ?_,
        fun _ _ hmem => absurd hmem List.not_mem_nil⟩
      cases hopened
      rw [inside.opened, Option.map_some, inside.owner, framesAfter_self]
      exact ⟨(acceptOption_spec accepts).1.trans inside.owner, hactive,
        hrule.option _ _ _ _ _ type accepts hP⟩
  | @schemaCommitted i stream inside type =>
      -- the end commits what the builder holds
      obtain ⟨-, hP⟩ := h.marked inside.found inside.opened inside.owner
      refine ⟨h.step inside.found rfl rfl rfl fun opened hopened => ?_, fun id' schema hmem => ?_⟩
      · cases hopened
      · have hschema : schema = stream.builder.commit := by simp at hmem; exact hmem.2
        refine ⟨stream.builder, hschema, ?_⟩
        rw [inside.opened, Option.map_some, inside.owner, framesAfter_self]
        exact hrule.other _ _ _ (by simp [type]) (by simp [type]) hP
  | valuesOpened opens found =>
      exact ⟨h.write hrule found rfl rfl rfl rfl rfl (by simp [opens.1]) (by simp [opens.1]),
        fun _ _ hmem => by simp at hmem⟩
  | valuesRejected inside type =>
      exact ⟨h.write hrule inside.found rfl rfl rfl rfl rfl
          (by rcases type with type | type <;> simp [type])
          (by rcases type with type | type <;> simp [type]),
        fun _ _ hmem => by simp at hmem⟩
  | value inside type =>
      exact ⟨h.write hrule inside.found rfl rfl rfl rfl rfl (by simp [type]) (by simp [type]),
        fun _ _ hmem => absurd hmem List.not_mem_nil⟩
  | valuesCommitted inside type =>
      exact ⟨h.write hrule inside.found rfl rfl rfl rfl rfl (by simp [type]) (by simp [type]),
        fun _ _ hmem => by simp at hmem⟩

/-! ## The other events -/

/-- A disconnect leaves a stream of another device only, and its record. -/
theorem onDisconnect_streamed (h : Streamed P p sf) (locked : Bool) :
    Streamed P (p.onDisconnect id locked).1 sf ∧
      (id.text ≠ [] → ∀ stream, (p.onDisconnect id locked).1.schemaStream = some stream →
        stream.owner ≠ id) := by
  have hdiscard : Streamed P (p.discardStreams id) sf := by
    refine h.elsewhere h.distinct fun stream hs => ?_
    exact ⟨(filter_owner hs).1, recordOf_congr rfl stream.owner⟩
  have hothers : ∀ stream, (p.discardStreams id).schemaStream = some stream → stream.owner ≠ id :=
    fun stream hs => (filter_owner hs).2
  rw [onDisconnect]
  split
  · rename_i hid
    exact ⟨h, fun hne => absurd hid hne⟩
  dsimp only
  split
  · exact ⟨hdiscard, fun _ => hothers⟩
  · split
    · rename_i i hi
      obtain ⟨-, hu, hkey⟩ := findRecord_spec hi
      refine ⟨?_, fun _ => hothers⟩
      apply hdiscard.elsewhere
      · exact Distinct.setRecord hi (by exact hkey) hdiscard.distinct
      · intro stream hs
        refine ⟨hs, ?_⟩
        rw [recordOf_setRecord hi (by exact hkey) (by exact hu), if_neg (hothers stream hs)]
    · exact ⟨hdiscard, fun _ => hothers⟩

theorem forget_streamed (h : Streamed P p sf) (locked relocked : Bool) :
    Streamed P (p.forget id locked relocked).1 sf := by
  obtain ⟨hgone, hothers⟩ := @onDisconnect_streamed P p sf id h locked
  rw [forget]
  split
  · exact h
  rename_i hid
  dsimp only
  split
  · exact hgone
  · split
    · rename_i i hi
      obtain ⟨-, -, hkey⟩ := findRecord_spec hi
      apply hgone.elsewhere (recordOf_clear hgone.distinct hi).1
      intro stream hs
      exact ⟨hs, recordOf_setRecord_ne (fun _ => hkey) (fun hu => absurd hu (by simp))
        (hothers hid stream hs)⟩
    · exact hgone

theorem onCapability_streamed (h : Streamed P p sf) (supported : Bool) (schemaRevision : UInt16)
    (locked : Bool) : Streamed P (p.onCapability id supported schemaRevision locked).1 sf := by
  rw [onCapability]
  split
  · exact h
  split
  · exact h
  · rename_i p₁ i hrec
    have h₁ : Streamed P p₁ sf := h.findOrCreate hrec
    obtain ⟨-, hi, -, -, -, -⟩ := findOrCreateRecord_spec h.distinct hrec
    dsimp only
    split
    · exact h₁.touch hi rfl rfl rfl rfl rfl
    · exact h₁.touch hi rfl rfl rfl rfl rfl

theorem setReconciliation_streamed (h : Streamed P p sf) (pending : Bool)
    (expectedRev oldRev : UInt32) :
    Streamed P (p.setReconciliation id pending expectedRev oldRev) sf := by
  rw [setReconciliation]
  split
  · rename_i i hi
    exact h.touch hi rfl rfl rfl rfl rfl
  · exact h

end Keep

/-! ## Runs -/

/-- The open stream and every committed schema are related to their frames. -/
structure SchemaInv (P : SchemaBuilder → List Message → Prop) (σ : Streams) : Prop where
  streams : Streamed P σ.protocol σ.schemaFrames
  commits : ∀ frames schema, Commit.schema frames schema ∈ σ.commits →
    ∃ b : SchemaBuilder, schema = b.commit ∧ P b frames

variable {P : SchemaBuilder → List Message → Prop} {σ σ' : Streams} {l : Label}

theorem schemaInv_init : SchemaInv P {} where
  streams :=
    { distinct := fun _ _ hi => absurd hi (by simp)
      stream := fun _ hs => absurd hs (by simp) }
  commits := fun _ _ hc => absurd hc List.not_mem_nil

theorem step_schemaInv (hrule : SchemaRule P) (h : SchemaInv P σ) (hstep : σ.step l = some σ') :
    SchemaInv P σ' := by
  cases l with
  | notify id msg alloc locked =>
      cases hstep
      have hafter : SchemaAfter P σ.protocol σ.schemaFrames id msg
          (σ.protocol.onNotify id msg alloc locked) :=
        onNotify_schemaAfter hrule h.streams alloc locked
      refine ⟨hafter.streams, fun frames schema hc => ?_⟩
      rcases List.mem_append.mp hc with hold | hnew
      · exact h.commits frames schema hold
      · obtain ⟨e, hmem, he⟩ := List.mem_filterMap.mp hnew
        cases e with
        | commitSchema id' schema' =>
            obtain ⟨hframes, hschema⟩ := Commit.schema.inj (Option.some.inj he)
            rw [← hframes, ← hschema]
            exact hafter.commits id' schema' hmem
        | commitValues id' values =>
            have hkind := Option.some.inj he
            cases hkind
        | _ => cases he
  | disconnect id locked =>
      cases hstep
      exact ⟨(onDisconnect_streamed h.streams locked).1, h.commits⟩
  | forget id locked relocked =>
      cases hstep
      exact ⟨forget_streamed h.streams locked relocked, h.commits⟩
  | capability id supported schemaRevision locked =>
      cases hstep
      exact ⟨onCapability_streamed h.streams supported schemaRevision locked, h.commits⟩
  | reconciliation id pending expectedRev oldRev =>
      cases hstep
      exact ⟨setReconciliation_streamed h.streams pending expectedRev oldRev, h.commits⟩

/-- **Every committed schema** is what a builder holds that is related to the frames of its
stream. -/
theorem schemaRule_commits (hrule : SchemaRule P) (hσ : Streams.machine.Reachable σ)
    {frames : List Message} {schema : Schema} (hc : Commit.schema frames schema ∈ σ.commits) :
    ∃ b : SchemaBuilder, schema = b.commit ∧ P b frames := by
  have hinv : SchemaInv P σ := by
    apply Machine.Reachable.invariant (M := Streams.machine) (I := SchemaInv P)
    · intro s hs
      rw [show s = {} from hs]
      exact schemaInv_init
    · intro s l s' h hstep
      exact step_schemaInv hrule h hstep
    · exact hσ
  exact hinv.commits frames schema hc

/-! ## Running to a schema -/

/-- A schema of the kind is committed. -/
def Commit.schemaThat (p : Schema → Bool) : Commit → Bool
  | .schema _ snapshot => p snapshot
  | .values _ _ _ => false

theorem exists_schema_of_run (ls : List Label) (p : Schema → Bool)
    (h : ((Streams.machine.run {} ls).map fun σ => σ.commits.any (Commit.schemaThat p)) =
      some true) :
    ∃ σ, Streams.machine.Reachable σ ∧ ∃ frames schema,
      Commit.schema frames schema ∈ σ.commits ∧ p schema = true := by
  obtain ⟨σ, hσ, hany⟩ := Machine.exists_reachable_of_run rfl h
  obtain ⟨c, hc, hp⟩ := List.any_eq_true.mp hany
  cases c with
  | values frames snapshot schema => cases hp
  | schema frames schema => exact ⟨σ, hσ, frames, schema, hc, hp⟩

end BleGateway.Settings
