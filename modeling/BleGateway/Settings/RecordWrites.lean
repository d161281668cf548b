import BleGateway.Settings.FrameSteps

/-! # What the streams write into the records

The handlers of the streams, a disconnect and a capability report write records in place or take a
free one. None of them touches the marks of a reconciliation, and all leave the state of a record
sound: it is `ready` only with a schema, and with a schema only `ready`, being described, or without
support.
-/

namespace BleGateway.Settings

open Protocol

/-! ## The states of a record -/

/-- A record is `ready` only with a schema, and has one in three states only. -/
structure DeviceRecord.Sound (r : DeviceRecord) : Prop where
  schema : r.schemaState = .ready → r.schema.isSome = true
  state : r.schema.isSome = true →
    r.schemaState = .ready ∨ r.schemaState = .discovering ∨ r.schemaState = .unsupported

namespace DeviceRecord.Sound

variable {r r' : DeviceRecord}

theorem empty : ({} : DeviceRecord).Sound := by
  constructor
  · intro hready
    cases hready
  · intro hsome
    cases hsome

theorem keep (h : r.Sound) (hschema : r'.schema = r.schema)
    (hstate : r'.schemaState = r.schemaState) : r'.Sound := by
  constructor
  · rw [hschema, hstate]
    exact h.schema
  · rw [hschema, hstate]
    exact h.state

/-- The state outside a stream. -/
theorem settled (hschema : r'.schema = r.schema) (hstate : r'.schemaState = r.settledState) :
    r'.Sound := by
  rw [DeviceRecord.settledState] at hstate
  constructor
  · intro hready
    rw [hready] at hstate
    rw [hschema]
    split at hstate
    · assumption
    · cases hstate
  · intro hsome
    rw [hschema] at hsome
    rw [if_pos hsome] at hstate
    exact Or.inl hstate

theorem of_ready (hschema : r'.schema.isSome = true) (hstate : r'.schemaState = .ready) :
    r'.Sound :=
  ⟨fun _ => hschema, fun _ => Or.inl hstate⟩

theorem of_discovering (hstate : r'.schemaState = .discovering) : r'.Sound := by
  constructor
  · intro hready
    rw [hstate] at hready
    cases hready
  · intro _
    exact Or.inr (Or.inl hstate)

theorem of_unsupported (hstate : r'.schemaState = .unsupported) : r'.Sound := by
  constructor
  · intro hready
    rw [hstate] at hready
    cases hready
  · intro _
    exact Or.inr (Or.inr hstate)

end DeviceRecord.Sound

/-- The key of a record and its marks of a reconciliation. -/
def DeviceRecord.marks (r : DeviceRecord) : Bool × DeviceId × Bool × UInt32 :=
  (r.used, r.deviceId, r.pendingReconciliation, r.reconciliationExpectedRev)

/-- A write that leaves them, and a sound record sound. -/
structure DeviceRecord.Touch (r r' : DeviceRecord) : Prop where
  marks : r'.marks = r.marks
  sound : r.Sound → r'.Sound

/-! ## Writes -/

namespace Protocol

/-- All records are sound. -/
def Sound (p : Protocol) : Prop := ∀ i, (p.records i).Sound

/-- The records after some writes. -/
inductive Touched : Protocol → Protocol → Prop
  | same {p p' : Protocol} (h : p'.records = p.records) : Touched p p'
  | write {p p' : Protocol} {i : Rx} {r' : DeviceRecord}
      (hrecords : p'.records = (p.setRecord i r').records) (h : (p.records i).Touch r') :
      Touched p p'
  | create {p p' : Protocol} {id : DeviceId} {i : Rx}
      (hrec : p.findOrCreateRecord id = some (p', i)) : Touched p p'
  | trans {p p' p'' : Protocol} (h : Touched p p') (h' : Touched p' p'') : Touched p p''

variable {p p' : Protocol} {id : DeviceId} {i : Rx} {r' : DeviceRecord}

theorem setRecord_self : (p.setRecord i r').records i = r' := Function.update_self ..

theorem setRecord_of_ne {j : Rx} (hj : j ≠ i) : (p.setRecord i r').records j = p.records j :=
  Function.update_of_ne hj ..

theorem Sound.write (h : p.Sound) (hrecords : p'.records = (p.setRecord i r').records)
    (hr : r'.Sound) : p'.Sound := by
  intro j
  rw [hrecords]
  by_cases hj : j = i
  · rw [hj, setRecord_self]
    exact hr
  · rw [setRecord_of_ne hj]
    exact h j

/-- A record that is found or taken anew. -/
theorem findOrCreateRecord_cases (hrec : p.findOrCreateRecord id = some (p', i)) :
    p' = p ∨ (p.records i).used = false ∧ p' = p.setRecord i { used := true, deviceId := id } := by
  rw [findOrCreateRecord] at hrec
  split at hrec
  · cases hrec
  split at hrec
  · obtain ⟨rfl, -⟩ := Prod.mk.inj (Option.some.inj hrec)
    exact Or.inl rfl
  · obtain ⟨j, hj, he⟩ := Option.map_eq_some_iff.mp hrec
    cases he
    exact Or.inr ⟨Directory.vacant_spec hj, rfl⟩

theorem Touched.sound (ht : p.Touched p') (h : p.Sound) : p'.Sound := by
  induction ht with
  | same hsame =>
      intro i
      rw [hsame]
      exact h i
  | write hrecords htouch => exact h.write hrecords (htouch.sound (h _))
  | create hrec =>
      rcases findOrCreateRecord_cases hrec with hp | ⟨-, hp⟩
      · rw [hp]
        exact h
      · exact h.write (congrArg Protocol.records hp) (DeviceRecord.Sound.empty.keep rfl rfl)
  | trans _ _ ih ih' => exact ih' (ih h)

theorem Touched.distinct (ht : p.Touched p') (hd : p.Distinct) : p'.Distinct := by
  induction ht with
  | same hsame =>
      rw [Distinct, hsame]
      exact hd
  | @write p p' i r' hrecords htouch =>
      have hused : r'.used = (p.records i).used := congrArg (·.1) htouch.marks
      have hkey : r'.deviceId = (p.records i).deviceId := congrArg (·.2.1) htouch.marks
      rw [Distinct, hrecords]
      exact Directory.Distinct.update_same hd (fun hu => hused.symm.trans hu) hkey
  | create hrec => exact (findOrCreateRecord_spec hd hrec).1
  | trans _ _ ih ih' => exact ih' (ih hd)

/-- A record keeps its marks, or is new and not pending. -/
theorem Touched.marks (ht : p.Touched p') (i : Rx) : (p'.records i).marks = (p.records i).marks ∨
    (p.records i).used = false ∧ (p'.records i).pendingReconciliation = false := by
  induction ht with
  | same hsame =>
      rw [hsame]
      exact Or.inl rfl
  | @write p p' j r' hrecords htouch =>
      rw [hrecords]
      by_cases hj : i = j
      · rw [hj, setRecord_self]
        exact Or.inl htouch.marks
      · rw [setRecord_of_ne hj]
        exact Or.inl rfl
  | @create p p' id j hrec =>
      rcases findOrCreateRecord_cases hrec with hp | ⟨hfree, hp⟩
      · rw [hp]
        exact Or.inl rfl
      · rw [hp]
        by_cases hj : i = j
        · rw [hj, setRecord_self]
          exact Or.inr ⟨hfree, rfl⟩
        · rw [setRecord_of_ne hj]
          exact Or.inl rfl
  | @trans p p' p'' _ _ ih ih' =>
      rcases ih' with hsame' | ⟨hfree', hpending'⟩
      · rcases ih with hsame | ⟨hfree, hpending⟩
        · exact Or.inl (hsame'.trans hsame)
        · exact Or.inr ⟨hfree, (congrArg (·.2.2.1) hsame').trans hpending⟩
      · rcases ih with hsame | ⟨hfree, -⟩
        · exact Or.inr ⟨(congrArg (·.1) hsame).symm.trans hfree', hpending'⟩
        · exact Or.inr ⟨hfree, hpending'⟩

theorem Touched.refl (p : Protocol) : p.Touched p := .same rfl

end Protocol

/-! ## Handlers -/

section Handlers

variable {p p' : Protocol} {id : DeviceId} {i : Rx} {msg : Message} {alloc locked : Bool}

/-- The state of the record stays. -/
theorem touched_keep {r' : DeviceRecord} (hrecords : p'.records = (p.setRecord i r').records)
    (hmarks : r'.marks = (p.records i).marks) (hschema : r'.schema = (p.records i).schema)
    (hstate : r'.schemaState = (p.records i).schemaState) : p.Touched p' :=
  .write hrecords ⟨hmarks, fun h => h.keep hschema hstate⟩

/-- **A frame.** -/
theorem onNotify_touched : p.Touched (p.onNotify id msg alloc locked).1 := by
  have hstep := onNotify_step p id msg alloc locked
  generalize p.onNotify id msg alloc locked = res at hstep ⊢
  cases hstep with
  | skipped => exact .refl p
  | schemaOpened _ record =>
      exact Touched.trans (.create record) (.write rfl ⟨rfl, fun _ => .of_discovering rfl⟩)
  | refused _ _ record =>
      exact Touched.trans (.create record) (.write rfl ⟨rfl, fun _ => .settled rfl rfl⟩)
  | schemaRejected => exact .write rfl ⟨rfl, fun _ => .settled rfl rfl⟩
  | schemaCommitted => exact .write rfl ⟨rfl, fun _ => .of_ready rfl rfl⟩
  | option => exact .same rfl
  | item => exact touched_keep rfl rfl rfl rfl
  | valuesOpened => exact touched_keep rfl rfl rfl rfl
  | valuesRejected => exact touched_keep rfl rfl rfl rfl
  | value => exact touched_keep rfl rfl rfl rfl
  | valuesCommitted => exact touched_keep rfl rfl rfl rfl

theorem onDisconnect_touched : p.Touched (p.onDisconnect id locked).1 := by
  have hdiscard : p.Touched (p.discardStreams id) := .same rfl
  rw [onDisconnect]
  split
  · exact .refl p
  dsimp only
  split
  · exact hdiscard
  · split
    · exact hdiscard.trans (touched_keep rfl rfl rfl rfl)
    · exact hdiscard

theorem onCapability_touched {supported : Bool} {schemaRevision : UInt16} :
    p.Touched (p.onCapability id supported schemaRevision locked).1 := by
  rw [onCapability]
  split
  · exact .refl p
  split
  · exact .refl p
  · rename_i p₁ i hrec
    apply Touched.trans (.create hrec)
    dsimp only
    split
    · exact .write rfl ⟨rfl, fun _ => .of_unsupported rfl⟩
    · refine .write rfl ⟨rfl, fun _ => ?_⟩
      by_cases hdescribe : ((p₁.records i).schema.isNone ||
          (p₁.records i).schemaRev != schemaRevision.toUInt32) = true
      · refine .of_discovering ?_
        exact if_pos hdescribe
      · refine .of_ready ?_ ?_
        · rw [Bool.not_eq_true, Bool.or_eq_false_iff, Option.isNone_eq_false_iff] at hdescribe
          exact hdescribe.1
        · exact if_neg hdescribe

end Handlers

end BleGateway.Settings
