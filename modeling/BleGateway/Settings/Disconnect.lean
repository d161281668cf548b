import BleGateway.Settings.StreamSteps
import BleGateway.Settings.Builders
import BleGateway.Settings.RecordWrites

/-! # A disconnect in the middle of a stream

`device_settings_on_disconnect` discards the builders of a device and the marks of its record. It
leaves the schema state as it is, where the reject of a frame settles it: a record that holds a
committed schema and was being described anew goes on saying that it is being described.
-/

namespace BleGateway.Settings

namespace Protocol

/-- The record of the device is at rest: no stream is marked, no builder is the device's, and the
state is `ready` exactly when there is a committed schema. -/
def AtRest (p : Protocol) (id : DeviceId) : Prop :=
  p.schemaOwner ≠ some id ∧ p.valuesOwner ≠ some id ∧
    ∃ r, p.recordOf id = some r ∧ r.schemaStreamActive = false ∧ r.valuesStreamActive = false ∧
      (r.schemaState = .ready ↔ r.schema.isSome = true)

end Protocol

open Protocol

/-! ## Sound records -/

section Sound

variable {p : Protocol} {id : DeviceId}

theorem forget_sound {locked relocked : Bool} (h : p.Sound) :
    (p.forget id locked relocked).1.Sound := by
  have hgone : (p.onDisconnect id locked).1.Sound := onDisconnect_touched.sound h
  rw [forget]
  split
  · exact h
  dsimp only
  split
  · exact hgone
  · split
    · exact hgone.write rfl .empty
    · exact hgone

theorem setReconciliation_sound {pending : Bool} {expectedRev oldRev : UInt32} (h : p.Sound) :
    (p.setReconciliation id pending expectedRev oldRev).Sound := by
  rw [setReconciliation]
  split
  · exact h.write rfl ((h _).keep rfl rfl)
  · exact h

end Sound

/-- **Every run** leaves the records sound. -/
theorem sound_of_reachable {σ : Streams} (hσ : Streams.machine.Reachable σ) : σ.protocol.Sound := by
  refine Machine.Reachable.invariant (M := Streams.machine) (I := fun σ => σ.protocol.Sound)
    (fun τ hτ => ?_) (fun τ l τ' h hstep => ?_) hσ
  · obtain rfl := hτ
    exact fun _ => .empty
  · cases l with
    | notify id msg alloc locked =>
        cases hstep
        exact onNotify_touched.sound h
    | disconnect id locked =>
        cases hstep
        exact onDisconnect_touched.sound h
    | forget id locked relocked =>
        cases hstep
        exact forget_sound h
    | capability id supported schemaRevision locked =>
        cases hstep
        exact onCapability_touched.sound h
    | reconciliation id pending expectedRev oldRev =>
        cases hstep
        exact setReconciliation_sound h

/-! ## The disconnect -/

section Disconnect

variable {p : Protocol} {id : DeviceId} {r : DeviceRecord}

/-- The builders of the device are gone, whatever becomes of the mutex. -/
theorem onDisconnect_owners (hid : id.text ≠ []) (locked : Bool) :
    (p.onDisconnect id locked).1.schemaOwner ≠ some id ∧
      (p.onDisconnect id locked).1.valuesOwner ≠ some id := by
  have hdiscard : (p.discardStreams id).schemaOwner ≠ some id ∧
      (p.discardStreams id).valuesOwner ≠ some id := by
    constructor
    · intro howner
      obtain ⟨stream, hs, rfl⟩ := Option.map_eq_some_iff.mp howner
      exact (filter_owner hs).2 rfl
    · intro howner
      obtain ⟨stream, hs, rfl⟩ := Option.map_eq_some_iff.mp howner
      exact (filter_owner hs).2 rfl
  rw [onDisconnect, if_neg hid]
  dsimp only
  split
  · exact hdiscard
  · split
    · exact hdiscard
    · exact hdiscard

/-- The record of the device afterwards. -/
theorem recordOf_onDisconnect (hr : p.recordOf id = some r) (locked : Bool) :
    (p.onDisconnect id locked).1.recordOf id = some
      (if locked = true then
        { r with
          schemaStreamActive := false
          valuesStreamActive := false
          stagingExpectedCount := 0
          stagingReceivedCount := 0
          stagingSnapshotId := 0 }
      else r) := by
  obtain ⟨i, hi, rfl⟩ := find_of_recordOf hr
  obtain ⟨hid, hu, hkey⟩ := findRecord_spec hi
  have hfind : (p.discardStreams id).findRecord id = some i := hi
  rw [onDisconnect, if_neg hid]
  cases locked with
  | false => exact hr
  | true =>
      simp only [Bool.not_true, Bool.false_eq_true, if_false, if_true, hfind]
      rw [recordOf_setRecord hfind (by exact hkey) (by exact hu), if_pos rfl]
      rfl

/-- **A disconnect** brings a record to rest exactly if it can reach the marks of the record, or
there are none, and the record, when it holds a schema, is neither being described nor without
support. -/
theorem onDisconnect_atRest_iff {σ : Streams} (hσ : Streams.machine.Reachable σ)
    (hr : σ.protocol.recordOf id = some r) (locked : Bool) :
    (σ.protocol.onDisconnect id locked).1.AtRest id ↔
      (locked = true ∨ r.schemaStreamActive = false ∧ r.valuesStreamActive = false) ∧
        (r.schema.isSome = true → r.schemaState ≠ .discovering ∧ r.schemaState ≠ .unsupported) := by
  obtain ⟨i, hi, rfl⟩ := find_of_recordOf hr
  obtain ⟨hid, -, -⟩ := findRecord_spec hi
  have hsound : (σ.protocol.records i).Sound := sound_of_reachable hσ i
  have hstate : ((σ.protocol.records i).schemaState = .ready ↔
        (σ.protocol.records i).schema.isSome = true) ↔
      ((σ.protocol.records i).schema.isSome = true →
        (σ.protocol.records i).schemaState ≠ .discovering ∧
          (σ.protocol.records i).schemaState ≠ .unsupported) := by
    constructor
    · intro hiff hsome
      rw [hiff.mpr hsome]
      exact ⟨by simp, by simp⟩
    · intro hnot
      constructor
      · exact hsound.schema
      · intro hsome
        obtain ⟨hdiscovering, hunsupported⟩ := hnot hsome
        rcases hsound.state hsome with h | h | h
        · exact h
        · exact absurd h hdiscovering
        · exact absurd h hunsupported
  rw [AtRest, recordOf_onDisconnect hr]
  have howners : (σ.protocol.onDisconnect id locked).1.schemaOwner ≠ some id ∧
      (σ.protocol.onDisconnect id locked).1.valuesOwner ≠ some id := onDisconnect_owners hid locked
  obtain ⟨hschema, hvalues⟩ := howners
  cases locked with
  | true =>
      constructor
      · rintro ⟨-, -, r', hr', -, -, hrest⟩
        cases hr'
        exact ⟨Or.inl rfl, hstate.mp hrest⟩
      · rintro ⟨-, hnot⟩
        exact ⟨hschema, hvalues, _, rfl, rfl, rfl, hstate.mpr hnot⟩
  | false =>
      constructor
      · rintro ⟨-, -, r', hr', hs, hv, hrest⟩
        cases hr'
        exact ⟨Or.inr ⟨hs, hv⟩, hstate.mp hrest⟩
      · rintro ⟨hmarks, hnot⟩
        obtain ⟨hs, hv⟩ := hmarks.resolve_left (by simp)
        exact ⟨hschema, hvalues, _, rfl, hs, hv, hstate.mpr hnot⟩

end Disconnect

/-- The lamp has described its settings and begins to send their values. -/
theorem onDisconnect_atRest_values : ∃ σ : Streams, σ.protocol.valuesOwner = some lamp ∧
    (σ.protocol.onDisconnect lamp true).1.AtRest lamp := by
  have hrun : ((Streams.machine.run {} (describeRun ++ [frame (valuesBeginFrame 2)])).map fun σ =>
      decide (σ.protocol.valuesOwner = some lamp) &&
        (σ.protocol.recordOf lamp).any fun r => decide (r.schemaState = .ready)) = some true := by
    decide +kernel
  obtain ⟨σ, hσ, hp⟩ := Machine.exists_reachable_of_run rfl hrun
  obtain ⟨howner, hrecord⟩ := Bool.and_eq_true_iff.mp hp
  obtain ⟨r, hr, hready⟩ := (Option.any_eq_true ..).mp hrecord
  have hready : r.schemaState = .ready := of_decide_eq_true hready
  refine ⟨σ, of_decide_eq_true howner, (onDisconnect_atRest_iff hσ hr true).mpr ⟨Or.inl rfl, ?_⟩⟩
  intro _
  rw [hready]
  exact ⟨by simp, by simp⟩

/-- The lamp describes its settings once more and is gone before the end. -/
def describeAgain : List Label := describeRun ++ [frame (beginFrame 2)]

/-- It goes on being described, though it holds the schema of the first description. -/
theorem described_after_disconnect : ∃ σ, Streams.machine.Reachable σ ∧
    (σ.protocol.recordOf lamp).isSome = true ∧
      ¬(σ.protocol.onDisconnect lamp true).1.AtRest lamp := by
  have hrun : ((Streams.machine.run {} describeAgain).map fun σ =>
      (σ.protocol.recordOf lamp).isSome &&
        ((σ.protocol.onDisconnect lamp true).1.recordOf lamp).any fun r =>
          decide (r.schemaState = .discovering) && r.schema.isSome) = some true := by
    decide +kernel
  obtain ⟨σ, hσ, hp⟩ := Machine.exists_reachable_of_run rfl hrun
  obtain ⟨hsome, hrecord⟩ := Bool.and_eq_true_iff.mp hp
  obtain ⟨r, hr, hstate⟩ := (Option.any_eq_true ..).mp hrecord
  obtain ⟨hdiscovering, hschema⟩ := Bool.and_eq_true_iff.mp hstate
  refine ⟨σ, hσ, hsome, ?_⟩
  rintro ⟨-, -, r', hr', -, -, hrest⟩
  obtain rfl := Option.some.inj (hr.symm.trans hr')
  rw [hrest.mpr hschema] at hdiscovering
  cases of_decide_eq_true hdiscovering

end BleGateway.Settings
