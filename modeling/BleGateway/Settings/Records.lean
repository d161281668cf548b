import BleGateway.Settings.Protocol

/-! # The record of a device

What the handlers of `Protocol` do to the table of records, said device by device: writing the
record of a device in place, or into a new place, changes what is found under its id only.
-/

namespace BleGateway.Settings.Protocol

variable {s s' : Protocol} {id id' : DeviceId} {i : Rx} {r : DeviceRecord}

/-- The ids in the record table differ. -/
def Distinct (s : Protocol) : Prop :=
  Directory.Distinct DeviceRecord.used DeviceRecord.deviceId s.records

/-- The record of a device. -/
def recordOf (s : Protocol) (id : DeviceId) : Option DeviceRecord := (s.findRecord id).map s.records

@[simp] theorem setRecord_schemaStream : (s.setRecord i r).schemaStream = s.schemaStream := rfl

@[simp] theorem setRecord_valuesStream : (s.setRecord i r).valuesStream = s.valuesStream := rfl

theorem findRecord_spec (h : s.findRecord id = some i) :
    id.text ≠ [] ∧ (s.records i).used = true ∧ (s.records i).deviceId = id := by
  obtain ⟨hid, h⟩ := Option.ite_none_left_eq_some.mp h
  exact ⟨hid, Directory.lookup_spec h⟩

theorem recordOf_of_find (h : s.findRecord id = some i) : s.recordOf id = some (s.records i) := by
  rw [recordOf, h, Option.map_some]

theorem find_of_recordOf (h : s.recordOf id = some r) :
    ∃ i, s.findRecord id = some i ∧ s.records i = r :=
  Option.map_eq_some_iff.mp h

theorem findRecord_eq (hid : id.text ≠ []) :
    s.findRecord id = Directory.lookup DeviceRecord.used DeviceRecord.deviceId s.records id := by
  rw [findRecord, if_neg hid]

/-- The table alone decides what is found. -/
theorem recordOf_congr (h : s'.records = s.records) (id : DeviceId) :
    s'.recordOf id = s.recordOf id := by
  rw [recordOf, recordOf, findRecord, findRecord, h]

theorem recordOf_eq (hid : id.text ≠ []) : s.recordOf id =
    Directory.record DeviceRecord.used DeviceRecord.deviceId s.records id := by
  rw [recordOf, findRecord_eq hid, Directory.record]

theorem recordOf_empty (hid : id.text = []) : s.recordOf id = none := by
  rw [recordOf, findRecord, if_pos hid, Option.map_none]

/-- A write into the place of the record of `id`, or into an unused one, leaves the records of
the other devices. -/
theorem recordOf_setRecord_ne (hold : (s.records i).used = true → (s.records i).deviceId = id)
    (hnew : r.used = true → r.deviceId = id) (hne : id' ≠ id) :
    (s.setRecord i r).recordOf id' = s.recordOf id' := by
  by_cases hid : id'.text = []
  · rw [recordOf_empty hid, recordOf_empty hid]
  · rw [recordOf_eq hid, recordOf_eq hid]
    refine Directory.record_update_of_ne (fun hu he => ?_) (fun hu he => ?_)
    · exact hne (he.symm.trans (hold hu))
    · exact hne (he.symm.trans (hnew hu))

section InPlace

variable (hi : s.findRecord id = some i) (hid : r.deviceId = id)

include hi hid

theorem Distinct.setRecord (hd : s.Distinct) : (s.setRecord i r).Distinct := by
  obtain ⟨_, hu, hkey⟩ := findRecord_spec hi
  exact Directory.Distinct.update_same hd (fun _ => hu) (hid.trans hkey.symm)

variable (hused : r.used = true)

include hused

theorem findRecord_setRecord (id' : DeviceId) :
    (s.setRecord i r).findRecord id' = s.findRecord id' := by
  obtain ⟨_, hu, hkey⟩ := findRecord_spec hi
  by_cases hempty : id'.text = []
  · rw [findRecord, findRecord, if_pos hempty, if_pos hempty]
  · rw [findRecord_eq hempty, findRecord_eq hempty]
    exact Directory.lookup_update_same (hused.trans hu.symm) (hid.trans hkey.symm) id'

/-- The record of a device is written in place. -/
theorem recordOf_setRecord (id' : DeviceId) :
    (s.setRecord i r).recordOf id' = if id' = id then some r else s.recordOf id' := by
  obtain ⟨_, _, hkey⟩ := findRecord_spec hi
  by_cases hne : id' = id
  · subst hne
    rw [recordOf, findRecord_setRecord hi hid hused, hi, if_pos rfl, Option.map_some]
    exact congrArg some (Function.update_self ..)
  · rw [if_neg hne]
    exact recordOf_setRecord_ne (fun _ => hkey) (fun _ => hid) hne

end InPlace

/-- What `findOrCreateRecord` gives: the record that is there, or a new one. -/
theorem findOrCreateRecord_spec (hd : s.Distinct) (h : s.findOrCreateRecord id = some (s', i)) :
    s'.Distinct ∧ s'.findRecord id = some i ∧ s'.schemaStream = s.schemaStream ∧
      s'.valuesStream = s.valuesStream ∧
      (∀ id', id' ≠ id → s'.recordOf id' = s.recordOf id') ∧
      (s.recordOf id = some (s'.records i) ∨ s.recordOf id = none) := by
  obtain ⟨hid, h⟩ := Option.ite_none_left_eq_some.mp h
  cases hfind : s.findRecord id with
  | some j =>
      rw [hfind] at h
      cases h
      exact ⟨hd, hfind, rfl, rfl, fun _ _ => rfl, Or.inl (recordOf_of_find hfind)⟩
  | none =>
      rw [hfind] at h
      obtain ⟨j, hj, he⟩ := Option.map_eq_some_iff.mp h
      obtain ⟨rfl, rfl⟩ := Prod.mk.inj he
      have hfree := Directory.vacant_spec hj
      have habsent := Directory.lookup_eq_none.mp ((findRecord_eq hid).symm.trans hfind)
      have hd' : (s.setRecord j { used := true, deviceId := id }).Distinct :=
        Directory.Distinct.update hd fun _ k _ hk => habsent k hk
      refine ⟨hd', ?_, rfl, rfl, fun id' hne => ?_, Or.inr ?_⟩
      · rw [findRecord_eq hid]
        refine hd'.lookup_eq_some.mpr ?_
        simp [Protocol.setRecord]
      · exact recordOf_setRecord_ne (fun hu => absurd (hfree.symm.trans hu) (by simp))
          (fun _ => rfl) hne
      · rw [recordOf, hfind, Option.map_none]

/-- Clearing the record of a device. -/
theorem recordOf_clear (hd : s.Distinct) (hi : s.findRecord id = some i) :
    (s.setRecord i {}).Distinct ∧ (s.setRecord i {}).recordOf id = none := by
  obtain ⟨hid, hu, hkey⟩ := findRecord_spec hi
  refine ⟨Directory.Distinct.update hd fun h => absurd h (by simp), ?_⟩
  rw [recordOf_eq hid, ← hkey]
  exact Directory.Distinct.record_clear hd hu rfl

end BleGateway.Settings.Protocol
