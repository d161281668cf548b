import BleGateway.DeviceSchema.Changes

/-! # The refresh in progress

A refresh is in progress while its record waits or the owner names the record's operation. What
each section does to it is a fact about the one record that the section writes and about the
owner.
-/

namespace BleGateway.DeviceSchema

/-! ## One record -/

/-- The owner names the operation of the record. -/
def Owner.names (o : Owner) (r : Record) : Bool :=
  o.active && o.deviceId = r.deviceId && o.operationId = r.operationId

/-- The generation of the refresh that the record has in progress. -/
def progress (o : Owner) (r : Record) : Option UInt32 :=
  if r.operationKind = .manual ∧ (r.operationState = .queued ∨ o.names r = true) ∧
      r.refreshActive.generation ≠ 0 then
    some r.refreshActive.generation
  else none

/-- A generation that has been handed out. -/
def genOf (generation : UInt32) : Option UInt32 :=
  if generation ≠ 0 then some generation else none

section Progress

variable {o : Owner} {r r' : Record} {id : DeviceId}

theorem progress_none_of_kind (hk : r.operationKind ≠ .manual) : progress o r = none :=
  if_neg fun h => hk h.1

theorem progress_none_of_idle (hs : r.operationState ≠ .queued) (ho : o.names r = false) :
    progress o r = none := by
  refine if_neg fun h => ?_
  rcases h.2.1 with hq | hn
  · exact hs hq
  · cases ho.symm.trans hn

theorem progress_none_of_zero (hg : r.refreshActive.generation = 0) : progress o r = none :=
  if_neg fun h => h.2.2 hg

theorem progress_of_named (hk : r.operationKind = .manual)
    (h : r.operationState = .queued ∨ o.names r = true) :
    progress o r = genOf r.refreshActive.generation := by
  unfold progress genOf
  by_cases hg : r.refreshActive.generation ≠ 0
  · rw [if_pos ⟨hk, h, hg⟩, if_pos hg]
  · rw [if_neg fun h' => hg h'.2.2, if_neg hg]

theorem names_congr (hd : r'.deviceId = r.deviceId) (hi : r'.operationId = r.operationId) :
    o.names r' = o.names r := by
  rw [Owner.names, Owner.names, hd, hi]

theorem names_release : o.release.names r = false := by simp [Owner.names, Owner.release]

theorem SameOperation.progress (h : r.SameOperation r') (hd : r'.deviceId = r.deviceId) :
    progress o r' = progress o r := by
  simp only [DeviceSchema.progress, names_congr hd h.id, h.kind, h.state, h.refresh]

/-- The owner is released, or taken, by another device's discovery. -/
theorem progress_release (ho : o.active = true → o.deviceId = id) (hr : r.deviceId ≠ id) :
    progress o.release r = progress o r := by
  have hno : o.names r = false := by
    by_contra hn
    simp only [Owner.names, Bool.not_eq_false, Bool.and_eq_true, decide_eq_true_eq] at hn
    exact hr (hn.1.2.symm.trans (ho hn.1.1))
  simp only [progress, names_release, hno]

theorem progress_take {op : UInt32} (ho : o.active = false) (hr : r.deviceId ≠ id) :
    progress ⟨true, id, op⟩ r = progress o r := by
  have hbefore : o.names r = false := by simp [Owner.names, ho]
  have hafter : Owner.names ⟨true, id, op⟩ r = false := by
    simp [Owner.names, Ne.symm hr]
  simp only [progress, hbefore, hafter]

end Progress

/-! ## What the sections leave of an operation -/

namespace Record

variable (r : Record)

@[simp] theorem resetError_operationKind : r.resetError.operationKind = r.operationKind := by
  unfold resetError reportError
  split <;> rfl

@[simp] theorem resetError_operationId : r.resetError.operationId = r.operationId := by
  unfold resetError reportError
  split <;> rfl

@[simp] theorem resetError_refreshActive : r.resetError.refreshActive = r.refreshActive := by
  unfold resetError reportError
  split <;> rfl

@[simp] theorem disconnectRunning_operationKind :
    r.disconnectRunning.operationKind = r.operationKind := by
  unfold disconnectRunning reportError
  simp only
  split
  · rfl
  · split <;> rfl

@[simp] theorem disconnectQueued_operationKind :
    r.disconnectQueued.operationKind = r.operationKind := by
  unfold disconnectQueued reportError
  simp only
  split
  · rfl
  · split <;> rfl

theorem complete_of_manual (hk : r.operationKind = .manual) (generation : UInt32)
    (completion : SubmitResult) : (r.complete generation completion).refreshActive.generation = 0 ∧
      (r.complete generation completion).refreshLastCompleted.generation = generation := by
  have hkind : r.reportError.operationKind = r.operationKind := by
    unfold reportError
    split <;> rfl
  unfold complete
  by_cases hok : completion = .ok
  · simp only [if_pos hok, if_pos hk, and_self]
  · simp only [if_neg hok, if_pos (hkind.trans hk), and_self]

@[simp] theorem complete_operationKind (generation : UInt32) (completion : SubmitResult) :
    (r.complete generation completion).operationKind = r.operationKind := by
  have hkind : r.reportError.operationKind = r.operationKind := by
    unfold reportError
    split <;> rfl
  unfold complete
  simp only
  split <;> split <;> first | rfl | exact hkind

@[simp] theorem fresh_operationId (id : DeviceId) : (fresh id).operationId = 0 := rfl

end Record

/-! ## The table -/

namespace Sys

variable {s s' s₁ : Sys} {i j : Ix} {id x : DeviceId} {r : Record}

theorem refreshing_of_find (h : s.find id = some i) :
    s.refreshing id = progress s.owner (s.records i) := by
  unfold refreshing
  rw [h]
  rfl

theorem refreshing_of_none (h : s.find id = none) : s.refreshing id = none := by
  unfold refreshing
  rw [h]
  rfl

theorem refreshing_congr (hr : s'.records = s.records) (ho : s'.owner = s.owner) :
    s'.refreshing = s.refreshing := by
  have hfind : s'.find = s.find := by
    unfold find
    rw [hr]
  funext x
  unfold refreshing owns
  rw [hfind, hr, ho]

/-- A section that writes the record of a device in place. -/
structure Writes (s s' : Sys) (id : DeviceId) (i : Ix) (r : Record) : Prop where
  found : s.find id = some i
  records : s'.records = Function.update s.records i r
  used : r.used = (s.records i).used
  device : r.deviceId = (s.records i).deviceId

namespace Writes

theorem find_eq (h : s.Writes s' id i r) (x : DeviceId) : s'.find x = s.find x := by
  unfold find
  rw [h.records]
  exact Directory.lookup_update_same h.used h.device x

theorem self (h : s.Writes s' id i r) : s'.refreshing id = progress s'.owner r := by
  rw [refreshing_of_find ((h.find_eq id).trans h.found), h.records, Function.update_self]

/-- Another device's refresh depends on the owner only. -/
theorem other (h : s.Writes s' id i r) (hx : x ≠ id)
    (ho : ∀ r : Record, r.deviceId ≠ id → progress s'.owner r = progress s.owner r) :
    s'.refreshing x = s.refreshing x := by
  cases hf : s.find x with
  | none => rw [refreshing_of_none hf, refreshing_of_none ((h.find_eq x).trans hf)]
  | some j =>
      have hdev : (s.records j).deviceId ≠ id := (find_spec hf).2.trans_ne hx
      have hji : j ≠ i := by
        rintro rfl
        exact hdev (find_spec h.found).2
      rw [refreshing_of_find hf, refreshing_of_find ((h.find_eq x).trans hf), h.records,
        Function.update_of_ne hji]
      exact ho _ hdev

end Writes

/-- A record that is entered has no refresh, and neither had its device. -/
theorem findOrCreate_refreshing (hfc : s.findOrCreate id = some (s₁, i)) :
    s₁.refreshing = s.refreshing := by
  rcases findOrCreate_cases hfc with ⟨rfl, -⟩ | ⟨hnone, hunused, rfl⟩
  · rfl
  funext x
  have hfound := findOrCreate_find hfc
  by_cases hx : x = id
  · subst hx
    rw [refreshing_of_none hnone, refreshing_of_find hfound]
    refine progress_none_of_kind ?_
    simp
  · have hfind : (s.setRecord i (.fresh id)).find x = s.find x := by
      refine Directory.lookup_update_of_ne (fun hu => ?_) fun _ => ?_
      · cases hunused.symm.trans hu
      · exact Ne.symm hx
    cases hf : s.find x with
    | none => rw [refreshing_of_none hf, refreshing_of_none (hfind.trans hf)]
    | some j =>
        have hji : j ≠ i := by
          rintro rfl
          cases hunused.symm.trans (find_spec hf).1
        rw [refreshing_of_find hf, refreshing_of_find (hfind.trans hf), setRecord_records,
          Function.update_of_ne hji]
        rfl

/-- The owner's release ends no refresh of another device. -/
theorem refreshing_release (hr : s'.records = s.records) (ho : s'.owner = s.owner.release)
    (hx : s.owner.active = true → s.owner.deviceId ≠ x) : s'.refreshing x = s.refreshing x := by
  have hfind : s'.find x = s.find x := by
    unfold find
    rw [hr]
  cases hf : s.find x with
  | none => rw [refreshing_of_none hf, refreshing_of_none (hfind.trans hf)]
  | some j =>
      rw [refreshing_of_find hf, refreshing_of_find (hfind.trans hf), hr, ho]
      by_cases hact : s.owner.active = true
      · have hdev : (s.records j).deviceId ≠ s.owner.deviceId := by
          rw [(find_spec hf).2]
          exact Ne.symm (hx hact)
        exact progress_release (fun _ => rfl) hdev
      · have hinactive : s.owner.active = false := by simpa using hact
        have hsame : s.owner.release = s.owner := by
          cases h : s.owner
          simp_all [Owner.release]
        rw [hsame]

/-! ## Records that are not found -/

/-- A record that the search for its device does not find, because the store held an earlier one
of the same device, has had no operation. -/
def TwinsRest (s : Sys) : Prop :=
  ∀ j, (s.records j).used = true → s.find (s.records j).deviceId ≠ some j →
    (s.records j).operationKind = .none ∧ (s.records j).operationId = 0

theorem TwinsRest.writes (h : s.TwinsRest) (hw : s.Writes s' id i r) : s'.TwinsRest := by
  intro j hu hne
  rw [hw.find_eq] at hne
  have hji : j ≠ i := by
    rintro rfl
    rw [hw.records, Function.update_self, hw.device, (find_spec hw.found).2] at hne
    exact hne hw.found
  rw [hw.records, Function.update_of_ne hji] at hu hne ⊢
  exact h j hu hne

theorem TwinsRest.congr (h : s.TwinsRest) (hr : s'.records = s.records) : s'.TwinsRest := by
  intro j
  unfold find
  rw [hr]
  exact h j

theorem TwinsRest.findOrCreate (h : s.TwinsRest) (hfc : s.findOrCreate id = some (s₁, i)) :
    s₁.TwinsRest := by
  have hfound := findOrCreate_find hfc
  rcases findOrCreate_cases hfc with ⟨rfl, -⟩ | ⟨hnone, hunused, rfl⟩
  · exact h
  · intro j hu hne
    have hji : j ≠ i := by
      rintro rfl
      simp only [setRecord_records, Function.update_self, Record.fresh_deviceId] at hne
      exact hne hfound
    simp only [setRecord_records, Function.update_of_ne hji] at hu hne ⊢
    refine h j hu fun hf => hne ?_
    rw [← hf]
    refine Directory.lookup_update_of_ne (fun hu' => ?_) fun _ heq => ?_
    · cases hunused.symm.trans hu'
    · exact Directory.lookup_eq_none.mp hnone j hu heq.symm

/-- The record of a device is cleared. -/
theorem TwinsRest.clear (h : s.TwinsRest) (hf : s.find id = some i)
    (hr : s'.records = Function.update s.records i {}) : s'.TwinsRest := by
  intro j hu hne
  have hji : j ≠ i := by
    rintro rfl
    rw [hr, Function.update_self] at hu
    cases hu
  have hrec : s'.records j = s.records j := by rw [hr, Function.update_of_ne hji]
  rw [hrec] at hu hne ⊢
  refine h j hu fun hfj => hne ?_
  by_cases hdev : (s.records j).deviceId = id
  · rw [hdev, hf] at hfj
    exact absurd (Option.some.inj hfj).symm hji
  · rw [← hfj]
    unfold find
    rw [hr]
    refine Directory.lookup_update_of_ne (fun _ heq => ?_) (by simp)
    exact hdev (heq.symm.trans (find_spec hf).2)

/-- Nothing is in progress for a device whose record has been cleared. -/
theorem TwinsRest.refreshing_clear (h : s.TwinsRest) (hf : s.find id = some i)
    (hr : s'.records = Function.update s.records i {}) : s'.refreshing id = none := by
  cases hf' : s'.find id with
  | none => exact refreshing_of_none hf'
  | some j =>
      obtain ⟨hu, hdev⟩ := find_spec hf'
      have hji : j ≠ i := by
        rintro rfl
        rw [hr, Function.update_self] at hu
        cases hu
      have hrec : s'.records j = s.records j := by rw [hr, Function.update_of_ne hji]
      rw [refreshing_of_find hf', hrec]
      rw [hrec] at hu hdev
      have hrest := h j hu (by rw [hdev, hf]; simpa using Ne.symm hji)
      exact progress_none_of_kind (by simp [hrest.1])

/-- Clearing one device's record leaves the others' refreshes. -/
theorem refreshing_clear_other (hf : s.find id = some i)
    (hr : s'.records = Function.update s.records i {}) (ho : s'.owner = s.owner) (hx : x ≠ id) :
    s'.refreshing x = s.refreshing x := by
  have hdev := (find_spec hf).2
  have hfind : s'.find x = s.find x := by
    unfold find
    rw [hr]
    exact Directory.lookup_update_of_ne (fun _ heq => hx (heq.symm.trans hdev)) (by simp)
  cases hfx : s.find x with
  | none => rw [refreshing_of_none hfx, refreshing_of_none (hfind.trans hfx)]
  | some j =>
      have hji : j ≠ i := by
        rintro rfl
        exact hx ((find_spec hfx).2.symm.trans hdev)
      rw [refreshing_of_find hfx, refreshing_of_find (hfind.trans hfx), ho, hr,
        Function.update_of_ne hji]

/-- **Records that are not found have had no operation.** -/
theorem TwinsRest.step {l : Label} (h : s.TwinsRest) (hform : s.records.Formed)
    (hs : s.step l = some s') : s'.TwinsRest := by
  cases step_change hs with
  | same hr | refused _ _ hr | orphaned _ _ _ hr | failedGone _ _ hr => exact h.congr hr
  | cleared _ hf hr _ _ => exact h.clear hf hr
  | reserved hfc _ _ hr _ _ | waits _ hfc _ hr _ _ | started _ hfc _ hr _ _ =>
      exact (h.findOrCreate hfc).writes ⟨findOrCreate_find hfc, hr, rfl, rfl⟩
  | rolledBack _ hf hr | abandoned hf hr | marked hf hr => exact h.writes ⟨hf, hr, rfl, rfl⟩
  | @dropped _ _ _ _ i _ _ hf _ _ hr _ _ =>
      obtain ⟨hu, hd, -⟩ := (s.records i).disconnectRunning_frame
      exact h.writes ⟨hf, hr, hu, hd⟩
  | @unqueued _ _ _ _ i _ _ hf _ hr _ _ =>
      obtain ⟨hu, hd, -, -⟩ := (s.records i).disconnectQueued_frame
      exact h.writes ⟨hf, hr, hu, hd⟩
  | @finished _ context result _ _ i _ _ hf _ _ _ hr _ _ =>
      obtain ⟨hu, hd, -, -⟩ := (s.records i).complete_frame context.refreshGeneration result
      exact h.writes ⟨hf, hr, hu, hd⟩
  | stored _ _ hf hv hr _ _ =>
      have hs := handleMessage_stored hv
      exact h.writes ⟨hf, hr, hs.same.used, congrArg Snapshot.deviceId hs.committed⟩
  | broken _ _ hf _ hr | failed _ hf hr => exact h.writes ⟨hf, hr, by simp, by simp⟩
  | @committed _ _ _ _ _ i _ _ hf hactive hr _ _ =>
      exact h.writes ⟨hf, hr, rfl, (hform i).staging hactive⟩

end Sys

end BleGateway.DeviceSchema
