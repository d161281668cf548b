import BleGateway.Scheduler.Worker
import BleGateway.Lib.Selection

/-! # What `select_slot_locked` selects

The nested loops are a selection over one list, the candidates in the order in which they are
visited. `none` is selected exactly when there is no candidate, and among the candidates of
one device the selected one has the lowest slot index of its priority.
-/

namespace BleGateway.Scheduler

variable {g : CtrlState}

/-- The slots that reach the comparison in `select_slot_locked`, in its order. -/
def candidates (g : CtrlState) : List SlotIx :=
  (deviceOrder g).flatMap fun d =>
    if (g.devices d).ready then (List.finRange DEVICE_CTRL_MAX_JOBS).filter (eligible g d) else []

theorem better_eq_argAux (g : CtrlState) :
    better g = List.argAux (fun i j => rankAt g i < rankAt g j) := by
  funext best i
  cases best with
  | none => rfl
  | some b => simp only [better, List.argAux]

/-- The loops of `select_slot_locked` pick the first candidate of the best priority. -/
theorem selectSlotLocked_eq_argmin (g : CtrlState) :
    selectSlotLocked g = (candidates g).argmin (rankAt g) := by
  rw [selectSlotLocked, Selection.foldl_nested, better_eq_argAux]
  rfl

/-! ## The device order -/

theorem mem_deviceOrder (g : CtrlState) (d : DevIx) : d ∈ deviceOrder g := by
  have hd : d.val < 16 := d.isLt
  refine List.mem_map.mpr ⟨(d.val + (16 - g.rrDevice % 16)) % 16, ?_, ?_⟩
  · rw [List.mem_range]
    exact Nat.mod_lt _ (by decide)
  · apply Fin.ext
    show (g.rrDevice + (d.val + (16 - g.rrDevice % 16)) % 16) % 16 = d.val
    omega

theorem deviceOrder_nodup (g : CtrlState) : (deviceOrder g).Nodup := by
  refine (List.nodup_map_iff_inj_on List.nodup_range).mpr fun a ha b hb hab => ?_
  rw [List.mem_range] at ha hb
  have h16 : (g.rrDevice + a) % 16 = (g.rrDevice + b) % 16 := congrArg Fin.val hab
  have ha' : a < 16 := ha
  have hb' : b < 16 := hb
  omega

/-! ## Candidates -/

theorem eligible_deviceIndex {d : DevIx} {i : SlotIx} (h : eligible g d i = true) :
    (g.slots i).deviceIndex = d := by
  simp only [eligible, Bool.and_eq_true, decide_eq_true_eq] at h
  exact h.1.1.2

/-- A candidate is a slot that passes the tests for the device it points at. -/
theorem mem_candidates {i : SlotIx} :
    i ∈ candidates g ↔ (g.deviceOf (g.slots i)).ready = true ∧
      eligible g (g.slots i).deviceIndex i = true := by
  simp only [candidates, List.mem_flatMap, List.mem_ite_nil_right, List.mem_filter,
    List.mem_finRange, true_and]
  constructor
  · rintro ⟨d, -, hr, he⟩
    obtain rfl := eligible_deviceIndex he
    exact ⟨hr, he⟩
  · rintro ⟨hr, he⟩
    exact ⟨_, mem_deviceOrder g _, hr, he⟩

/-- Candidates of one device stand in the order of their slots. -/
theorem candidates_pairwise (g : CtrlState) :
    (candidates g).Pairwise fun i j =>
      (g.slots i).deviceIndex = (g.slots j).deviceIndex → i < j := by
  rw [candidates, List.pairwise_flatMap]
  constructor
  · intro d _
    split
    · refine List.Pairwise.filter _ (List.Pairwise.imp ?_ (List.pairwise_lt_finRange _))
      intro i j hij _
      exact hij
    · exact List.Pairwise.nil
  · refine (deviceOrder_nodup g).imp fun hne i hi j hj hij => ?_
    rw [List.mem_ite_nil_right, List.mem_filter] at hi hj
    rw [eligible_deviceIndex hi.2.2, eligible_deviceIndex hj.2.2] at hij
    exact absurd hij hne

/-! ## The selected slot -/

theorem selectSlotLocked_eq_none : selectSlotLocked g = none ↔ ∀ i, i ∉ candidates g := by
  rw [selectSlotLocked_eq_argmin, List.argmin_eq_none, List.eq_nil_iff_forall_not_mem]

theorem selectSlotLocked_mem {i : SlotIx} (h : selectSlotLocked g = some i) :
    i ∈ candidates g :=
  List.argmin_mem (by rw [Option.mem_def, ← selectSlotLocked_eq_argmin, h])

/-- No candidate of the same device and priority has a lower slot index than the selected
slot. -/
theorem selectSlotLocked_le {i j : SlotIx} (h : selectSlotLocked g = some i)
    (hj : j ∈ candidates g) (hdev : (g.slots i).deviceIndex = (g.slots j).deviceIndex)
    (hrank : rankAt g j = rankAt g i) : i ≤ j := by
  rw [selectSlotLocked_eq_argmin] at h
  rcases Selection.rel_of_argmin (candidates_pairwise g) h hj hrank.le with rfl | hlt
  · exact le_refl _
  · exact (hlt hdev).le

/-- The tests a selected slot has passed. -/
theorem selectSlotLocked_spec {i : SlotIx} (h : selectSlotLocked g = some i) :
    (g.slots i).state = .queued ∧ (g.deviceOf (g.slots i)).used = true ∧
      (g.deviceOf (g.slots i)).blocked = false ∧
      (g.deviceOf (g.slots i)).transportInflight = false ∧
      ((g.deviceOf (g.slots i)).lease = 0 ∨
        (g.slots i).job.leaseId = (g.deviceOf (g.slots i)).lease) := by
  obtain ⟨hr, he⟩ := mem_candidates.mp (selectSlotLocked_mem h)
  simp only [Device.ready, Bool.and_eq_true, Bool.not_eq_true'] at hr
  simp only [eligible, Bool.and_eq_true, Bool.or_eq_true, decide_eq_true_eq] at he
  exact ⟨he.1.1.1, hr.1.1, hr.1.2, hr.2, he.1.2⟩

end BleGateway.Scheduler
