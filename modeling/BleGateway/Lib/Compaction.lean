import Mathlib.Data.List.Range
import Mathlib.Logic.Function.Basic

set_option autoImplicit false

/-! # Compaction of an array in place

A read index runs over the array, a write index stays behind it, and an element that is kept is
copied from the one to the other. The front then holds the kept elements in order; nothing
behind the write index has been touched, so old elements stay there.
-/

namespace Compaction

variable {α : Type}

/-- One round of the loop: the array and the write index. -/
def step (keep : α → Bool) : (Nat → α) × Nat → Nat → (Nat → α) × Nat
  | (cells, write), read =>
      if keep (cells read) then
        (if write ≠ read then Function.update cells write (cells read) else cells, write + 1)
      else (cells, write)

/-- The loop over the first `count` elements. -/
def compact (keep : α → Bool) (cells : Nat → α) (count : Nat) : (Nat → α) × Nat :=
  (List.range count).foldl (step keep) (cells, 0)

/-- The first `count` elements of an array. -/
def front (cells : Nat → α) (count : Nat) : List α := (List.range count).map cells

theorem front_succ (cells : Nat → α) (count : Nat) :
    front cells (count + 1) = front cells count ++ [cells count] := by
  rw [front, List.range_succ, List.map_append]
  rfl

/-- An update behind the front does not change the front. -/
theorem front_update {cells : Nat → α} {count i : Nat} (h : count ≤ i) (a : α) :
    front (Function.update cells i a) count = front cells count := by
  apply List.map_congr_left
  intro k hk
  have hlt : k < count := List.mem_range.mp hk
  have hne : k ≠ i := by omega
  exact Function.update_of_ne hne a cells

theorem compact_succ (keep : α → Bool) (cells : Nat → α) (count : Nat) :
    compact keep cells (count + 1) = step keep (compact keep cells count) count := by
  rw [compact, List.range_succ, List.foldl_append]
  rfl

/-- **The compaction is the filter of the front**, and it leaves what lies behind. -/
theorem compact_spec (keep : α → Bool) (cells : Nat → α) (count : Nat) :
    front (compact keep cells count).1 (compact keep cells count).2 =
        (front cells count).filter keep ∧
      (compact keep cells count).2 ≤ count ∧
      ∀ i, (compact keep cells count).2 ≤ i → (compact keep cells count).1 i = cells i := by
  induction count with
  | zero => exact ⟨rfl, Nat.le_refl 0, fun i _ => rfl⟩
  | succ count ih =>
      rw [compact_succ, front_succ, List.filter_append]
      generalize compact keep cells count = c at ih ⊢
      obtain ⟨moved, write⟩ := c
      obtain ⟨hfront, hle, hrest⟩ := ih
      -- the element about to be read has not been overwritten
      have hread : moved count = cells count := hrest count hle
      rw [step, hread]
      cases hk : keep (cells count) with
      | false =>
          have hnone : [cells count].filter keep = [] := List.filter_cons_of_neg (by simp [hk])
          rw [hnone, List.append_nil, if_neg (by simp)]
          exact ⟨hfront, Nat.le_succ_of_le hle, hrest⟩
      | true =>
          have hone : [cells count].filter keep = [cells count] := by
            rw [List.filter_cons_of_pos hk, List.filter_nil]
          rw [hone, if_pos rfl]
          by_cases hw : write = count
          · subst hw
            rw [if_neg (not_not.mpr rfl)]
            refine ⟨?_, Nat.le_refl _, fun i hi => hrest i (Nat.le_of_succ_le hi)⟩
            show front moved (write + 1) = _
            rw [front_succ, hfront, hread]
          · rw [if_pos hw]
            refine ⟨?_, Nat.succ_le_succ hle, fun i hi => ?_⟩
            · show front (Function.update moved write (cells count)) (write + 1) = _
              rw [front_succ, front_update (Nat.le_refl write), hfront, Function.update_self]
            · have hlt : write < i := hi
              show Function.update moved write (cells count) i = cells i
              rw [Function.update_of_ne (Nat.ne_of_gt hlt)]
              exact hrest i (Nat.le_of_lt hlt)

end Compaction
