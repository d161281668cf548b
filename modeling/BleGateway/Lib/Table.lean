import Mathlib.Data.Fintype.Card
import Mathlib.Data.Fin.Tuple.Basic

set_option autoImplicit false

/-! # Fixed-size tables

A static array of `n` records is a function `Fin n → α`, written with `Function.update` and
searched for the first record that passes a test with `Fin.find?`. This file adds the one
thing Mathlib does not state for such tables: how the number of entries that pass a test
changes when one entry is written. A table of tickets is counted the same way.
-/

namespace Table

variable {n : Nat} {α : Type}

/-- The number of entries of a table that pass a test. -/
def count (p : α → Bool) (t : Fin n → α) : Nat :=
  (Finset.univ.filter fun i => p (t i) = true).card

variable {p : α → Bool} {t : Fin n → α} {i : Fin n} {l : Fin n → Bool × Nat}

theorem count_congr {u : Fin n → α} (h : ∀ i, p (t i) = p (u i)) :
    count p t = count p u := by
  simp only [count, h]

/-- Writing an entry that passes the test over one that does not adds one. -/
theorem count_update_of_false {v : α} (hold : p (t i) = false) (hnew : p v = true) :
    count p (Function.update t i v) = count p t + 1 := by
  have hset : (Finset.univ.filter fun j => p (Function.update t i v j) = true)
      = insert i (Finset.univ.filter fun j => p (t j) = true) := by
    ext j
    by_cases hj : j = i
    · subst hj; simp [hnew]
    · simp [hj]
  rw [count, count, hset, Finset.card_insert_of_notMem (by simp [hold])]

/-- Writing an entry that fails the test over one that passes it removes one. -/
theorem count_update_of_true {v : α} (hold : p (t i) = true) (hnew : p v = false) :
    count p (Function.update t i v) + 1 = count p t := by
  have hback : t = Function.update (Function.update t i v) i (t i) := by simp
  conv_rhs => rw [hback]
  exact (count_update_of_false (by simpa using hnew) hold).symm

/-- Writing an entry on which the test agrees changes nothing. -/
theorem count_update_of_eq {v : α} (h : p v = p (t i)) :
    count p (Function.update t i v) = count p t := by
  refine count_congr fun j => ?_
  by_cases hj : j = i
  · subst hj; simp [h]
  · simp [hj]

theorem count_pos_of (h : p (t i) = true) :
    0 < count p t :=
  Finset.card_pos.mpr ⟨i, by simp [h]⟩

theorem exists_of_count_pos (h : 0 < count p t) :
    ∃ i, p (t i) = true := by
  obtain ⟨i, hi⟩ := Finset.card_pos.mp h
  exact ⟨i, by simpa using hi⟩

theorem count_eq_zero (h : ∀ i, p (t i) = false) :
    count p t = 0 := by
  simp [count, h]

/-- All entries pass. -/
theorem count_eq_card (h : ∀ i, p (t i) = true) : count p t = n := by
  simp [count, h]

/-- An entry that fails the test is not counted. -/
theorem count_lt_of (h : p (t i) = false) :
    count p t < n := by
  have hlt : (Finset.univ.filter fun j => p (t j) = true) ⊂ Finset.univ :=
    Finset.filter_ssubset.mpr ⟨i, Finset.mem_univ i, by simp [h]⟩
  have hcard := Finset.card_lt_card hlt
  rwa [Finset.card_fin] at hcard

theorem unique_of_count_le_one (h : count p t ≤ 1) {j : Fin n} (hi : p (t i) = true)
    (hj : p (t j) = true) : i = j :=
  Finset.card_le_one.mp h i (by simpa using hi) j (by simpa using hj)

/-! ## Ledgers

A ledger says of each entry of a table whether it holds a ticket, and which. -/

/-- The entry holds ticket `t`. -/
def owes (t : Nat) (e : Bool × Nat) : Bool := e.1 && decide (e.2 = t)

/-- How many entries hold ticket `t`. -/
def holders (t : Nat) (l : Fin n → Bool × Nat) : Nat := count (owes t) l

theorem holders_take (h : (l i).1 = false) (t u : Nat) :
    holders t (Function.update l i (true, u)) = holders t l + if u = t then 1 else 0 := by
  split
  · rename_i hu
    exact count_update_of_false (by simp [owes, h]) (by simp [owes, hu])
  · rename_i hu
    exact count_update_of_eq (by simp [owes, h, hu])

theorem holders_drop (h : (l i).1 = true) (t u : Nat) :
    holders t (Function.update l i (false, u)) + (if (l i).2 = t then 1 else 0) =
      holders t l := by
  split
  · rename_i hu
    exact count_update_of_true (by simp [owes, h, hu]) (by simp [owes])
  · rename_i hu
    exact count_update_of_eq (by simp [owes, hu])

theorem exists_of_holders_pos {t : Nat} (h : 0 < holders t l) :
    ∃ i, (l i).1 = true ∧ (l i).2 = t := by
  obtain ⟨i, hi⟩ := exists_of_count_pos h
  exact ⟨i, by simpa [owes] using hi⟩

theorem holders_eq_zero {t : Nat} (h : ∀ i, (l i).1 = false) :
    holders t l = 0 :=
  count_eq_zero fun i => by simp [owes, h i]

end Table
