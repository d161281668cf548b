import Mathlib.Data.Fintype.EquivFin
import Mathlib.Data.Fin.Tuple.Basic

set_option autoImplicit false

/-! # Directories

A static array of records with a `used` flag and a key, searched by key: the record of a key
is the first used one that carries it, and a new record takes the first unused place. As long
as new keys are only entered after a failed search, no key is held twice (`Distinct`), and the
search finds a record exactly when it is there.
-/

namespace Directory

variable {n : Nat} {α β κ : Type}

/-- The place of the record with key `k`. -/
def lookup [DecidableEq κ] (used : α → Bool) (key : α → κ) (t : Fin n → α) (k : κ) :
    Option (Fin n) :=
  Fin.find? fun i => used (t i) && decide (key (t i) = k)

/-- The first place without a record. -/
def vacant (used : α → Bool) (t : Fin n → α) : Option (Fin n) := Fin.find? fun i => !used (t i)

/-- No two records carry one key. -/
def Distinct (used : α → Bool) (key : α → κ) (t : Fin n → α) : Prop :=
  ∀ i j, used (t i) = true → used (t j) = true → key (t i) = key (t j) → i = j

variable {used : α → Bool} {key : α → κ} {t : Fin n → α} {i : Fin n} {v : α} {k : κ}

theorem lookup_spec [DecidableEq κ] {i : Fin n} (h : lookup used key t k = some i) :
    used (t i) = true ∧ key (t i) = k := by
  simpa using (Fin.find?_eq_some_iff.mp h).1

theorem lookup_eq_none [DecidableEq κ] :
    lookup used key t k = none ↔ ∀ i, used (t i) = true → key (t i) ≠ k := by
  simp [lookup]

theorem vacant_spec {i : Fin n} (h : vacant used t = some i) : used (t i) = false := by
  simpa using (Fin.find?_eq_some_iff.mp h).1

theorem vacant_first {i j : Fin n} (h : vacant used t = some i) (hj : j < i) :
    used (t j) = true := by
  simpa using (Fin.find?_eq_some_iff.mp h).2 j hj

theorem vacant_eq_none : vacant used t = none ↔ ∀ i, used (t i) = true := by
  simp [vacant]

/-- The search finds the first record with the key. -/
theorem lookup_eq_some_iff [DecidableEq κ] {i : Fin n} :
    lookup used key t k = some i ↔
      (used (t i) = true ∧ key (t i) = k) ∧ ∀ j < i, used (t j) = true → key (t j) ≠ k := by
  unfold lookup
  rw [Fin.find?_eq_some_iff]
  refine and_congr (by simp) (forall₂_congr fun j _ => ?_)
  simp

/-- It still finds that record when no other one has been entered under the key. -/
theorem lookup_of_fewer [DecidableEq κ] {t' : Fin n → α} {i : Fin n}
    (h : lookup used key t k = some i) (hi : used (t' i) = true ∧ key (t' i) = k)
    (hfew : ∀ j, used (t' j) = true → key (t' j) = k → used (t j) = true ∧ key (t j) = k) :
    lookup used key t' k = some i := by
  rw [lookup_eq_some_iff] at h ⊢
  refine ⟨hi, fun j hj hu hkey => ?_⟩
  obtain ⟨hu', hkey'⟩ := hfew j hu hkey
  exact h.2 j hj hu' hkey'

/-- In a directory with distinct keys the search finds the record that is there. -/
theorem Distinct.lookup_eq [DecidableEq κ] (hd : Distinct used key t) {i : Fin n}
    (hi : used (t i) = true) :
    lookup used key t (key (t i)) = some i := by
  cases h : lookup used key t (key (t i)) with
  | none => exact absurd rfl (lookup_eq_none.mp h i hi)
  | some j =>
      obtain ⟨hj, hkey⟩ := lookup_spec h
      rw [hd j i hj hi hkey]

theorem Distinct.lookup_eq_some [DecidableEq κ] (hd : Distinct used key t) {i : Fin n} :
    lookup used key t k = some i ↔ used (t i) = true ∧ key (t i) = k := by
  constructor
  · exact lookup_spec
  · rintro ⟨hi, rfl⟩
    exact hd.lookup_eq hi

/-- A write that looks the same to the search for `k` does not change it. -/
theorem lookup_update_congr [DecidableEq κ]
    (h : (used v && decide (key v = k)) = (used (t i) && decide (key (t i) = k))) :
    lookup used key (Function.update t i v) k = lookup used key t k := by
  have hp : ∀ j, (used (Function.update t i v j) && decide (key (Function.update t i v j) = k)) =
      (used (t j) && decide (key (t j) = k)) := by
    intro j
    by_cases hji : j = i
    · subst hji
      rw [Function.update_self, h]
    · rw [Function.update_of_ne hji]
  simp only [lookup, hp]

/-- Changing a record in place changes no search. -/
theorem lookup_update_same [DecidableEq κ] (hused : used v = used (t i))
    (hkey : key v = key (t i)) (k : κ) :
    lookup used key (Function.update t i v) k = lookup used key t k :=
  lookup_update_congr (by rw [hused, hkey])

/-- A write that concerns other keys does not change the search for `k`. -/
theorem lookup_update_of_ne [DecidableEq κ] (hold : used (t i) = true → key (t i) ≠ k)
    (hnew : used v = true → key v ≠ k) :
    lookup used key (Function.update t i v) k = lookup used key t k :=
  lookup_update_congr (by grind)

/-- Entering a key that the directory does not hold makes the search find the new record. -/
theorem lookup_update_new [DecidableEq κ] (hnone : lookup used key t k = none) (hv : used v = true)
    (hkey : key v = k) :
    lookup used key (Function.update t i v) k = some i := by
  refine Fin.find?_eq_some_iff.mpr ⟨by simp [hv, hkey], fun j hj => ?_⟩
  have hne : j ≠ i := ne_of_lt hj
  rw [Function.update_of_ne hne]
  have := lookup_eq_none.mp hnone j
  grind

/-- Writing a record whose key no other record carries keeps the keys distinct. -/
theorem Distinct.update (hd : Distinct used key t)
    (hv : used v = true → ∀ j, j ≠ i → used (t j) = true → key (t j) ≠ key v) :
    Distinct used key (Function.update t i v) := by
  intro a b ha hb hkey
  by_cases hai : a = i <;> by_cases hbi : b = i
  · exact hai.trans hbi.symm
  · subst hai
    rw [Function.update_self] at ha hkey
    rw [Function.update_of_ne hbi] at hb hkey
    exact absurd hkey.symm (hv ha b hbi hb)
  · subst hbi
    rw [Function.update_self] at hb hkey
    rw [Function.update_of_ne hai] at ha hkey
    exact absurd hkey (hv hb a hai ha)
  · rw [Function.update_of_ne hai] at ha hkey
    rw [Function.update_of_ne hbi] at hb hkey
    exact hd a b ha hb hkey

/-- Changing a record in place keeps the keys distinct. -/
theorem Distinct.update_same (hd : Distinct used key t)
    (hused : used v = true → used (t i) = true) (hkey : key v = key (t i)) :
    Distinct used key (Function.update t i v) :=
  hd.update fun hv j hji hj h => hji (hd j i hj (hused hv) (h.trans hkey))

/-! ## The record of a key -/

/-- The record with key `k`. -/
def record [DecidableEq κ] (used : α → Bool) (key : α → κ) (t : Fin n → α) (k : κ) : Option α :=
  (lookup used key t k).map t

theorem record_of_lookup [DecidableEq κ] {i : Fin n} (h : lookup used key t k = some i) :
    record used key t k = some (t i) := by
  rw [record, h, Option.map_some]

theorem record_of_lookup_none [DecidableEq κ] (h : lookup used key t k = none) :
    record used key t k = none := by
  rw [record, h, Option.map_none]

/-- Writing the record of `k` in place, or into a place while `k` has none. -/
theorem Distinct.record_update [DecidableEq κ] (hd : Distinct used key (Function.update t i v))
    (hv : used v = true) : record used key (Function.update t i v) (key v) = some v := by
  have hi : Function.update t i v i = v := Function.update_self ..
  have hlook := hd.lookup_eq (i := i) (by rw [hi]; exact hv)
  rw [hi] at hlook
  rw [record_of_lookup hlook, hi]

/-- Clearing the record of `k`. -/
theorem Distinct.record_clear [DecidableEq κ] (hd : Distinct used key t) (hi : used (t i) = true)
    (hv : used v = false) : record used key (Function.update t i v) (key (t i)) = none := by
  refine record_of_lookup_none (lookup_eq_none.mpr fun j hj hkey => ?_)
  by_cases hji : j = i
  · subst hji
    rw [Function.update_self, hv] at hj
    exact absurd hj (by simp)
  · rw [Function.update_of_ne hji] at hj hkey
    exact hji (hd j i hj hi hkey)

/-- A write that concerns other keys leaves the record of `k` alone. -/
theorem record_update_of_ne [DecidableEq κ] (hold : used (t i) = true → key (t i) ≠ k)
    (hnew : used v = true → key v ≠ k) :
    record used key (Function.update t i v) k = record used key t k := by
  rw [record, record, lookup_update_of_ne hold hnew]
  cases h : lookup used key t k with
  | none => rfl
  | some j =>
      obtain ⟨hj, hkey⟩ := lookup_spec h
      have hji : j ≠ i := by
        rintro rfl
        exact hold hj hkey
      simp only [Option.map_some, Function.update_of_ne hji]

/-- **A directory with a key to spare has a place to spare.** If every record of `t` has one
with the same key in a directory `u` of the same size, and `u` also holds a key that `t` does
not, then `t` is not full. -/
theorem vacant_ne_none (usedU : β → Bool) (keyU : β → κ) (u : Fin n → β)
    (hd : Distinct used key t)
    (hsub : ∀ i, used (t i) = true → ∃ j, usedU (u j) = true ∧ keyU (u j) = key (t i))
    {j : Fin n} (hj : ∀ i, used (t i) = true → key (t i) ≠ keyU (u j)) :
    vacant used t ≠ none := by
  intro hfull
  have hall := vacant_eq_none.mp hfull
  choose f _ hf using fun i => hsub i (hall i)
  have hinj : Function.Injective f := by
    intro a b hab
    have hkey : key (t a) = key (t b) := by rw [← hf a, ← hf b, hab]
    exact hd a b (hall a) (hall b) hkey
  -- `f` hits every place of `u`, also the one of the key that is not in `t`
  obtain ⟨i, hi⟩ := Finite.surjective_of_injective hinj j
  exact hj i (hall i) (by rw [← hf i, hi])

-- a search in a table of known size must not unfold into one test per place
attribute [irreducible] lookup vacant

end Directory
