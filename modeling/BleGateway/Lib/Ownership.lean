import BleGateway.Lib.Directory

set_option autoImplicit false

/-! # A resource with an owner

A resource that one record of a directory may own at a time. The owner is named by its key, and its
record carries a flag. Both are in agreement (`Held`) as long as a record is marked when it becomes
the owner of a free resource, and an owner whose flag is cleared gives the resource up.
-/

namespace Ownership

variable {n : Nat} {α κ : Type} (used : α → Bool) (key : α → κ) (flag : α → Bool)

/-- The owner has a record, and its record is the one that is marked. -/
structure Held (t : Fin n → α) (owner : Option κ) : Prop where
  marked : ∀ i, flag (t i) = true → used (t i) = true ∧ owner = some (key (t i))
  owner : ∀ k, owner = some k → ∃ i, used (t i) = true ∧ key (t i) = k ∧ flag (t i) = true

variable {used key flag} {t : Fin n → α} {owner : Option κ} {i : Fin n} {v : α}

theorem held_free (h : ∀ i, flag (t i) = false) : Held used key flag t none where
  marked i hi := by
    rw [h i] at hi
    cases hi
  owner k hk := by cases hk

/-- A write that concerns neither the keys nor the flag. -/
theorem Held.update_same (h : Held used key flag t owner) (hused : used v = used (t i))
    (hkey : key v = key (t i)) (hflag : flag v = flag (t i)) :
    Held used key flag (Function.update t i v) owner := by
  have hsame : ∀ j, used (Function.update t i v j) = used (t j) ∧
      key (Function.update t i v j) = key (t j) ∧ flag (Function.update t i v j) = flag (t j) := by
    intro j
    by_cases hji : j = i
    · rw [hji, Function.update_self]
      exact ⟨hused, hkey, hflag⟩
    · rw [Function.update_of_ne hji]
      exact ⟨rfl, rfl, rfl⟩
  refine ⟨fun j hj => ?_, fun k hk => ?_⟩
  · obtain ⟨hu, hk, hf⟩ := hsame j
    rw [hu, hk]
    exact h.marked j (hf ▸ hj)
  · obtain ⟨j, hj, hkj, hfj⟩ := h.owner k hk
    obtain ⟨hu, hk', hf⟩ := hsame j
    exact ⟨j, hu.trans hj, hk'.trans hkj, hf.trans hfj⟩

/-- A record that does not own the resource is written without the flag. -/
theorem Held.update_other (h : Held used key flag t owner) (hflag : flag v = false)
    (hother : used (t i) = true → owner ≠ some (key (t i))) :
    Held used key flag (Function.update t i v) owner := by
  refine ⟨fun j hj => ?_, fun k hk => ?_⟩
  · have hji : j ≠ i := by
      intro hji
      rw [hji, Function.update_self, hflag] at hj
      cases hj
    rw [Function.update_of_ne hji] at hj ⊢
    exact h.marked j hj
  · obtain ⟨j, hj, hkj, hfj⟩ := h.owner k hk
    have hji : j ≠ i := by
      rintro rfl
      exact hother hj (hk.trans (congrArg some hkj.symm))
    exact ⟨j, by rw [Function.update_of_ne hji]; exact ⟨hj, hkj, hfj⟩⟩

/-- A record becomes the owner of the free resource. -/
theorem Held.take (h : Held used key flag t none) (hused : used v = true) (hflag : flag v = true) :
    Held used key flag (Function.update t i v) (some (key v)) := by
  refine ⟨fun j hj => ?_, fun k hk => ⟨i, ?_⟩⟩
  · by_cases hji : j = i
    · rw [hji, Function.update_self]
      exact ⟨hused, rfl⟩
    · rw [Function.update_of_ne hji] at hj
      obtain ⟨-, hnone⟩ := h.marked j hj
      cases hnone
  · rw [Function.update_self]
    exact ⟨hused, Option.some.inj hk, hflag⟩

/-- The owner gives the resource up. -/
theorem Held.give (h : Held used key flag t owner) (hd : Directory.Distinct used key t)
    (hused : used (t i) = true) (howner : owner = some (key (t i))) (hflag : flag v = false) :
    Held used key flag (Function.update t i v) none := by
  refine ⟨fun j hj => ?_, fun k hk => by cases hk⟩
  have hji : j ≠ i := by
    intro hji
    rw [hji, Function.update_self, hflag] at hj
    cases hj
  rw [Function.update_of_ne hji] at hj
  obtain ⟨hu, ho⟩ := h.marked j hj
  exact absurd (hd j i hu hused (Option.some.inj (ho.symm.trans howner))) hji

/-- What a write of the record of `k` means for the resource: nothing, that the record takes it, or
that it gives it up. The flags are those of the record, and the owners those of the resource, before
and after. -/
inductive Turn (k : κ) (flag flag' : Bool) (owner owner' : Option κ) : Prop
  | same (hflag : flag' = flag) (howner : owner' = owner)
  | take (hfree : owner = none) (hflag : flag' = true) (howner : owner' = some k)
  | give (hown : owner = some k) (hflag : flag' = false) (howner : owner' = none)

/-- The record of a key is written in place. -/
theorem Held.turn {owner' : Option κ} (h : Held used key flag t owner)
    (hd : Directory.Distinct used key t) (hi : used (t i) = true) (hv : used v = true)
    (hkey : key v = key (t i)) (hturn : Turn (key v) (flag (t i)) (flag v) owner owner') :
    Held used key flag (Function.update t i v) owner' := by
  cases hturn with
  | same hflag howner =>
      rw [howner]
      exact h.update_same (hv.trans hi.symm) hkey hflag
  | take hfree hflag howner =>
      rw [howner]
      exact (hfree ▸ h).take hv hflag
  | give hown hflag howner =>
      rw [howner]
      exact h.give hd hi (hown.trans (congrArg some hkey)) hflag

theorem filter_of_ne [DecidableEq κ] {k : κ} (h : owner ≠ some k) :
    (owner.filter fun k' => k' ≠ k) = owner := by
  cases owner with
  | none => rfl
  | some k' =>
      rw [Option.filter_some, if_pos]
      exact decide_eq_true fun heq => h (congrArg some heq)

/-- A record is written without the flag, and the resource is taken from its key if it has it. -/
theorem Held.drop [DecidableEq κ] (h : Held used key flag t owner) (i : Fin n) :
    Turn (key (t i)) (flag (t i)) false owner (owner.filter fun k => k ≠ key (t i)) := by
  by_cases hown : owner = some (key (t i))
  · refine .give hown rfl ?_
    rw [hown, Option.filter_some, if_neg (by simp)]
  · refine .same ?_ ?_
    · cases hflag : flag (t i) with
      | false => rfl
      | true => exact absurd (h.marked i hflag).2 hown
    · exact filter_of_ne hown

/-- A record can be erased exactly when it does not own the resource. -/
theorem Held.erase_iff (h : Held used key flag t owner) (hd : Directory.Distinct used key t)
    (hi : used (t i) = true) (hused : used v = false) (hflag : flag v = false) :
    Held used key flag (Function.update t i v) owner ↔ owner ≠ some (key (t i)) := by
  refine ⟨fun h' hown => ?_, fun hne => h.update_other hflag fun _ => hne⟩
  obtain ⟨j, hj, hkey, -⟩ := h'.owner _ hown
  have hji : j ≠ i := by
    rintro rfl
    rw [Function.update_self, hused] at hj
    cases hj
  rw [Function.update_of_ne hji] at hj hkey
  exact hji (hd j i hj hi hkey)

/-- Without its record no one owns the resource. -/
theorem Held.ne_of_absent [DecidableEq κ] (h : Held used key flag t owner) {k : κ}
    (habsent : Directory.lookup used key t k = none) : owner ≠ some k := by
  intro hk
  obtain ⟨i, hi, hkey, -⟩ := h.owner k hk
  exact Directory.lookup_eq_none.mp habsent i hi hkey

end Ownership
