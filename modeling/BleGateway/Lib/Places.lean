import Mathlib.Data.List.Nodup

set_option autoImplicit false

/-! # Places in a filtered list

Where an element of a list is found after a filter has dropped some of the elements in front of
it: `place p l i` is the new place of the element at `i`.
-/

namespace Places

variable {α : Type}

/-- The number of elements in front of `i` that pass the filter. -/
def place (p : α → Bool) (l : List α) (i : Nat) : Nat := (l.take i).countP p

theorem filter_split (p : α → Bool) (l : List α) (i : Nat) :
    l.filter p = (l.take i).filter p ++ (l.drop i).filter p := by
  rw [← List.filter_append, List.take_append_drop]

variable {i : Nat} {l : List α} {p : α → Bool} {a : α} {q : α → Bool} {g : α → α}

theorem getElem?_filter (h : l[i]? = some a) (ha : p a = true) :
    (l.filter p)[place p l i]? = some a := by
  obtain ⟨hi, rfl⟩ := List.getElem?_eq_some_iff.mp h
  have hlen : place p l i = ((l.take i).filter p).length := List.countP_eq_length_filter
  rw [filter_split p l i, List.getElem?_append_right (by omega), List.drop_eq_getElem_cons hi,
    List.filter_cons_of_pos ha]
  simp [hlen]

/-- The first match stays the first one. -/
theorem findIdx?_filter (h : l.findIdx? q = some i) (hp : ∀ a, l[i]? = some a → p a = true) :
    (l.filter p).findIdx? q = some (place p l i) := by
  obtain ⟨hi, hq, hbefore⟩ := List.findIdx?_eq_some_iff_getElem.mp h
  have hlen : place p l i = ((l.take i).filter p).length := List.countP_eq_length_filter
  have hnone : ((l.take i).filter p).findIdx? q = none := by
    rw [List.findIdx?_eq_none_iff]
    intro a ha
    obtain ⟨j, hj⟩ := List.mem_iff_getElem?.mp (List.mem_of_mem_filter ha)
    obtain ⟨hlt, rfl⟩ := List.getElem?_eq_some_iff.mp hj
    rw [List.length_take] at hlt
    simpa using hbefore j (by omega)
  rw [filter_split p l i, List.findIdx?_append, hnone, List.drop_eq_getElem_cons hi,
    List.filter_cons_of_pos (hp _ (List.getElem?_eq_getElem hi)), List.findIdx?_cons, hq]
  simp [hlen]

/-- A search for elements that all pass the filter. -/
theorem findIdx?_filter_eq (h : ∀ a ∈ l, q a = true → p a = true) :
    (l.filter p).findIdx? q = (l.findIdx? q).map (place p l) := by
  cases hfind : l.findIdx? q with
  | none =>
      rw [List.findIdx?_eq_none_iff] at hfind
      rw [Option.map_none, List.findIdx?_eq_none_iff]
      exact fun a ha => hfind a (List.mem_of_mem_filter ha)
  | some i =>
      obtain ⟨hi, hq, -⟩ := List.findIdx?_eq_some_iff_getElem.mp hfind
      apply findIdx?_filter hfind
      intro a ha
      obtain rfl := Option.some.inj ((List.getElem?_eq_getElem hi).symm.trans ha)
      exact h _ (List.getElem_mem hi) hq

/-! ## Changing one element -/

/-- A change that the search does not see does not move the first match. -/
theorem findIdx?_modify (h : ∀ a, l[i]? = some a → q (g a) = q a) :
    (l.modify i g).findIdx? q = l.findIdx? q := by
  induction l generalizing i with
  | nil => simp
  | cons a l ih =>
      cases i with
      | zero => rw [List.modify_zero_cons, List.findIdx?_cons, List.findIdx?_cons, h a rfl]
      | succ i => rw [List.modify_succ_cons, List.findIdx?_cons, List.findIdx?_cons, ih h]

/-- A change of an element that passes the filter before and after it. -/
theorem filter_modify (h : l[i]? = some a) (ha : p a = true) (hg : p (g a) = true) :
    (l.modify i g).filter p = (l.filter p).modify (place p l i) g := by
  induction l generalizing i with
  | nil => cases h
  | cons x l ih =>
      cases i with
      | zero =>
          cases h
          rw [List.modify_zero_cons, List.filter_cons_of_pos hg, List.filter_cons_of_pos ha]
          rfl
      | succ i =>
          have hrest := ih (i := i) h
          rw [List.modify_succ_cons]
          by_cases hx : p x = true
          · have hplace : place p (x :: l) (i + 1) = place p l i + 1 := by simp [place, hx]
            rw [List.filter_cons_of_pos hx, List.filter_cons_of_pos hx, hplace,
              List.modify_succ_cons, hrest]
          · have hplace : place p (x :: l) (i + 1) = place p l i := by simp [place, hx]
            rw [List.filter_cons_of_neg hx, List.filter_cons_of_neg hx, hplace, hrest]

/-- A change of an element that the filter drops before and after it. -/
theorem filter_modify_of_not (h : ∀ a, l[i]? = some a → p a = false ∧ p (g a) = false) :
    (l.modify i g).filter p = l.filter p := by
  induction l generalizing i with
  | nil => simp
  | cons x l ih =>
      cases i with
      | zero =>
          obtain ⟨hx, hg⟩ := h x rfl
          rw [List.modify_zero_cons, List.filter_cons_of_neg (by simp [hg]),
            List.filter_cons_of_neg (by simp [hx])]
      | succ i => rw [List.modify_succ_cons, List.filter_cons, List.filter_cons, ih h]

/-- An element is found by its key where the keys are distinct. -/
theorem find?_key {β : Type} [DecidableEq β] {key : α → β} (h : (l.map key).Nodup) (ha : a ∈ l) :
    (l.find? fun y => key y = key a) = some a := by
  cases hfind : l.find? fun y => key y = key a with
  | none => exact absurd (decide_eq_true rfl) (List.find?_eq_none.mp hfind a ha)
  | some y =>
      have hkey : key y = key a := by simpa using List.find?_some hfind
      rw [List.inj_on_of_nodup_map h (List.mem_of_find?_eq_some hfind) ha hkey]

end Places
