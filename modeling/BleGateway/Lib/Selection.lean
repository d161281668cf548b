import Mathlib.Data.List.MinMax
import Mathlib.Data.List.Pairwise

set_option autoImplicit false

/-! # Choosing the first best element of a list

A selection loop that keeps the best element so far, and the earlier one of two equals, is
`List.argmin`. When the list is laid out along a relation `R`, the chosen element is the
`R`-first among its equals.
-/

namespace Selection

variable {α : Type}

/-- In front of the chosen element everything is strictly worse. -/
theorem argmin_split {f : α → Nat} {l : List α} {m : α} (h : l.argmin f = some m) :
    ∃ l₁ l₂, l = l₁ ++ m :: l₂ ∧ ∀ a ∈ l₁, f m < f a := by
  induction l using List.reverseRecOn generalizing m with
  | nil => simp at h
  | append_singleton l b ih =>
      rw [List.argmin_concat] at h
      cases hl : l.argmin f with
      | none =>
          rw [hl] at h
          obtain rfl : b = m := by simpa using h
          have hnil : l = [] := List.argmin_eq_none.mp hl
          exact ⟨[], [], by simp [hnil], by simp⟩
      | some c =>
          rw [hl] at h
          obtain ⟨l₁, l₂, hsplit, hlt⟩ := ih hl
          by_cases hb : f b < f c
          · obtain rfl : b = m := by simpa [hb] using h
            refine ⟨l, [], by simp, fun a ha => ?_⟩
            exact lt_of_lt_of_le hb (List.le_of_mem_argmin ha hl)
          · obtain rfl : c = m := by simpa [hb] using h
            exact ⟨l₁, l₂ ++ [b], by simp [hsplit], hlt⟩

/-- The chosen element is in relation `R` to every other element that is as good. -/
theorem rel_of_argmin {R : α → α → Prop} {f : α → Nat} {l : List α} {m a : α}
    (hR : l.Pairwise R) (h : l.argmin f = some m) (ha : a ∈ l) (hle : f a ≤ f m) :
    a = m ∨ R m a := by
  obtain ⟨l₁, l₂, rfl, hlt⟩ := argmin_split h
  rw [List.pairwise_append] at hR
  rcases List.mem_append.mp ha with ha | ha
  · exact absurd hle (Nat.not_le.mpr (hlt a ha))
  · rcases List.mem_cons.mp ha with rfl | ha
    · exact Or.inl rfl
    · exact Or.inr ((List.pairwise_cons.mp hR.2.1).1 a ha)

/-- A selection over the elements of nested loops, with tests on the way in, is a selection
over the list of the elements that pass. -/
theorem foldl_nested {β γ : Type} (step : γ → α → γ) (outer : β → Bool) (inner : β → α → Bool)
    (l : List β) (k : List α) (z : γ) :
    l.foldl (fun acc b =>
        if outer b then k.foldl (fun acc a => if inner b a then step acc a else acc) acc
        else acc) z
      = (l.flatMap fun b => if outer b then k.filter (inner b) else []).foldl step z := by
  rw [List.foldl_flatMap]
  congr 1
  funext acc b
  by_cases hb : outer b
  · simp [hb, List.foldl_filter]
  · simp [hb]

end Selection
