import Mathlib.Data.List.Basic
import Mathlib.Logic.Function.Basic

set_option autoImplicit false

/-! # Spans of a shared array

Several owners keep their elements in one array, each in a span of its own: a start and a number of
elements. A new element goes in right behind the span of its owner, or to the end of the array when
the owner has none yet, and the spans behind that place move by one. The spans then stay apart,
cover the array, and hold what their owners put in.
-/

namespace Spans

variable {α ι : Type} {cells : List α} {v : α} {p start count : Nat}

/-- The elements of a span. -/
def segment (cells : List α) (start count : Nat) : List α := (cells.drop start).take count

/-- The array with a new element at place `p`. -/
def insertAt (cells : List α) (p : Nat) (v : α) : List α := cells.take p ++ v :: cells.drop p

theorem segment_zero : segment cells start 0 = [] := List.take_zero

theorem length_insertAt : (insertAt cells p v).length = cells.length + 1 := by
  have hsplit := congrArg List.length (List.take_append_drop p cells)
  rw [List.length_append] at hsplit
  rw [insertAt, List.length_append, List.length_cons]
  omega

/-- At the end, the new element is appended. -/
theorem insertAt_length : insertAt cells cells.length v = cells ++ [v] := by
  rw [insertAt, List.take_length, List.drop_length]

/-- A span in front of the new element. -/
theorem segment_insertAt_front (hp : p ≤ cells.length) (h : start + count ≤ p) :
    segment (insertAt cells p v) start count = segment cells start count := by
  have hlen : (cells.take p).length = p := List.length_take_of_le hp
  have hroom : count ≤ ((cells.take p).drop start).length := by
    rw [List.length_drop, hlen]
    omega
  calc segment (insertAt cells p v) start count
      = ((cells.take p).drop start).take count := by
        rw [segment, insertAt, List.drop_append_of_le_length (by omega),
          List.take_append_of_le_length hroom]
    _ = segment cells start count := by
        rw [segment, List.drop_take, List.take_take]
        congr 1
        omega

/-- A span behind it. -/
theorem segment_insertAt_behind (hp : p ≤ cells.length) (h : p ≤ start) :
    segment (insertAt cells p v) (start + 1) count = segment cells start count := by
  have hlen : (cells.take p).length = p := List.length_take_of_le hp
  have hfront : (cells.take p).drop (start + 1) = [] := List.drop_eq_nil_of_le (by omega)
  have hskip : start + 1 - p = (start - p) + 1 := by omega
  have hplace : p + (start - p) = start := by omega
  rw [segment, insertAt, List.drop_append, hfront, List.nil_append, hlen, hskip,
    List.drop_succ_cons, List.drop_drop, hplace]
  rfl

/-- The span that the new element joins. -/
theorem segment_insertAt_join (hp : p ≤ cells.length) (h : start + count = p) :
    segment (insertAt cells p v) start (count + 1) = segment cells start count ++ [v] := by
  have hlen : (cells.take p).length = p := List.length_take_of_le hp
  have hfront : (cells.take p).drop start = segment cells start count := by
    rw [segment, List.drop_take]
    congr 1
    omega
  have hcount : (segment cells start count).length = count := by
    rw [← hfront, List.length_drop, hlen]
    omega
  rw [segment, insertAt, List.drop_append_of_le_length (by omega), hfront]
  rw [List.take_append, hcount, List.take_of_length_le (by omega), Nat.add_sub_cancel_left]
  rfl

/-! ## Tilings -/

/-- The spans lie in the array, apart from each other, and cover it. -/
structure Tiling (cells : List α) (start count : ι → Nat) : Prop where
  within : ∀ k, start k + count k ≤ cells.length
  apart : ∀ j k, j ≠ k → 0 < count j → 0 < count k →
    start j + count j ≤ start k ∨ start k + count k ≤ start j
  covered : ∀ q, q < cells.length → ∃ k, start k ≤ q ∧ q < start k + count k

/-- The place for a new element of `k`. -/
def place (cells : List α) (start count : ι → Nat) (k : ι) : Nat :=
  if count k = 0 then cells.length else start k + count k

/-- `start'` and `count'` are the spans after a new element of `k`. -/
structure Grown [DecidableEq ι] (cells : List α) (start count : ι → Nat) (k : ι)
    (start' count' : ι → Nat) : Prop where
  added : count' = Function.update count k (count k + 1)
  start_self : start' k = if count k = 0 then cells.length else start k
  start_other : ∀ j, j ≠ k → start' j =
    if 0 < count j ∧ place cells start count k ≤ start j then start j + 1 else start j

theorem Tiling.place_le {start count : ι → Nat} (h : Tiling cells start count) (k : ι) :
    place cells start count k ≤ cells.length := by
  rw [place]
  split
  · exact Nat.le_refl _
  · exact h.within k

theorem Tiling.nil {start count : ι → Nat} (hstart : ∀ k, start k = 0) (hcount : ∀ k, count k = 0) :
    Tiling ([] : List α) start count := by
  refine ⟨fun k => ?_, fun j k _ hj _ => ?_, fun q hq => ?_⟩
  · rw [hstart k, hcount k]
    exact Nat.le_refl 0
  · rw [hcount j] at hj
    exact absurd hj (Nat.lt_irrefl 0)
  · exact absurd hq (Nat.not_lt_zero q)

/-- A span without elements may start anywhere. -/
theorem Tiling.restart {start start' count : ι → Nat} (h : Tiling cells start count)
    (hstart : ∀ k, start' k = start k ∨ count k = 0 ∧ start' k ≤ cells.length) :
    Tiling cells start' count := by
  have hfull : ∀ k, 0 < count k → start' k = start k := by
    intro k hk
    rcases hstart k with hsame | ⟨hempty, -⟩
    · exact hsame
    · omega
  refine ⟨fun k => ?_, fun j k hne hj hk => ?_, fun q hq => ?_⟩
  · have hwithin := h.within k
    have hk := hstart k
    omega
  · rw [hfull j hj, hfull k hk]
    exact h.apart j k hne hj hk
  · obtain ⟨k, hlo, hhi⟩ := h.covered q hq
    have hk := hfull k (by omega)
    exact ⟨k, by omega, by omega⟩

theorem segment_restart {start start' count : ι → Nat}
    (hstart : ∀ k, start' k = start k ∨ count k = 0 ∧ start' k ≤ cells.length) (k : ι) :
    segment cells (start' k) (count k) = segment cells (start k) (count k) := by
  rcases hstart k with hsame | ⟨hempty, -⟩
  · rw [hsame]
  · rw [hempty, segment_zero, segment_zero]

section Growth

variable [DecidableEq ι] {start count start' count' : ι → Nat} {k : ι}

theorem Grown.count_self (g : Grown cells start count k start' count') :
    count' k = count k + 1 := by
  rw [g.added, Function.update_self]

theorem Grown.count_other (g : Grown cells start count k start' count') {j : ι} (hj : j ≠ k) :
    count' j = count j := by
  rw [g.added, Function.update_of_ne hj]

/-- The new element is the last one of its owner. -/
theorem Grown.end_self (g : Grown cells start count k start' count') :
    start' k + count k = place cells start count k := by
  rw [g.start_self, place]
  split
  · omega
  · rfl

/-- Another span stays in front of the new element, or moves by one behind it. -/
theorem Grown.other_cases (h : Tiling cells start count)
    (g : Grown cells start count k start' count') {j : ι} (hj : j ≠ k) (hcount : 0 < count j) :
    start' j = start j ∧ start j + count j ≤ place cells start count k ∨
      start' j = start j + 1 ∧ place cells start count k ≤ start j := by
  have hother := g.start_other j hj
  have hwithin := h.within j
  by_cases hbehind : place cells start count k ≤ start j
  · rw [if_pos ⟨hcount, hbehind⟩] at hother
    exact Or.inr ⟨hother, hbehind⟩
  · rw [if_neg fun hshift => hbehind hshift.2] at hother
    refine Or.inl ⟨hother, ?_⟩
    rw [place] at hbehind ⊢
    split at hbehind
    · rename_i hempty
      rw [if_pos hempty]
      exact hwithin
    · rename_i hfull
      rw [if_neg hfull]
      have happart := h.apart j k hj hcount (Nat.pos_of_ne_zero hfull)
      omega

theorem Tiling.grow (h : Tiling cells start count)
    (g : Grown cells start count k start' count') :
    Tiling (insertAt cells (place cells start count k) v) start' count' := by
  have hself := g.count_self
  have hend := g.end_self
  have hplace := h.place_le k
  have hfirst : place cells start count k = start k + count k ∨ count k = 0 := by
    rw [place]
    by_cases hempty : count k = 0
    · exact Or.inr hempty
    · exact Or.inl (if_neg hempty)
  refine ⟨fun j => ?_, fun i j hne hi hj => ?_, fun q hq => ?_⟩
  · rw [length_insertAt]
    by_cases hj : j = k
    · subst hj
      omega
    · have hcount := g.count_other hj
      have hwithin := h.within j
      have hother := g.start_other j hj
      split at hother <;> omega
  · by_cases hik : i = k
    · subst hik
      have hcount := g.count_other hne.symm
      have hcases := g.other_cases h hne.symm (by omega)
      have happart := h.apart i j hne
      omega
    · have hcounti := g.count_other hik
      have hcasesi := g.other_cases h hik (by omega)
      by_cases hjk : j = k
      · subst hjk
        have happart := h.apart i j hne
        omega
      · have hcountj := g.count_other hjk
        have hcasesj := g.other_cases h hjk (by omega)
        have happart := h.apart i j hne (by omega) (by omega)
        omega
  · rw [length_insertAt] at hq
    rcases Nat.lt_trichotomy q (place cells start count k) with hlt | heq | hgt
    · -- an old place in front of the new one
      obtain ⟨j, hlo, hhi⟩ := h.covered q (by omega)
      refine ⟨j, ?_⟩
      by_cases hj : j = k
      · subst hj
        have hstart := g.start_self
        rw [if_neg (by omega)] at hstart
        omega
      · have hcount := g.count_other hj
        have hcases := g.other_cases h hj (by omega)
        omega
    · exact ⟨k, by omega, by omega⟩
    · -- an old place that has moved
      obtain ⟨j, hlo, hhi⟩ := h.covered (q - 1) (by omega)
      refine ⟨j, ?_⟩
      by_cases hj : j = k
      · subst hj
        omega
      · have hcount := g.count_other hj
        have hcases := g.other_cases h hj (by omega)
        omega

theorem segment_grow_self (h : Tiling cells start count)
    (g : Grown cells start count k start' count') :
    segment (insertAt cells (place cells start count k) v) (start' k) (count' k) =
      segment cells (start k) (count k) ++ [v] := by
  have hold : segment cells (start' k) (count k) = segment cells (start k) (count k) := by
    rw [g.start_self]
    split
    · rename_i hempty
      rw [hempty, segment_zero, segment_zero]
    · rfl
  rw [g.count_self, segment_insertAt_join (h.place_le k) g.end_self, hold]

theorem segment_grow_other (h : Tiling cells start count)
    (g : Grown cells start count k start' count') {j : ι} (hj : j ≠ k) :
    segment (insertAt cells (place cells start count k) v) (start' j) (count' j) =
      segment cells (start j) (count j) := by
  rw [g.count_other hj]
  by_cases hempty : count j = 0
  · rw [hempty, segment_zero, segment_zero]
  · rcases g.other_cases h hj (Nat.pos_of_ne_zero hempty) with ⟨hstart, hfront⟩ | ⟨hstart, hbehind⟩
    · rw [hstart]
      exact segment_insertAt_front (h.place_le k) hfront
    · rw [hstart]
      exact segment_insertAt_behind (h.place_le k) hbehind

end Growth

end Spans
