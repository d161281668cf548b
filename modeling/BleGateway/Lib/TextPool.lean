import Mathlib.Data.List.TakeWhile
import Mathlib.Data.List.Basic

set_option autoImplicit false

/-! # Pools of terminated texts

Texts stored one behind the other in a growing array, each followed by a terminator, and read
back from the offset at which they start. What stands at an offset stays there while the array
grows (`Reads.append`), so an offset handed out once is good for ever. In an array of fixed size a
text is copied behind those that stand there already (`overwrite`), which disturbs none of them.
-/

namespace TextPool

variable {α : Type} {z : α} {cells : List α} {off : Nat} {s : List α}

/-- The text that starts at `off`, up to the next terminator `z`. -/
def textAt [DecidableEq α] (z : α) (cells : List α) (off : Nat) : List α :=
  (cells.drop off).takeWhile fun c => decide (c ≠ z)

/-- The text `s` stands at `off`, with its terminator. -/
def Reads (z : α) (cells : List α) (off : Nat) (s : List α) : Prop :=
  z ∉ s ∧ ∃ front rest, cells = front ++ s ++ z :: rest ∧ front.length = off

theorem Reads.textAt [DecidableEq α] (h : Reads z cells off s) : textAt z cells off = s := by
  obtain ⟨hz, front, rest, rfl, rfl⟩ := h
  have hs : ∀ c ∈ s, decide (c ≠ z) = true := by
    intro c hc
    exact decide_eq_true fun he => hz (he ▸ hc)
  rw [TextPool.textAt, List.append_assoc, List.drop_left, List.takeWhile_append_of_pos hs,
    List.takeWhile_cons_of_neg (by simp), List.append_nil]

theorem Reads.lt (h : Reads z cells off s) : off < cells.length := by
  obtain ⟨_, front, rest, rfl, rfl⟩ := h
  simp only [List.length_append, List.length_cons]
  omega

/-- **Texts stay where they are** while the pool grows. -/
theorem Reads.append (h : Reads z cells off s) (more : List α) :
    Reads z (cells ++ more) off s := by
  obtain ⟨hz, front, rest, rfl, hoff⟩ := h
  exact ⟨hz, front, rest ++ more, by simp, hoff⟩

/-- A text that is appended with a terminator stands where the pool ended. -/
theorem reads_append (hz : z ∉ s) (cells rest : List α) :
    Reads z (cells ++ (s ++ z :: rest)) cells.length s :=
  ⟨hz, cells, rest, by simp, rfl⟩

/-! ## Copying into an array of fixed size -/

/-- The array after `s` was copied to the cells from `off` on. -/
def overwrite (cells : List α) (off : Nat) (s : List α) : List α :=
  cells.take off ++ s ++ cells.drop (off + s.length)

theorem length_overwrite (hfit : off + s.length ≤ cells.length) :
    (overwrite cells off s).length = cells.length := by
  simp only [overwrite, List.length_append, List.length_take, List.length_drop]
  omega

/-- **A text keeps its place** when a copy starts behind its terminator. -/
theorem Reads.overwrite {start : Nat} (h : Reads z cells off s) (hend : off + s.length < start)
    (copied : List α) : Reads z (overwrite cells start copied) off s := by
  obtain ⟨hz, front, rest, rfl, rfl⟩ := h
  -- the first `start` cells hold the text, its terminator and some of what follows
  obtain ⟨kept, htake⟩ : ∃ kept, (front ++ s ++ z :: rest).take start =
      front ++ s ++ z :: kept := by
    obtain ⟨k, hk⟩ := Nat.exists_eq_add_of_lt hend
    have hlong : (front ++ s).length ≤ start := by
      rw [List.length_append]
      omega
    have hsub : start - (front ++ s).length = k + 1 := by
      rw [List.length_append]
      omega
    refine ⟨rest.take k, ?_⟩
    rw [List.take_append, List.take_of_length_le hlong, hsub, List.take_succ_cons]
  refine ⟨hz, front, kept ++ (copied ++ (front ++ s ++ z :: rest).drop (start + copied.length)),
    ?_, rfl⟩
  rw [TextPool.overwrite, htake]
  simp only [List.append_assoc, List.cons_append]

/-- A text that is copied with its terminator stands where the copy starts. -/
theorem reads_overwrite (hz : z ∉ s) (hoff : off ≤ cells.length) :
    Reads z (overwrite cells off (s ++ [z])) off s := by
  refine ⟨hz, cells.take off, cells.drop (off + (s ++ [z]).length), ?_, ?_⟩
  · simp [overwrite]
  · rw [List.length_take]
    omega

end TextPool
