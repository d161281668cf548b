import Mathlib.Data.Nat.Basic

set_option autoImplicit false

/-! # Progress along an infinite run

An infinite run is a sequence of states. A goal is reached when each state before it has a successor
that is nearer, for a distance in the natural numbers; an invariant may be given up at the goal.
-/

namespace Progress

variable {σ : Type}

/-- **The variant rule.** From a state with `I` on, each step reaches the goal or keeps `I` and
comes nearer. -/
theorem leads (run : Nat → σ) (I goal : σ → Prop) (distance : σ → Nat) {k : Nat} (h₀ : I (run k))
    (hstep : ∀ j ≥ k, I (run j) → goal (run j) ∨
      I (run (j + 1)) ∧ distance (run (j + 1)) < distance (run j)) :
    ∃ j ≥ k, I (run j) ∧ goal (run j) := by
  -- by induction on the distance that is left
  generalize hd : distance (run k) = d
  induction d using Nat.strongRecOn generalizing k with
  | ind d ih =>
      rcases hstep k (Nat.le_refl k) h₀ with hgoal | ⟨hnext, hlt⟩
      · exact ⟨k, Nat.le_refl k, h₀, hgoal⟩
      · obtain ⟨j, hj, hI, hgoal⟩ := ih _ (hd ▸ hlt) hnext
          (fun j hj => hstep j (Nat.le_of_succ_le hj)) rfl
        exact ⟨j, Nat.le_of_succ_le hj, hI, hgoal⟩

/-- What every step keeps holds from the state on where it holds. -/
theorem stays (run : Nat → σ) (I : σ → Prop) {k : Nat} (h₀ : I (run k))
    (hstep : ∀ j ≥ k, I (run j) → I (run (j + 1))) : ∀ j ≥ k, I (run j) := by
  intro j hj
  induction j, hj using Nat.le_induction with
  | base => exact h₀
  | succ j hj ih => exact hstep j hj ih

end Progress
