import Mathlib.Data.List.Basic

set_option autoImplicit false

/-! # Work stamped with an epoch

Work that is done later carries the epoch in which it was accepted. A resource has at most one owner
at a time, and its epoch grows whenever the owner gives it up, perhaps at other times too. Then work
that bears the present epoch was accepted for the present owner.
-/

namespace Epoch

variable {ι : Type}

/-- Work accepted in `epoch` for the owner `origin`. -/
structure Stamp (ι : Type) where
  epoch : Nat
  origin : ι
  deriving DecidableEq

/-- No stamp is from the future, and those of the present epoch are the owner's. -/
def Stamped (now : Nat) (owner : Option ι) (works : List (Stamp ι)) : Prop :=
  ∀ w ∈ works, w.epoch ≤ now ∧ (w.epoch = now → owner = some w.origin)

variable {now : Nat} {owner : Option ι} {works works' : List (Stamp ι)}

theorem Stamped.nil : Stamped now owner ([] : List (Stamp ι)) := by
  intro w hw
  cases hw

/-- Work may be dropped, moved and repeated. -/
theorem Stamped.subset (h : Stamped now owner works) (hsub : works' ⊆ works) :
    Stamped now owner works' := fun w hw => h w (hsub hw)

/-- **A new epoch** makes all work stale, whoever the next owner is. -/
theorem Stamped.advance (h : Stamped now owner works) (owner' : Option ι) :
    Stamped (now + 1) owner' works := by
  intro w hw
  have hle := (h w hw).1
  exact ⟨by omega, fun heq => by omega⟩

/-- Without an owner no work bears the present epoch, so a new owner finds none. -/
theorem Stamped.acquire (h : Stamped now none works) (owner' : Option ι) :
    Stamped now owner' works := by
  intro w hw
  refine ⟨(h w hw).1, fun heq => ?_⟩
  cases (h w hw).2 heq

theorem Stamped.owned (h : Stamped now owner works) {w : Stamp ι} (hw : w ∈ works)
    (hnow : w.epoch = now) : owner = some w.origin := (h w hw).2 hnow

end Epoch
