import Mathlib.Data.List.Basic

set_option autoImplicit false

/-! # Interrupted sequences of calls

A program changes a store by a sequence of calls, each atomic and durable when it returns. It
stops at the first call that fails, except that the failure of some calls is ignored. `Done`
are the states in which the whole sequence can end, `Cut` those in which it can be when the
power is lost or a call fails.
-/

namespace Crash

variable {σ κ : Type}

/-- What a call does when it succeeds, and whether its failure is ignored. -/
structure Storage (σ κ : Type) where
  apply : κ → σ → σ
  ignored : κ → Bool

variable (S : Storage σ κ)

/-- The sequence runs from the first state to the second, all calls succeeding but for
ignored ones. -/
inductive Done : List κ → σ → σ → Prop
  | nil (s : σ) : Done [] s s
  | call {c : κ} {cs : List κ} {s s' : σ} : Done cs (S.apply c s) s' → Done (c :: cs) s s'
  | skip {c : κ} {cs : List κ} {s s' : σ} :
      S.ignored c = true → Done cs s s' → Done (c :: cs) s s'

/-- The sequence is interrupted in the second state, before, between or after its calls. -/
inductive Cut : List κ → σ → σ → Prop
  | stop (cs : List κ) (s : σ) : Cut cs s s
  | call {c : κ} {cs : List κ} {s s' : σ} : Cut cs (S.apply c s) s' → Cut (c :: cs) s s'
  | skip {c : κ} {cs : List κ} {s s' : σ} :
      S.ignored c = true → Cut cs s s' → Cut (c :: cs) s s'

/-- Perform all calls. -/
def applyAll (cs : List κ) (s : σ) : σ := cs.foldl (fun s c => S.apply c s) s

variable {S}

@[simp] theorem applyAll_nil (s : σ) : applyAll S [] s = s := rfl

@[simp] theorem applyAll_cons (c : κ) (cs : List κ) (s : σ) :
    applyAll S (c :: cs) s = applyAll S cs (S.apply c s) := rfl

theorem applyAll_append (as bs : List κ) (s : σ) :
    applyAll S (as ++ bs) s = applyAll S bs (applyAll S as s) := List.foldl_append

theorem Done.cut {cs : List κ} {s s' : σ} (h : Done S cs s s') : Cut S cs s s' := by
  induction h with
  | nil s => exact .stop [] s
  | call _ ih => exact .call ih
  | skip hc _ ih => exact .skip hc ih

/-- A sequence can be cut after any first part of it. -/
theorem Cut.after (as bs : List κ) (s : σ) : Cut S (as ++ bs) s (applyAll S as s) := by
  induction as generalizing s with
  | nil => exact .stop bs s
  | cons c as ih => exact .call (ih _)

/-- A cut lies in the first part of a sequence, or the first part is done. -/
theorem Cut.append {as bs : List κ} {s s' : σ} (h : Cut S (as ++ bs) s s') :
    Cut S as s s' ∨ ∃ t, Done S as s t ∧ Cut S bs t s' := by
  induction as generalizing s with
  | nil => exact Or.inr ⟨s, .nil s, h⟩
  | cons c as ih =>
      cases h with
      | stop => exact Or.inl (.stop _ _)
      | call h =>
          rcases ih h with hcut | ⟨t, hdone, hcut⟩
          · exact Or.inl (.call hcut)
          · exact Or.inr ⟨t, .call hdone, hcut⟩
      | skip hc h =>
          rcases ih h with hcut | ⟨t, hdone, hcut⟩
          · exact Or.inl (.skip hc hcut)
          · exact Or.inr ⟨t, .skip hc hdone, hcut⟩

/-- In front of a call whose failure is not ignored, or behind it. -/
theorem Cut.cons {c : κ} {cs : List κ} {s s' : σ} (hc : S.ignored c = false)
    (h : Cut S (c :: cs) s s') : s' = s ∨ Cut S cs (S.apply c s) s' := by
  cases h with
  | stop => exact Or.inl rfl
  | call h => exact Or.inr h
  | skip hs h => exact absurd (hs.symm.trans hc) (by simp)

/-- **The invariant rule.** What every call of the sequence keeps holds wherever it is cut. -/
theorem Cut.invariant {P : σ → Prop} {cs : List κ} (hcall : ∀ c ∈ cs, ∀ s, P s → P (S.apply c s))
    {s s' : σ} (hs : P s) (h : Cut S cs s s') : P s' := by
  induction h with
  | stop => exact hs
  | call _ ih =>
      exact ih (fun c hc => hcall c (List.mem_cons_of_mem _ hc)) (hcall _ List.mem_cons_self _ hs)
  | skip _ _ ih => exact ih (fun c hc => hcall c (List.mem_cons_of_mem _ hc)) hs

/-- What a call that is not ignored brings about, and no call undoes, holds at the end. -/
theorem Done.established {P : σ → Prop} {c : κ} (hset : ∀ s, P (S.apply c s))
    (hfails : S.ignored c = false) {cs : List κ} (hc : c ∈ cs)
    (hkeep : ∀ c ∈ cs, ∀ s, P s → P (S.apply c s)) {s s' : σ} (h : Done S cs s s') : P s' := by
  induction h with
  | nil => cases hc
  | call hdone ih =>
      have hrest := fun c hc => hkeep c (List.mem_cons_of_mem _ hc)
      rcases List.mem_cons.mp hc with rfl | hc
      · exact hdone.cut.invariant hrest (hset _)
      · exact ih hc hrest
  | skip hskip _ ih =>
      rcases List.mem_cons.mp hc with rfl | hc
      · exact absurd (hskip.symm.trans hfails) (by simp)
      · exact ih hc fun c hc => hkeep c (List.mem_cons_of_mem _ hc)

/-- A sequence in front of whose cuts the store reads as before, or as after it. -/
def Atomic {ρ : Type} (S : Storage σ κ) (read : σ → Option ρ) (cs : List κ) (s : σ)
    (before after : ρ) : Prop :=
  ∀ s', Cut S cs s s' → read s' = some before ∨ read s' = some after

end Crash
