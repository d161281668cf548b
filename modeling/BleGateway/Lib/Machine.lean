import Mathlib.Data.List.Basic
import Mathlib.Data.List.Induction

set_option autoImplicit false

/-! # Labelled machines and their runs

A machine has initial states and a partial step function: `step s ℓ` is `none` where the
label `ℓ` is not enabled in `s`. A label carries everything the environment decides, so a
step is a function and a run is a list of labels. `ReachableWhen ok` are the states of the
runs whose every step meets the condition `ok` on the state it starts from. The induction
over runs is done here once: a machine's invariant is a fact about its initial states and
about one step.
-/

/-- A machine with states `σ` and labels `ℓ`. -/
structure Machine (σ ℓ : Type) where
  init : σ → Prop
  step : σ → ℓ → Option σ

namespace Machine

variable {σ ℓ : Type} (M : Machine σ ℓ)

/-- The states of the runs of `M` all of whose steps meet `ok`. -/
inductive ReachableWhen (ok : σ → ℓ → Prop) : σ → Prop
  | init {s : σ} : M.init s → ReachableWhen ok s
  | step {s s' : σ} {l : ℓ} :
      ReachableWhen ok s → ok s l → M.step s l = some s' → ReachableWhen ok s'

/-- The states of all runs of `M`. -/
def Reachable (s : σ) : Prop := M.ReachableWhen (fun _ _ => True) s

variable {M}

theorem ReachableWhen.mono {ok ok' : σ → ℓ → Prop} (h : ∀ s l, ok s l → ok' s l) {s : σ}
    (hs : M.ReachableWhen ok s) : M.ReachableWhen ok' s := by
  induction hs with
  | init h0 => exact .init h0
  | step _ hok hstep ih => exact .step ih (h _ _ hok) hstep

theorem ReachableWhen.reachable {ok : σ → ℓ → Prop} {s : σ} (hs : M.ReachableWhen ok s) :
    M.Reachable s :=
  hs.mono fun _ _ _ => trivial

/-- **The invariant rule.** A property of the initial states that every admitted step keeps
holds in every state such runs reach. -/
theorem ReachableWhen.invariant {ok : σ → ℓ → Prop} {I : σ → Prop}
    (h0 : ∀ s, M.init s → I s)
    (hstep : ∀ s l s', I s → ok s l → M.step s l = some s' → I s')
    {s : σ} (hs : M.ReachableWhen ok s) : I s := by
  induction hs with
  | init h => exact h0 _ h
  | step _ hok h ih => exact hstep _ _ _ ih hok h

theorem Reachable.invariant {I : σ → Prop} (h0 : ∀ s, M.init s → I s)
    (hstep : ∀ s l s', I s → M.step s l = some s' → I s') {s : σ} (hs : M.Reachable s) : I s :=
  ReachableWhen.invariant h0 (fun s l s' hI _ h => hstep s l s' hI h) hs

theorem Reachable.step {s s' : σ} {l : ℓ} (hs : M.Reachable s) (h : M.step s l = some s') :
    M.Reachable s' :=
  ReachableWhen.step hs trivial h

/-! ## Stretches of a run -/

/-- The states a run goes on to from `s`, while its steps meet `ok` and keep `same`. -/
inductive Continues (M : Machine σ ℓ) (ok : σ → ℓ → Prop) (same : σ → σ → Prop) (s : σ) : σ → Prop
  | refl : Continues M ok same s s
  | step {t u : σ} {l : ℓ} : Continues M ok same s t → ok t l → M.step t l = some u → same t u →
      Continues M ok same s u

/-- A preorder that every admitted step respects relates the ends of a stretch. -/
theorem Continues.relates {ok : σ → ℓ → Prop} {same R : σ → σ → Prop} (hrefl : ∀ s, R s s)
    (htrans : ∀ s t u, R s t → R t u → R s u)
    (hstep : ∀ s l t, ok s l → M.step s l = some t → same s t → R s t) {s t : σ}
    (h : M.Continues ok same s t) : R s t := by
  induction h with
  | refl => exact hrefl s
  | step _ hok hs hsame ih => exact htrans _ _ _ ih (hstep _ _ _ hok hs hsame)

/-! ## Executing a list of labels -/

variable (M)

/-- Perform the labels of a list in order. -/
def run : σ → List ℓ → Option σ
  | s, [] => some s
  | s, l :: ls => (M.step s l).bind (run · ls)

/-- Perform the labels of a list in order as long as each meets `ok`. -/
def runWhen (ok : σ → ℓ → Prop) [∀ s l, Decidable (ok s l)] : σ → List ℓ → Option σ
  | s, [] => some s
  | s, l :: ls => if ok s l then (M.step s l).bind (runWhen ok · ls) else none

variable {M}

theorem reachableWhen_of_run {ok : σ → ℓ → Prop} [∀ s l, Decidable (ok s l)] {ls : List ℓ}
    {s s' : σ} (hs : M.ReachableWhen ok s) (h : M.runWhen ok s ls = some s') :
    M.ReachableWhen ok s' := by
  induction ls generalizing s with
  | nil =>
      simp only [runWhen, Option.some.injEq] at h
      exact h ▸ hs
  | cons l ls ih =>
      simp only [runWhen] at h
      split at h
      · rename_i hok
        obtain ⟨s₁, h₁, h₂⟩ := Option.bind_eq_some_iff.mp h
        exact ih (.step hs hok h₁) h₂
      · exact absurd h (by simp)

/-- What every step keeps, a run keeps. -/
theorem run_induction {I : σ → Prop} (hstep : ∀ s l s', I s → M.step s l = some s' → I s')
    {ls : List ℓ} {s s' : σ} (hs : I s) (h : M.run s ls = some s') : I s' := by
  induction ls generalizing s with
  | nil =>
      simp only [run, Option.some.injEq] at h
      exact h ▸ hs
  | cons l ls ih =>
      simp only [run, Option.bind_eq_some_iff] at h
      obtain ⟨s₁, h₁, h₂⟩ := h
      exact ih (hstep _ _ _ hs h₁) h₂

theorem reachable_of_run {ls : List ℓ} {s s' : σ} (hs : M.Reachable s)
    (h : M.run s ls = some s') : M.Reachable s' :=
  run_induction (fun _ _ _ hs h => hs.step h) hs h

theorem run_append (s : σ) (ks ls : List ℓ) :
    M.run s (ks ++ ls) = (M.run s ks).bind (M.run · ls) := by
  induction ks generalizing s with
  | nil => rfl
  | cons k ks ih => cases h : M.step s k <;> simp [run, h, ih]

theorem run_concat (s : σ) (ls : List ℓ) (l : ℓ) :
    M.run s (ls ++ [l]) = (M.run s ls).bind (M.step · l) := by
  rw [run_append]
  refine Option.bind_congr fun t _ => ?_
  cases h : M.step t l <;> simp [run, h]

/-- Along a list of labels a property is kept exactly when every step is `ok` in the state it starts
from, if that is so of one step. -/
theorem run_keeps_iff {I P : σ → Prop} {ok : σ → ℓ → Prop}
    (hI : ∀ s l s', I s → M.step s l = some s' → I s')
    (hstep : ∀ s l, I s → P s → ((∃ s', M.step s l = some s' ∧ P s') ↔ ok s l))
    {s : σ} (hs : I s) (ls : List ℓ) :
    (∀ ks, ks <+: ls → ∃ s', M.run s ks = some s' ∧ P s') ↔
      P s ∧ ∀ ks l s', ks ++ [l] <+: ls → M.run s ks = some s' → ok s' l := by
  constructor
  · intro h
    obtain ⟨s₀, hs₀, hP⟩ := h [] (List.nil_prefix)
    cases hs₀
    refine ⟨hP, fun ks l s' hks hrun => ?_⟩
    obtain ⟨u, hu, hPu⟩ := h ks ((List.prefix_append ks [l]).trans hks)
    cases hrun.symm.trans hu
    obtain ⟨v, hv, hPv⟩ := h (ks ++ [l]) hks
    rw [run_concat, hrun] at hv
    exact (hstep s' l (run_induction hI hs hrun) hPu).mp ⟨v, hv, hPv⟩
  · rintro ⟨hP, hok⟩ ks
    induction ks using List.reverseRecOn with
    | nil => exact fun _ => ⟨s, rfl, hP⟩
    | append_singleton ks l ih =>
        intro hks
        obtain ⟨u, hu, hPu⟩ := ih ((List.prefix_append ks [l]).trans hks)
        obtain ⟨v, hv, hPv⟩ := (hstep u l (run_induction hI hs hu) hPu).mpr (hok ks l u hks hu)
        exact ⟨v, by rw [run_concat, hu]; exact hv, hPv⟩

theorem run_of_prefix {s t : σ} {ks ls : List ℓ} (h : M.run s ls = some t) (hks : ks <+: ls) :
    ∃ s', M.run s ks = some s' := by
  obtain ⟨rest, rfl⟩ := hks
  induction ks generalizing s with
  | nil => exact ⟨s, rfl⟩
  | cons k ks ih =>
      obtain ⟨s₁, h₁, h₂⟩ := Option.bind_eq_some_iff.mp h
      obtain ⟨s', hs'⟩ := ih h₂
      exact ⟨s', by rw [run, h₁]; exact hs'⟩

/-- Along a run a property holds at every point exactly when every step is `ok` in the state it
starts from, if that is so of one step. -/
theorem run_holds_iff {I P : σ → Prop} {ok : σ → ℓ → Prop}
    (hI : ∀ s l s', I s → M.step s l = some s' → I s')
    (hstep : ∀ s l s', I s → P s → M.step s l = some s' → (P s' ↔ ok s l))
    {s t : σ} {ls : List ℓ} (hs : I s) (hP : P s) (h : M.run s ls = some t) :
    (∀ ks s', ks <+: ls → M.run s ks = some s' → P s') ↔
      ∀ ks l s', ks ++ [l] <+: ls → M.run s ks = some s' → ok s' l := by
  constructor
  · intro hall ks l s' hks hrun
    have hPs := hall ks s' ((List.prefix_append ks [l]).trans hks) hrun
    obtain ⟨u, hu⟩ := run_of_prefix h hks
    have hPu := hall (ks ++ [l]) u hks hu
    rw [run_concat, hrun] at hu
    exact (hstep s' l u (run_induction hI hs hrun) hPs hu).mp hPu
  · intro hok ks
    induction ks using List.reverseRecOn with
    | nil =>
        intro s' _ hrun
        cases hrun
        exact hP
    | append_singleton ks l ih =>
        intro s' hks hrun
        have hks' := (List.prefix_append ks [l]).trans hks
        obtain ⟨u, hu⟩ := run_of_prefix h hks'
        have hPu := ih u hks' hu
        rw [run_concat, hu] at hrun
        exact (hstep u l s' (run_induction hI hs hu) hPu hrun).mpr (hok ks l u hks hu)

/-! ## What the steps put out -/

section Outputs

variable {ω : Type}

/-- What the steps of a list of labels put out, in order. -/
def outputs (M : Machine σ ℓ) (out : σ → ℓ → Option ω) : σ → List ℓ → List ω
  | _, [] => []
  | s, l :: ls => (M.step s l).elim [] fun t => (out s l).toList ++ outputs M out t ls

variable {out : σ → ℓ → Option ω} {s t u : σ} {ls : List ℓ} {l : ℓ}

theorem outputs_concat (h : M.run s ls = some t) (hl : M.step t l = some u) :
    M.outputs out s (ls ++ [l]) = M.outputs out s ls ++ (out t l).toList := by
  induction ls generalizing s with
  | nil =>
      cases h
      simp [outputs, hl]
  | cons k ks ih =>
      obtain ⟨s₁, h₁, h₂⟩ := Option.bind_eq_some_iff.mp h
      show (M.step s k).elim _ _ = (M.step s k).elim _ _ ++ _
      rw [h₁]
      show _ ++ M.outputs out s₁ (ks ++ [l]) = (_ ++ _) ++ _
      rw [ih h₂, List.append_assoc]

/-- **The rule for outputs.** What relates a state to the outputs on the way there, at the start and
after each step that is `ok` in the state it starts from, does so at the end. -/
theorem outputs_induction {I : σ → List ω → Prop} {ok : σ → ℓ → Prop}
    (hstep : ∀ t l u os, I t os → ok t l → M.step t l = some u → I u (os ++ (out t l).toList))
    (h0 : I s []) (h : M.run s ls = some t)
    (hok : ∀ ks l u, ks ++ [l] <+: ls → M.run s ks = some u → ok u l) :
    I t (M.outputs out s ls) := by
  induction ls using List.reverseRecOn generalizing t with
  | nil =>
      cases h
      exact h0
  | append_singleton ks l ih =>
      rw [run_concat] at h
      obtain ⟨u, hu, hl⟩ := Option.bind_eq_some_iff.mp h
      rw [outputs_concat hu hl]
      refine hstep u l t _ (ih hu fun js k v hjs hv => ?_) (hok ks l u List.prefix_rfl hu) hl
      exact hok js k v (hjs.trans (List.prefix_append ks [l])) hv

end Outputs

/-- A run under a condition meets it at every step. -/
theorem run_of_runWhen {ok : σ → ℓ → Prop} [∀ s l, Decidable (ok s l)] {ls : List ℓ} {s t : σ}
    (h : M.runWhen ok s ls = some t) :
    M.run s ls = some t ∧ ∀ ks l u, ks ++ [l] <+: ls → M.run s ks = some u → ok u l := by
  induction ls generalizing s with
  | nil => exact ⟨h, fun ks l u hks => absurd (List.prefix_nil.mp hks) (by simp)⟩
  | cons k ls ih =>
      rw [runWhen] at h
      split at h
      · rename_i hk
        obtain ⟨s₁, h₁, h₂⟩ := Option.bind_eq_some_iff.mp h
        obtain ⟨hrun, hall⟩ := ih h₂
        refine ⟨by rw [run, h₁]; exact hrun, fun ks l u hks hu => ?_⟩
        cases ks with
        | nil =>
            cases hu
            obtain rfl : l = k := (List.cons_prefix_cons.mp hks).1
            exact hk
        | cons j js =>
            obtain ⟨rfl, hjs⟩ := List.cons_prefix_cons.mp hks
            rw [run, h₁] at hu
            exact hall js l u hjs hu
      · cases h

/-- A run from an initial state that ends in a state passing the test `p` shows that a
reachable state passes it. -/
theorem exists_reachable_of_run {s₀ : σ} {ls : List ℓ} {p : σ → Bool} (h0 : M.init s₀)
    (h : (M.run s₀ ls).map p = some true) : ∃ s, M.Reachable s ∧ p s = true := by
  obtain ⟨s, hs, hp⟩ := Option.map_eq_some_iff.mp h
  exact ⟨s, reachable_of_run (.init h0) hs, hp⟩

theorem exists_reachableWhen_of_run {ok : σ → ℓ → Prop} [∀ s l, Decidable (ok s l)] {s₀ : σ}
    {ls : List ℓ} {p : σ → Bool} (h0 : M.init s₀)
    (h : (M.runWhen ok s₀ ls).map p = some true) : ∃ s, M.ReachableWhen ok s ∧ p s = true := by
  obtain ⟨s, hs, hp⟩ := Option.map_eq_some_iff.mp h
  exact ⟨s, reachableWhen_of_run (.init h0) hs, hp⟩

end Machine
