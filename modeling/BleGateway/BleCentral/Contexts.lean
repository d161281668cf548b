import BleGateway.BleCentral.Holders

/-! # The callback contexts

A context in use has exactly one holder and becomes free when its holder is gone. The CONNECT
event of a failed attempt breaks this: with a stale reference the handler returns before it
releases the context, which stays in use for ever.
-/

namespace BleGateway.BleCentral

open Central

/-! ## Runs -/

/-- The condition of the contexts. A context is acquired when nobody holds it any more; a release
finds its own context or none; and the CONNECT event of a failed attempt finds its context in use
for a valid reference, or no longer in use. -/
def Conserves (s : Sys) : Label → Prop
  | .call j _ _ =>
      match s.calls[j]? with
      | some (.acquire _ _ ref) => ∀ k, (s.central.ctxAcquire ref).2 = some k → k ∉ s.holders
      | some (.release _ _ ref k) => s.central.ctxOf ref = none ∨ s.central.ctxOf ref = some k
      | _ => True
  | .host _ _ =>
      match s.host with
      | .release k =>
          s.central.ctxOf (s.central.ctxs k).ref = none ∨
            s.central.ctxOf (s.central.ctxs k).ref = some k
      | _ => True
  | .connectEvent none =>
      ∀ k, s.attempt = some k → s.central.ctxSnapshot k ≠ none ∨ (s.central.ctxs k).inUse = false
  | _ => True

/-- The contexts in use are held, each by one holder. -/
structure Conserved (s : Sys) : Prop where
  nodup : s.holders.Nodup
  held : ∀ k, (s.central.ctxs k).inUse = true → k ∈ s.holders
  /-- A call holds its context for the reference the context is in use for. -/
  ref : ∀ p ∈ s.held, (s.central.ctxs p.2).inUse = true → (s.central.ctxs p.2).ref = p.1

namespace Conserved

variable {s s' : Sys} {l : Label}

theorem mem_holders {p : Ref × CtxIx} (hp : p ∈ s.held) : p.2 ∈ s.holders :=
  List.mem_append_left _ (List.mem_map_of_mem hp)

/-- A release that meets the condition finds its own context or none. -/
theorem found_of_released {ref : Ref} {k : CtxIx} (hok : Conserves s l)
    (own : Releases s l ref k) :
    s.central.ctxOf ref = none ∨ s.central.ctxOf ref = some k := by
  cases own with
  | call hcall =>
      simp only [Conserves, hcall] at hok
      exact hok
  | host hhost =>
      simp only [Conserves, hhost] at hok
      exact hok

/-- What is released is in use for the reference that is searched, if it is in use. -/
theorem ref_of_released (h : Conserved s) {ref : Ref} {k : CtxIx}
    (own : Releases s l ref k)
    (hk : (s.central.ctxs k).inUse = true) : (s.central.ctxs k).ref = ref := by
  cases own with
  | call hcall =>
      exact h.ref (ref, k) (List.mem_filterMap.mpr ⟨_, List.mem_of_getElem? hcall, rfl⟩) hk
  | host hhost => rfl

theorem step (h : Conserved s) (hok : Conserves s l) (hs : s.step l = some s') : Conserved s' := by
  cases Sys.step_passage hs with
  | kept use perm held =>
      refine ⟨perm.nodup_iff.mpr h.nodup, fun k hk => ?_, fun p hp hk => ?_⟩
      · rw [(use k).1] at hk
        exact perm.symm.subset (h.held k hk)
      · rw [(use p.2).1] at hk
        rw [(use p.2).2]
        exact h.ref p (held hp) hk
  | @acquired j ok nowMs caller d ref k label call found central perm held =>
      subst label
      simp only [Conserves, call] at hok
      have hnew := hok k found
      obtain ⟨-, hctxs⟩ := ctxAcquire_some found
      rw [hctxs] at central
      have hsame : ∀ j, j ≠ k → s'.central.ctxs j = s.central.ctxs j := by
        intro j hj
        rw [central, setCtx_ctxs, Function.update_of_ne hj]
      refine ⟨perm.nodup_iff.mpr (List.nodup_cons.mpr ⟨hnew, h.nodup⟩), fun j hj => ?_,
        fun p hp hj => ?_⟩
      · by_cases hjk : j = k
        · subst hjk
          exact perm.symm.subset (List.mem_cons_self ..)
        · rw [hsame j hjk] at hj
          exact perm.symm.subset (List.mem_cons_of_mem _ (h.held j hj))
      · rcases List.mem_cons.mp (held hp) with rfl | hp'
        · rw [central, setCtx_ctxs, Function.update_self]
        · -- the other calls hold other contexts
          have hne : p.2 ≠ k := fun he => hnew (he ▸ mem_holders hp')
          rw [hsame p.2 hne] at hj ⊢
          exact h.ref p hp' hj
  | @released ref k own central perm held =>
      have hfound := found_of_released hok own
      have hnodup := perm.nodup_iff.mp h.nodup
      have hctxs := fun j => ctxReleaseByRef_ctxs s.central ref j
      -- if the context is in use, it is the one that the release finds
      have hfree : (s'.central.ctxs k).inUse = false := by
        rw [central, (hctxs k).2]
        split
        · rfl
        · rename_i hne
          have hnone := hfound.resolve_right hne
          by_contra hu
          rw [Bool.not_eq_false] at hu
          exact ctxOf_eq_none.mp hnone k hu (h.ref_of_released own hu)
      have hbefore : ∀ j, (s'.central.ctxs j).inUse = true → (s.central.ctxs j).inUse = true := by
        intro j hj
        rw [central, (hctxs j).2] at hj
        split at hj
        · cases hj
        · exact hj
      refine ⟨(List.nodup_cons.mp hnodup).2, fun j hj => ?_, fun p hp hj => ?_⟩
      · rcases List.mem_cons.mp (perm.subset (h.held j (hbefore j hj))) with rfl | hmem
        · rw [hfree] at hj
          cases hj
        · exact hmem
      · rw [central, (hctxs p.2).1]
        exact h.ref p (held hp) (hbefore p.2 hj)
  | @dropped k label attempt stale use perm held =>
      subst label
      have hfree := (hok k attempt).resolve_left (fun hne => hne stale)
      have hnodup := perm.nodup_iff.mp h.nodup
      refine ⟨(List.nodup_cons.mp hnodup).2, fun j hj => ?_, fun p hp hj => ?_⟩
      · rw [(use j).1] at hj
        rcases List.mem_cons.mp (perm.subset (h.held j hj)) with rfl | hmem
        · rw [hfree] at hj
          cases hj
        · exact hmem
      · rw [(use p.2).1] at hj
        rw [(use p.2).2]
        exact h.ref p (held hp) hj
  | reset label central perm held =>
      have hfree : ∀ k, (s'.central.ctxs k).inUse = false := by
        intro k
        rw [central]
        rfl
      refine ⟨perm.nodup_iff.mpr h.nodup, fun k hk => ?_, fun p hp hk => ?_⟩
      · rw [hfree] at hk
        cases hk
      · rw [hfree] at hk
        cases hk

theorem init (h : s.Initial) : Conserved s := by
  have hfree : ∀ k, (s.central.ctxs k).inUse = false := by
    intro k
    rw [h.rest]
  have hnone : s.held = [] := by
    rw [h.rest]
    rfl
  refine ⟨?_, fun k hk => ?_, fun p hp _ => ?_⟩
  · rw [h.rest]
    exact List.nodup_nil
  · rw [hfree] at hk
    cases hk
  · rw [hnone] at hp
    cases hp

/-- A context is released by the step that ends its holder. -/
theorem released_iff (h : Conserved s) (hok : Conserves s l) (hs : s.step l = some s')
    (hl : l ≠ .hostReset) {k : CtxIx} (hk : (s.central.ctxs k).inUse = true) :
    (s'.central.ctxs k).inUse = false ↔ k ∉ s'.holders := by
  constructor
  · intro hfree
    cases Sys.step_passage hs with
    | kept use perm held | dropped label attempt stale use perm held =>
        rw [(use k).1, hk] at hfree
        cases hfree
    | @acquired j ok nowMs caller d ref j' label call found central perm held =>
        obtain ⟨hfree', hctxs⟩ := ctxAcquire_some found
        rw [central, hctxs, setCtx_ctxs] at hfree
        have hne : k ≠ j' := by
          rintro rfl
          rw [hk] at hfree'
          cases hfree'
        rw [Function.update_of_ne hne, hk] at hfree
        cases hfree
    | @released ref j own central perm held =>
        rw [central, (ctxReleaseByRef_ctxs s.central ref k).2] at hfree
        split at hfree
        · rename_i hfound
          rcases found_of_released hok own with hnone | hj
          · rw [hnone] at hfound
            cases hfound
          · obtain rfl := Option.some.inj (hfound.symm.trans hj)
            exact (List.nodup_cons.mp (perm.nodup_iff.mp h.nodup)).1
        · rw [hk] at hfree
          cases hfree
    | reset label central perm held => exact absurd label hl
  · intro hgone
    by_contra hu
    rw [Bool.not_eq_false] at hu
    exact hgone ((h.step hok hs).held k hu)

end Conserved

/-- **Contexts are conserved** in every run that meets the condition: a context in use has exactly
one holder, it becomes free in the step that ends its holder (or in a reset of the host), and it
is free when there is no call, no connect procedure, no link and no event. -/
theorem contexts_conserved {s : Sys} (hs : machine.ReachableWhen Conserves s) :
    (∀ k, (s.central.ctxs k).inUse = true → s.holders.count k = 1) ∧
      (∀ l s' k, Conserves s l → machine.step s l = some s' → l ≠ .hostReset →
        (s.central.ctxs k).inUse = true →
          ((s'.central.ctxs k).inUse = false ↔ k ∉ s'.holders)) ∧
        (s.calls = [] → s.attempt = none → s.links = [] → s.host = .idle →
          ∀ k, (s.central.ctxs k).inUse = false) := by
  have h : Conserved s :=
    Machine.ReachableWhen.invariant (M := machine) (I := Conserved)
      (fun _ h => Conserved.init h) (fun _ _ _ h hok hstep => h.step hok hstep) hs
  refine ⟨fun k hk => List.count_eq_one_of_mem h.nodup (h.held k hk), ?_, ?_⟩
  · intro l s' k hok hstep hl hk
    exact h.released_iff hok hstep hl hk
  · intro hcalls hattempt hlinks hhost k
    by_contra hu
    rw [Bool.not_eq_false] at hu
    have hmem := h.held k hu
    simp [Sys.holders, Sys.held, hcalls, hattempt, hlinks, hhost, Host.held] at hmem

/-! ## A context that leaks -/

/-- A request for the lamp reserves a slot while the supervisor's start finds the lamp BUSY; the
supervisor frees the slot while the stack connects; the stack gives up. -/
def leakRun : List Label :=
  [.supervise 0, .request lamp, .call 1 true 0, .call 0 true 0, .call 0 true 0] ++
    [.call 1 true 0, .call 1 true 0, .call 1 true 0, .call 0 true 0, .connectEvent none]

/-- Nothing is under way. -/
def Sys.quiet (s : Sys) : Bool :=
  s.calls.isEmpty && s.attempt.isNone && s.links.isEmpty && decide (s.host = .idle)

set_option maxRecDepth 100000 in
/-- The context of the failed attempt stays in use. -/
theorem context_leaks : ¬ ∀ s, machine.Reachable s → s.calls = [] → s.attempt = none →
    s.links = [] → s.host = .idle → ∀ k, (s.central.ctxs k).inUse = false := by
  intro h
  have hrun : (machine.run twoDevices leakRun).map (fun s =>
      s.quiet && (s.central.ctxs slotA).inUse) = some true := by decide +kernel
  obtain ⟨s, hs, hp⟩ := Machine.exists_reachable_of_run twoDevices_initial hrun
  simp only [Sys.quiet, Bool.and_eq_true, List.isEmpty_iff, Option.isNone_iff_eq_none,
    decide_eq_true_eq] at hp
  obtain ⟨⟨⟨⟨hcalls, hattempt⟩, hlinks⟩, hhost⟩, hused⟩ := hp
  rw [h s hs hcalls hattempt hlinks hhost] at hused
  cases hused

instance (s : Sys) : (l : Label) → Decidable (Conserves s l)
  | .call j _ _ => by
      unfold Conserves
      dsimp only
      generalize s.calls[j]? = call
      exact match call with
        | some (.acquire _ _ _) => inferInstanceAs (Decidable (∀ k, _ → k ∉ s.holders))
        | some (.release _ _ _ _) => inferInstanceAs (Decidable (_ ∨ _))
        | some (.start ..) | some (.getDeviceId ..) | some (.getPeerAddr ..) | some (.connect ..)
        | some (.rollback ..) | some (.noteFailure _) | some (.disconnect _) | some (.forget _)
        | some (.finalize _) | none => instDecidableTrue
  | .host _ _ => by
      unfold Conserves
      dsimp only
      generalize s.host = h
      exact match h with
        | .release _ => inferInstanceAs (Decidable (_ ∨ _))
        | .idle | .connected .. | .identified _ | .connectFailed _ | .disconnected ..
        | .readState ..
        | .findRemoved .. | .finalize .. | .subscribed .. | .encrypted _ | .noteSuccess _ =>
          instDecidableTrue
  | .connectEvent none => inferInstanceAs (Decidable (∀ k, _ → _ ∨ _))
  | .connectEvent (some _) | .supervise _ | .request _ | .disconnect _ | .forget _
  | .disconnectEvent _ | .encrypted .. | .subscribed .. | .hostReset => instDecidableTrue

/-- The lamp is connected and its link is lost. -/
def lostLamp : List Label :=
  connectLamp ++ .disconnectEvent 0 :: List.replicate 3 (.host true 0)

set_option maxRecDepth 100000 in
/-- The context of the lamp is in use while its link is up, and free after its link is lost. -/
theorem contexts_conserved_lamp :
    (∃ s : Sys, s.links.length = 1 ∧ (s.central.ctxs slotA).inUse = true ∧
      s.holders.count slotA = 1) ∧
        ∃ s : Sys, (s.central.slots slotA).generation = 1 ∧
          ∀ k, (s.central.ctxs k).inUse = false := by
  constructor
  · have hrun : (machine.runWhen Conserves twoDevices connectLamp).map (fun s =>
        decide (s.links.length = 1 ∧ (s.central.ctxs slotA).inUse = true)) =
          some true := by decide +kernel
    obtain ⟨s, hs, hp⟩ := Machine.exists_reachableWhen_of_run twoDevices_initial hrun
    obtain ⟨hlinks, hused⟩ := of_decide_eq_true hp
    exact ⟨s, hlinks, hused, (contexts_conserved hs).1 _ hused⟩
  · have hrun : (machine.runWhen Conserves twoDevices lostLamp).map (fun s =>
        s.quiet && decide ((s.central.slots slotA).generation = 1)) = some true := by
      decide +kernel
    obtain ⟨s, hs, hp⟩ := Machine.exists_reachableWhen_of_run twoDevices_initial hrun
    simp only [Sys.quiet, Bool.and_eq_true, List.isEmpty_iff, Option.isNone_iff_eq_none,
      decide_eq_true_eq] at hp
    obtain ⟨⟨⟨⟨hcalls, hattempt⟩, hlinks⟩, hhost⟩, hgen⟩ := hp
    exact ⟨s, hgen, (contexts_conserved hs).2.2 hcalls hattempt hlinks hhost⟩

end BleGateway.BleCentral
