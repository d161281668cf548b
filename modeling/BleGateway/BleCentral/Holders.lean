import Mathlib.Data.List.Perm.Basic
import BleGateway.BleCentral.Mapping

/-! # The holders of the callback contexts

A context is held by a call, a connect procedure or a link whose last event is still to come, or
by the host task while it handles that event. `Passage` lists what a step can do to the contexts
and their holders.
-/

namespace BleGateway.BleCentral

/-! ## Holders -/

/-- The context a call holds, with the reference it was acquired for. -/
def Call.held : Call → Option (Ref × CtxIx)
  | .connect _ _ ref k | .release _ _ ref k => some (ref, k)
  | .start .. | .getDeviceId .. | .getPeerAddr .. | .acquire .. | .rollback .. | .noteFailure _
  | .disconnect _ | .forget _ | .finalize _ => none

/-- The context of the last event that the host task handles. -/
def Host.held : Host → Option CtxIx
  | .connectFailed k | .disconnected k _ | .readState k _ _ | .findRemoved k _ | .finalize k _
  | .release k => some k
  | .idle | .connected .. | .identified _ | .encrypted _ | .subscribed .. | .noteSuccess _ => none

namespace Sys

variable (s : Sys)

/-- What the calls hold. -/
def held : List (Ref × CtxIx) := s.calls.filterMap Call.held

/-- The contexts that are held, once for each holder. -/
def holders : List CtxIx :=
  s.held.map Prod.snd ++ (s.attempt.toList ++ (s.links.map Link.ctx ++ s.host.held.toList))

end Sys

/-! ## What the sections do to the contexts -/

namespace Central

variable {c c' : Central}

/-- The contexts are in use for the same references. -/
def SameUse (c c' : Central) : Prop :=
  ∀ k, (c'.ctxs k).inUse = (c.ctxs k).inUse ∧ (c'.ctxs k).ref = (c.ctxs k).ref

theorem SameUse.of_eq (h : c'.ctxs = c.ctxs) : SameUse c c' := by
  intro k
  rw [h]
  exact ⟨rfl, rfl⟩

theorem SameUse.setCtx {k : CtxIx} {ctx : Ctx} (hu : ctx.inUse = (c.ctxs k).inUse)
    (href : ctx.ref = (c.ctxs k).ref) : SameUse c (c.setCtx k ctx) := by
  intro j
  rw [setCtx_ctxs]
  by_cases hjk : j = k
  · subst hjk
    rw [Function.update_self]
    exact ⟨hu, href⟩
  · rw [Function.update_of_ne hjk]
    exact ⟨rfl, rfl⟩

/-! Most sections do not touch the contexts. -/

theorem rollbackConnectionStart_ctxs (c : Central) (ref : Ref) (nowMs : Int) :
    (c.rollbackConnectionStart ref nowMs).ctxs = c.ctxs := by
  dsimp only [rollbackConnectionStart]
  split <;> split <;> rfl

theorem noteFailure_ctxs (c : Central) (d : DeviceIx) (nowMs : Int) :
    (c.noteFailure d nowMs).ctxs = c.ctxs := by
  dsimp only [noteFailure]
  split
  · split
    · split <;> rfl
    · rfl
  · rfl

theorem requestDisconnect_ctxs (c : Central) (d : DeviceIx) :
    (c.requestDisconnect d).ctxs = c.ctxs := by
  dsimp only [requestDisconnect]
  split
  · split <;> rfl
  · rfl

theorem requestForget_ctxs (c : Central) (d : DeviceIx) : (c.requestForget d).1.ctxs = c.ctxs := by
  dsimp only [requestForget]
  split
  · split
    · rfl
    · split <;> rfl
  · rfl

theorem finalizeRemove_ctxs (c : Central) (d : DeviceIx) : (c.finalizeRemove d).ctxs = c.ctxs := by
  unfold finalizeRemove
  split <;> rfl

theorem onDisconnect_ctxs (c : Central) (ref : Ref) (handle : UInt16) (nowMs : Int) :
    (c.onDisconnect ref handle nowMs).1.ctxs = c.ctxs := by
  dsimp only [onDisconnect]
  split
  · split
    · split <;> rfl
    · rfl
  · rfl

theorem beginDiscovery_ctxs (c : Central) (ref : Ref) : (c.beginDiscovery ref).ctxs = c.ctxs := by
  dsimp only [beginDiscovery]
  split <;> rfl

theorem setReady_ctxs (c : Central) (ref : Ref) : (c.setReady ref).ctxs = c.ctxs := by
  unfold setReady
  split <;> rfl

theorem noteSuccess_ctxs (c : Central) (d : DeviceIx) (nowMs : Int) :
    (c.noteSuccess d nowMs).ctxs = c.ctxs := by
  unfold noteSuccess
  split <;> rfl

theorem setPeerAddr_ctxs (c : Central) (d : DeviceIx) : (c.setPeerAddr d).ctxs = c.ctxs := by
  unfold setPeerAddr
  split <;> rfl

theorem nextDevice_ctxs (c : Central) (nowMs : Int) : (c.nextDevice nowMs).1.ctxs = c.ctxs := by
  unfold nextDevice
  split <;> rfl

theorem findOrRegister_ctxs (c : Central) (id : DeviceId) :
    (c.findOrRegister id).1.ctxs = c.ctxs := by
  unfold findOrRegister
  split
  · rfl
  · split <;> rfl

theorem SameUse.onConnectSuccess (c : Central) (ref : Ref) (handle : UInt16) :
    SameUse c (c.onConnectSuccess ref handle).1 := by
  dsimp only [Central.onConnectSuccess]
  split
  · split
    · rename_i k _
      exact SameUse.setCtx (c := c.setSlot ref.slotIndex _) rfl rfl
    · exact .of_eq rfl
  · exact .of_eq rfl

theorem ctxOf_eq_none {ref : Ref} :
    c.ctxOf ref = none ↔ ∀ k, (c.ctxs k).inUse = true → (c.ctxs k).ref ≠ ref := by
  simp [ctxOf]

/-- What `ble_state_ctx_acquire` has found when it succeeds. -/
theorem ctxAcquire_some {ref : Ref} {k : CtxIx} (h : (c.ctxAcquire ref).2 = some k) :
    (c.ctxs k).inUse = false ∧ (c.ctxAcquire ref).1 = c.setCtx k
      { inUse := true, ref := ref, connHandle := (c.slots ref.slotIndex).connHandle } := by
  unfold ctxAcquire at h ⊢
  split at h
  · rename_i hv
    rw [if_pos hv]
    split at h
    · rename_i j hj
      cases h
      exact ⟨by simpa using (Fin.find?_eq_some_iff.mp hj).1, rfl⟩
    · cases h
  · cases h

theorem ctxAcquire_none {ref : Ref} (h : (c.ctxAcquire ref).2 = none) :
    (c.ctxAcquire ref).1 = c := by
  unfold ctxAcquire at h ⊢
  split
  · rename_i hv
    rw [if_pos hv] at h
    split <;> rename_i hj
    · rw [hj] at h
      cases h
    · rfl
  · rfl

/-- A release frees at most the context that it finds. -/
theorem ctxReleaseByRef_ctxs (c : Central) (ref : Ref) (k : CtxIx) :
    ((c.ctxReleaseByRef ref).ctxs k).ref = (c.ctxs k).ref ∧
      ((c.ctxReleaseByRef ref).ctxs k).inUse =
        if c.ctxOf ref = some k then false else (c.ctxs k).inUse := by
  unfold ctxReleaseByRef
  split <;> rename_i hk
  · rename_i j
    rw [setCtx_ctxs]
    by_cases hkj : k = j
    · subst hkj
      rw [Function.update_self, hk]
      simp
    · rw [Function.update_of_ne hkj, hk]
      have hne : ¬ (some j = some k) := fun h => hkj (Option.some.inj h).symm
      rw [if_neg hne]
      exact ⟨rfl, rfl⟩
  · rw [hk]
    simp

end Central

open Central

/-! ## What a step does to the holders -/

/-- The holder of context `k` releases it, under the reference. -/
inductive Releases (s : Sys) : Label → Ref → CtxIx → Prop
  | call {j : Nat} {ok : Bool} {nowMs : Int} {caller : Caller} {d : DeviceIx} {ref : Ref}
      {k : CtxIx} (call : s.calls[j]? = some (.release caller d ref k)) :
      Releases s (.call j ok nowMs) ref k
  | host {found : Bool} {nowMs : Int} {k : CtxIx} (host : s.host = .release k) :
      Releases s (.host found nowMs) (s.central.ctxs k).ref k

/-- What the step with this label does to the contexts and their holders. -/
inductive Passage (s : Sys) (l : Label) (s' : Sys) : Prop
  | kept (use : SameUse s.central s'.central) (perm : s'.holders.Perm s.holders)
      (held : s'.held ⊆ s.held)
  | acquired {j : Nat} {ok : Bool} {nowMs : Int} {caller : Caller} {d : DeviceIx} {ref : Ref}
      {k : CtxIx} (label : l = .call j ok nowMs)
      (call : s.calls[j]? = some (.acquire caller d ref))
      (found : (s.central.ctxAcquire ref).2 = some k)
      (central : s'.central = (s.central.ctxAcquire ref).1)
      (perm : s'.holders.Perm (k :: s.holders)) (held : s'.held ⊆ (ref, k) :: s.held)
  | released {ref : Ref} {k : CtxIx} (own : Releases s l ref k)
      (central : s'.central = s.central.ctxReleaseByRef ref)
      (perm : s.holders.Perm (k :: s'.holders)) (held : s'.held ⊆ s.held)
  | dropped {k : CtxIx} (label : l = .connectEvent none) (attempt : s.attempt = some k)
      (stale : s.central.ctxSnapshot k = none) (use : SameUse s.central s'.central)
      (perm : s.holders.Perm (k :: s'.holders)) (held : s'.held ⊆ s.held)
  | reset (label : l = .hostReset) (central : s'.central = s.central.handleHostReset)
      (perm : s'.holders.Perm s.holders) (held : s'.held ⊆ s.held)

namespace Sys

variable {s s' : Sys} {l : Label} {j : Nat} {ok : Bool} {nowMs : Int} {central : Central}

/-- What call `c` holds leaves the list with the call. -/
theorem held_eraseIdx {c : Call} (hc : s.calls[j]? = some c) :
    s.held.Perm (c.held.toList ++ ({ s with calls := s.calls.eraseIdx j } : Sys).held) := by
  obtain ⟨hj, rfl⟩ := List.getElem?_eq_some_iff.mp hc
  have hperm := (List.getElem_cons_eraseIdx_perm hj).symm.filterMap Call.held
  refine hperm.trans ?_
  rw [List.filterMap_cons]
  cases hheld : Call.held s.calls[j] <;> simp [held]

theorem held_addCall (c : Call) : (s.addCall c).held = s.held ++ c.held.toList := by
  unfold addCall held
  rw [List.filterMap_append]
  cases hheld : c.held <;> simp [hheld]

theorem held_failStart (caller : Caller) (d : DeviceIx) (err : Err) :
    (s.failStart caller d err).held = s.held := by
  unfold failStart
  split
  · rw [held_addCall]
    simp [Call.held]
  · rfl

theorem holders_eraseIdx {c : Call} (hc : s.calls[j]? = some c) :
    s.holders.Perm (c.held.toList.map Prod.snd ++
      ({ s with calls := s.calls.eraseIdx j } : Sys).holders) := by
  have hperm := (held_eraseIdx hc).map Prod.snd
  rw [List.map_append] at hperm
  have happend :=
    hperm.append_right (s.attempt.toList ++ (s.links.map Link.ctx ++ s.host.held.toList))
  rwa [List.append_assoc] at happend

theorem holders_addCall (s : Sys) (c : Call) :
    (s.addCall c).holders.Perm (c.held.toList.map Prod.snd ++ s.holders) := by
  unfold holders
  rw [held_addCall, List.map_append]
  have hcomm : (s.held.map Prod.snd ++ c.held.toList.map Prod.snd).Perm
      (c.held.toList.map Prod.snd ++ s.held.map Prod.snd) := List.perm_append_comm
  have hperm := hcomm.append_right
    (s.attempt.toList ++ (s.links.map Link.ctx ++ s.host.held.toList))
  rwa [List.append_assoc (c.held.toList.map Prod.snd)] at hperm

theorem holders_failStart (s : Sys) (caller : Caller) (d : DeviceIx) (err : Err) :
    (s.failStart caller d err).holders = s.holders := by
  unfold holders
  rw [held_failStart]
  unfold failStart
  split <;> rfl

/-- A call that holds nothing goes on, and neither do the calls that it adds. -/
theorem passage_call {c : Call} (hc : s.calls[j]? = some c) (hnone : c.held = none)
    (use : SameUse s.central s'.central)
    (hheld : s'.held = ({ s with calls := s.calls.eraseIdx j } : Sys).held)
    (hholders : s'.holders.Perm ({ s with calls := s.calls.eraseIdx j } : Sys).holders) :
    Passage s (.call j ok nowMs) s' := by
  have hperm := held_eraseIdx hc
  have hperm' := holders_eraseIdx hc
  rw [hnone] at hperm hperm'
  refine .kept use (hholders.trans hperm'.symm) ?_
  rw [hheld]
  exact hperm.symm.subset

theorem passage_addCall {c c₁ : Call} (hc : s.calls[j]? = some c) (hnone : c.held = none)
    (hnone₁ : c₁.held = none) (use : SameUse s.central central) : Passage s (.call j ok nowMs)
      (({ s with calls := s.calls.eraseIdx j, central := central } : Sys).addCall c₁) := by
  have hholders := holders_addCall { s with calls := s.calls.eraseIdx j, central := central } c₁
  have hheld := held_addCall (s := { s with calls := s.calls.eraseIdx j, central := central }) c₁
  rw [hnone₁] at hholders hheld
  exact passage_call hc hnone use (hheld.trans (List.append_nil _)) hholders

theorem passage_failStart {c : Call} (hc : s.calls[j]? = some c) (hnone : c.held = none)
    (use : SameUse s.central central) (caller : Caller) (d : DeviceIx) (err : Err) :
    Passage s (.call j ok nowMs)
      (({ s with calls := s.calls.eraseIdx j, central := central } : Sys).failStart
        caller d err) := by
  refine passage_call hc hnone ?_ (held_failStart _ _ _) (.of_eq (holders_failStart _ _ _ _))
  rw [failStart_central]
  exact use

theorem callStep_passage {c : Call} (hc : s.calls[j]? = some c) : Passage s (.call j ok nowMs)
      (({ s with calls := s.calls.eraseIdx j } : Sys).callStep ok nowMs c) := by
  have hheld := held_eraseIdx hc
  have hholders := holders_eraseIdx hc
  cases c with
  | start caller d =>
      dsimp only [callStep]
      split
      · exact passage_failStart hc rfl (.of_eq rfl) _ _ _
      · rename_i c ref hr
        obtain ⟨-, -, -, -, -, -, rfl⟩ := reserveConnection_ok hr
        exact passage_addCall hc rfl rfl (.of_eq rfl)
  | getDeviceId caller d ref | getPeerAddr caller d ref =>
      dsimp only [callStep]
      split <;> exact passage_addCall hc rfl rfl (.of_eq rfl)
  | acquire caller d ref =>
      dsimp only [callStep]
      split
      · rename_i c k hk
        have hfound : (s.central.ctxAcquire ref).2 = some k := congrArg Prod.snd hk
        have hcentral : c = (s.central.ctxAcquire ref).1 := (congrArg Prod.fst hk).symm
        refine .acquired rfl hc hfound hcentral ?_ ?_
        · exact (holders_addCall _ _).trans (hholders.symm.cons k)
        · rw [held_addCall]
          exact (List.perm_append_comm.trans (hheld.symm.cons (ref, k))).subset
      · rename_i c hk
        have hnone : (s.central.ctxAcquire ref).2 = none := congrArg Prod.snd hk
        have hcentral : c = (s.central.ctxAcquire ref).1 := (congrArg Prod.fst hk).symm
        rw [ctxAcquire_none hnone] at hcentral
        subst hcentral
        exact passage_addCall hc rfl rfl (.of_eq rfl)
  | connect caller d ref k =>
      dsimp only [callStep]
      split
      · rename_i hok
        -- the context passes to the connect procedure of the stack
        refine .kept (.of_eq rfl) ?_ fun _ hp => hheld.symm.subset (List.mem_cons_of_mem _ hp)
        refine List.Perm.trans ?_ hholders.symm
        unfold holders
        rw [show s.attempt = none from hok.2]
        exact List.perm_middle
      · refine .kept (.of_eq rfl) ((holders_addCall _ _).trans hholders.symm) ?_
        rw [held_addCall]
        exact (List.perm_append_comm.trans hheld.symm).subset
  | release caller d ref k =>
      dsimp only [callStep]
      refine .released (.call hc) rfl ?_ ?_
      · have hadd := holders_addCall { s with
          calls := s.calls.eraseIdx j
          central := s.central.ctxReleaseByRef ref } (.rollback caller d ref .stack)
        exact hholders.trans (hadd.symm.cons k)
      · rw [held_addCall]
        intro p hp
        rw [List.mem_append, or_iff_left (by simp [Call.held])] at hp
        exact hheld.symm.subset (List.mem_cons_of_mem _ hp)
  | rollback caller d ref err =>
      exact passage_failStart hc rfl (.of_eq (rollbackConnectionStart_ctxs _ _ _)) _ _ _
  | noteFailure d => exact passage_call hc rfl (.of_eq (noteFailure_ctxs _ _ _)) rfl (.refl _)
  | disconnect d => exact passage_call hc rfl (.of_eq (requestDisconnect_ctxs _ _)) rfl (.refl _)
  | forget d =>
      have hctxs := requestForget_ctxs s.central d
      dsimp only [callStep]
      split <;> rename_i c hf <;> rw [hf] at hctxs
      · exact passage_call hc rfl (.of_eq hctxs) rfl (.refl _)
      · exact passage_addCall hc rfl rfl (.of_eq hctxs)
  | finalize d => exact passage_call hc rfl (.of_eq (finalizeRemove_ctxs _ _)) rfl (.refl _)

/-- The host task goes on, with the same context as before. -/
theorem passage_host {h : Host} (use : SameUse s.central central) (hheld : h.held = s.host.held) :
    Passage s l { s with central := central, host := h } := by
  refine .kept use (.of_eq ?_) (List.Subset.refl _)
  unfold holders
  rw [hheld]
  rfl

theorem releaseConnection_passage {k : CtxIx} {handle : UInt16} (hk : s.host.held = some k) :
    Passage s l (s.releaseConnection k handle nowMs) := by
  have hctxs := onDisconnect_ctxs s.central (s.central.ctxs k).ref handle nowMs
  unfold releaseConnection
  split <;> rename_i hd <;> rw [hd] at hctxs <;> exact passage_host (.of_eq hctxs) hk.symm

theorem hostStep_passage {found : Bool} (hs : s.hostStep found nowMs = some s') :
    Passage s (.host found nowMs) s' := by
  unfold hostStep at hs
  split at hs <;> rename_i hh
  · cases hs
  · rename_i k handle d
    have hnone : s.host.held = none := by rw [hh]; rfl
    have huse := SameUse.onConnectSuccess s.central (s.central.ctxs k).ref handle
    split at hs <;> rename_i hc <;> rw [hc] at huse
    · dsimp only at hs
      split at hs <;> cases hs
      · split <;> exact passage_host huse hnone.symm
      · exact passage_host huse hnone.symm
    · cases hs
      exact passage_host huse hnone.symm
  · cases hs
    exact passage_host (.of_eq (setPeerAddr_ctxs _ _)) (by rw [hh]; rfl)
  · cases hs
    exact releaseConnection_passage (by rw [hh]; rfl)
  · cases hs
    exact releaseConnection_passage (by rw [hh]; rfl)
  · split at hs <;> cases hs <;>
      exact passage_host (.of_eq rfl) (by rw [hh]; rfl)
  · split at hs <;> cases hs <;>
      exact passage_host (.of_eq rfl) (by rw [hh]; rfl)
  · cases hs
    exact passage_host (.of_eq (finalizeRemove_ctxs _ _)) (by rw [hh]; rfl)
  · rename_i k
    cases hs
    refine .released (.host hh) rfl ?_ (List.Subset.refl _)
    unfold holders
    rw [hh]
    simp only [Host.held, Option.toList_some, Option.toList_none, ← List.append_assoc,
      List.append_nil]
    exact List.perm_append_singleton _ _
  · cases hs
    exact passage_host (.of_eq (beginDiscovery_ctxs _ _)) (by rw [hh]; rfl)
  · dsimp only at hs
    split at hs <;> cases hs <;>
      exact passage_host (.of_eq (setReady_ctxs _ _)) (by rw [hh]; rfl)
  · cases hs
    exact passage_host (.of_eq (noteSuccess_ctxs _ _ _)) (by rw [hh]; rfl)

/-- A task makes a call. -/
theorem passage_newCall {c : Call} (use : SameUse s.central central) (hnone : c.held = none) :
    Passage s l (({ s with central := central } : Sys).addCall c) := by
  have hholders := holders_addCall { s with central := central } c
  have hheld := held_addCall (s := { s with central := central }) c
  rw [hnone] at hholders hheld
  exact .kept use hholders (List.Perm.of_eq (hheld.trans (List.append_nil _))).subset

/-- The context of a connect procedure passes to the link or to the host task. -/
theorem connectEvent_passage {k : CtxIx} {linked : Option UInt16} (hk : s.attempt = some k)
    (hh : s.host = .idle) : Passage s (.connectEvent linked) (s.connectEvent k linked) := by
  have hholders : s.holders = s.held.map Prod.snd ++ k :: (s.links.map Link.ctx ++ []) := by
    unfold holders
    rw [hk, hh]
    rfl
  cases linked with
  | some handle =>
      have hperm : s.holders.Perm
          (s.held.map Prod.snd ++ ((s.links ++ [Link.mk handle k]).map Link.ctx ++ [])) := by
        rw [hholders, List.append_nil, List.append_nil, List.map_append]
        exact (List.perm_append_singleton _ _).symm.append_left _
      dsimp only [connectEvent]
      split
      · exact .kept (.of_eq rfl) hperm.symm (List.Subset.refl _)
      · refine .kept (.of_eq rfl) ((List.Perm.of_eq ?_).trans hperm.symm) (List.Subset.refl _)
        unfold holders
        rw [hh]
        rfl
  | none =>
      dsimp only [connectEvent]
      split
      · refine .kept (.of_eq rfl) ?_ (List.Subset.refl _)
        rw [hholders, List.append_nil]
        exact (List.perm_append_singleton _ _).append_left _
      · rename_i hstale
        refine .dropped rfl hk hstale (.of_eq rfl) ?_ (List.Subset.refl _)
        rw [hholders]
        unfold holders
        rw [hh]
        exact List.perm_middle

/-- The context of a link passes to the host task. -/
theorem disconnectEvent_passage {link : Link} (hj : s.links[j]? = some link) (hh : s.host = .idle) :
    Passage s (.disconnectEvent j)
      (({ s with links := s.links.eraseIdx j } : Sys).disconnectEvent link) := by
  obtain ⟨hlt, rfl⟩ := List.getElem?_eq_some_iff.mp hj
  have hlinks := ((List.getElem_cons_eraseIdx_perm hlt).symm.map Link.ctx)
  have hperm : s.holders.Perm (s.held.map Prod.snd ++ (s.attempt.toList ++
      ((s.links.eraseIdx j).map Link.ctx ++ [s.links[j].ctx]))) := by
    unfold holders
    rw [hh]
    refine List.Perm.append_left _ (List.Perm.append_left _ ?_)
    refine (List.Perm.of_eq (List.append_nil _)).trans (hlinks.trans ?_)
    exact (List.perm_append_singleton _ _).symm
  dsimp only [disconnectEvent]
  split <;> exact .kept (.of_eq rfl) hperm.symm (List.Subset.refl _)

/-- **What each step does to the contexts and their holders.** -/
theorem step_passage (hs : s.step l = some s') : Passage s l s' := by
  cases l with
  | supervise nowMs =>
      have hctxs := nextDevice_ctxs s.central nowMs
      dsimp only [step] at hs
      split at hs <;> rename_i hd <;> rw [hd] at hctxs <;> cases hs
      · exact passage_newCall (.of_eq hctxs) rfl
      · exact passage_host (.of_eq hctxs) rfl
  | request id =>
      have hctxs := findOrRegister_ctxs s.central id
      dsimp only [step] at hs
      split at hs <;> rename_i hd <;> rw [hd] at hctxs <;> cases hs
      · exact passage_newCall (.of_eq hctxs) rfl
      · exact passage_host (.of_eq hctxs) rfl
  | disconnect id | forget id =>
      obtain ⟨d, -, rfl⟩ := Option.map_eq_some_iff.mp hs
      exact passage_newCall (.of_eq rfl) rfl
  | call j ok nowMs =>
      dsimp only [step] at hs
      split at hs
      · rename_i c hc
        cases hs
        exact callStep_passage hc
      · cases hs
  | connectEvent linked =>
      dsimp only [step] at hs
      split at hs
      · rename_i k hk
        obtain ⟨hh, ⟨⟩⟩ := Option.ite_none_right_eq_some.mp hs
        exact connectEvent_passage hk hh
      · cases hs
  | disconnectEvent j =>
      dsimp only [step] at hs
      split at hs
      · rename_i link hj
        obtain ⟨hh, ⟨⟩⟩ := Option.ite_none_right_eq_some.mp hs
        exact disconnectEvent_passage hj hh
      · cases hs
  | encrypted k handle | subscribed k handle =>
      dsimp only [step] at hs
      split at hs
      · split at hs
        · rename_i hh
          cases hs
          exact passage_host (.of_eq rfl) (by rw [hh]; rfl)
        · cases hs
      · cases hs
  | host found nowMs => exact hostStep_passage hs
  | hostReset =>
      dsimp only [step] at hs
      obtain ⟨-, ⟨⟩⟩ := Option.ite_none_right_eq_some.mp hs
      exact .reset rfl rfl (.refl _) (List.Subset.refl _)

end Sys

end BleGateway.BleCentral
