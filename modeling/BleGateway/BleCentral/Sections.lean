import BleGateway.BleCentral.System

/-! # The section that a step runs

A step of the system runs at most one critical section. `Move` lists the sections with the place
in the code that runs them; the other steps leave the state behind the mutex alone.
-/

namespace BleGateway.BleCentral

/-- What the step with this label leaves behind the mutex. -/
inductive Move (s : Sys) : Label → Central → Prop
  | same {l : Label} : Move s l s.central
  | nextDevice {nowMs : Int} : Move s (.supervise nowMs) (s.central.nextDevice nowMs).1
  | registered {id : DeviceId} : Move s (.request id) (s.central.findOrRegister id).1
  | reserved {k : Nat} {ok : Bool} {nowMs : Int} {caller : Caller} {d : DeviceIx} {ref : Ref}
      {c : Central} (call : s.calls[k]? = some (.start caller d))
      (reserve : s.central.reserveConnection d nowMs = .ok (c, ref)) : Move s (.call k ok nowMs) c
  | acquired {k : Nat} {ok : Bool} {nowMs : Int} {caller : Caller} {d : DeviceIx} {ref : Ref}
      (call : s.calls[k]? = some (.acquire caller d ref)) :
      Move s (.call k ok nowMs) (s.central.ctxAcquire ref).1
  | released {k : Nat} {ok : Bool} {nowMs : Int} {caller : Caller} {d : DeviceIx} {ref : Ref}
      {ctx : CtxIx} (call : s.calls[k]? = some (.release caller d ref ctx)) :
      Move s (.call k ok nowMs) (s.central.ctxReleaseByRef ref)
  | rolledBack {k : Nat} {ok : Bool} {nowMs : Int} {caller : Caller} {d : DeviceIx} {ref : Ref}
      {err : Err} (call : s.calls[k]? = some (.rollback caller d ref err)) :
      Move s (.call k ok nowMs) (s.central.rollbackConnectionStart ref nowMs)
  | failureNoted {k : Nat} {ok : Bool} {nowMs : Int} {d : DeviceIx}
      (call : s.calls[k]? = some (.noteFailure d)) :
      Move s (.call k ok nowMs) (s.central.noteFailure d nowMs)
  | disconnectAsked {k : Nat} {ok : Bool} {nowMs : Int} {d : DeviceIx}
      (call : s.calls[k]? = some (.disconnect d)) :
      Move s (.call k ok nowMs) (s.central.requestDisconnect d)
  | forgetAsked {k : Nat} {ok : Bool} {nowMs : Int} {d : DeviceIx}
      (call : s.calls[k]? = some (.forget d)) :
      Move s (.call k ok nowMs) (s.central.requestForget d).1
  | finalized {k : Nat} {ok : Bool} {nowMs : Int} {d : DeviceIx}
      (call : s.calls[k]? = some (.finalize d)) :
      Move s (.call k ok nowMs) (s.central.finalizeRemove d)
  | linked {found : Bool} {nowMs : Int} {k : CtxIx} {handle : UInt16} {d : Option DeviceIx}
      (host : s.host = .connected k handle d) : Move s (.host found nowMs)
        (s.central.onConnectSuccess (s.central.ctxs k).ref handle).1
  | identified {found : Bool} {nowMs : Int} {d : DeviceIx} (host : s.host = .identified d) :
      Move s (.host found nowMs) (s.central.setPeerAddr d)
  | lost {found : Bool} {nowMs : Int} {k : CtxIx} {handle : UInt16}
      (host : s.host = .disconnected k handle ∨
        s.host = .connectFailed k ∧ handle = (s.central.ctxs k).connHandle) :
      Move s (.host found nowMs) (s.central.onDisconnect (s.central.ctxs k).ref handle nowMs).1
  | removed {found : Bool} {nowMs : Int} {k : CtxIx} {d : DeviceIx}
      (host : s.host = .finalize k d) : Move s (.host found nowMs) (s.central.finalizeRemove d)
  | ctxReleased {found : Bool} {nowMs : Int} {k : CtxIx} (host : s.host = .release k) :
      Move s (.host found nowMs) (s.central.ctxReleaseByRef (s.central.ctxs k).ref)
  | discovering {found : Bool} {nowMs : Int} {k : CtxIx} (host : s.host = .encrypted k) :
      Move s (.host found nowMs) (s.central.beginDiscovery (s.central.ctxs k).ref)
  | ready {found : Bool} {nowMs : Int} {k : CtxIx} {d : Option DeviceIx}
      (host : s.host = .subscribed k d) :
      Move s (.host found nowMs) (s.central.setReady (s.central.ctxs k).ref)
  | succeeded {found : Bool} {nowMs : Int} {d : DeviceIx} (host : s.host = .noteSuccess d) :
      Move s (.host found nowMs) (s.central.noteSuccess d nowMs)
  | reset : Move s .hostReset s.central.handleHostReset

namespace Sys

variable {s s' : Sys}

@[simp] theorem addCall_central (s : Sys) (c : Call) : (s.addCall c).central = s.central := rfl

@[simp] theorem failStart_central (s : Sys) (caller : Caller) (d : DeviceIx) (err : Err) :
    (s.failStart caller d err).central = s.central := by
  unfold failStart
  split <;> rfl

/-- The list of calls has no part in what a call does behind the mutex. -/
theorem callStep_move {k : Nat} {ok : Bool} {nowMs : Int} {c : Call}
    (hc : s.calls[k]? = some c) : Move s (.call k ok nowMs)
      (({ s with calls := s.calls.eraseIdx k } : Sys).callStep ok nowMs c).central := by
  cases c with
  | start caller d =>
      simp only [callStep]
      split
      · rw [failStart_central]
        exact .same
      · rename_i c ref hr
        exact .reserved hc hr
  | getDeviceId | getPeerAddr | connect =>
      simp only [callStep]
      split <;> exact .same
  | acquire caller d ref =>
      have hmove : Move s (.call k ok nowMs) (s.central.ctxAcquire ref).1 := .acquired hc
      simp only [callStep]
      split <;> rename_i ha <;> rw [ha] at hmove <;> exact hmove
  | release caller d ref ctx => exact .released hc
  | rollback caller d ref err =>
      simp only [callStep, failStart_central]
      exact .rolledBack hc
  | noteFailure d => exact .failureNoted hc
  | disconnect d => exact .disconnectAsked hc
  | forget d =>
      have hmove : Move s (.call k ok nowMs) (s.central.requestForget d).1 := .forgetAsked hc
      simp only [callStep]
      split <;> rename_i hf <;> rw [hf] at hmove <;> exact hmove
  | finalize d => exact .finalized hc

theorem releaseConnection_central (s : Sys) (k : CtxIx) (handle : UInt16) (nowMs : Int) :
    (s.releaseConnection k handle nowMs).central =
      (s.central.onDisconnect (s.central.ctxs k).ref handle nowMs).1 := by
  unfold releaseConnection
  split <;> rename_i hd <;> rw [hd]

theorem hostStep_move {found : Bool} {nowMs : Int} (hs : s.hostStep found nowMs = some s') :
    Move s (.host found nowMs) s'.central := by
  unfold hostStep at hs
  split at hs
  · cases hs
  · rename_i k handle d hh
    have hmove : Move s (.host found nowMs)
        (s.central.onConnectSuccess (s.central.ctxs k).ref handle).1 := .linked hh
    split at hs <;> rename_i hc <;> rw [hc] at hmove
    · simp only at hs
      split at hs <;> cases hs <;> exact hmove
    · cases hs
      exact hmove
  · rename_i d hh
    cases hs
    exact .identified hh
  · rename_i k hh
    cases hs
    rw [releaseConnection_central]
    exact .lost (.inr ⟨hh, rfl⟩)
  · rename_i k handle hh
    cases hs
    rw [releaseConnection_central]
    exact .lost (.inl hh)
  · split at hs <;> cases hs <;> exact .same
  · split at hs <;> cases hs <;> exact .same
  · rename_i k d hh
    cases hs
    exact .removed hh
  · rename_i k hh
    cases hs
    exact .ctxReleased hh
  · rename_i k hh
    cases hs
    exact .discovering hh
  · rename_i k d hh
    simp only at hs
    split at hs <;> cases hs <;> exact .ready hh
  · rename_i d hh
    cases hs
    exact .succeeded hh

theorem connectEvent_central (s : Sys) (k : CtxIx) (linked : Option UInt16) :
    (s.connectEvent k linked).central = s.central := by
  unfold connectEvent
  simp only
  split <;> split <;> rfl

theorem disconnectEvent_central (s : Sys) (link : Link) :
    (s.disconnectEvent link).central = s.central := by
  unfold disconnectEvent
  split <;> rfl

/-- **Every step runs one of the sections.** -/
theorem step_move {l : Label} (hs : s.step l = some s') : Move s l s'.central := by
  cases l with
  | supervise nowMs =>
      have hmove : Move s (.supervise nowMs) (s.central.nextDevice nowMs).1 := .nextDevice
      dsimp only [step] at hs
      split at hs <;> rename_i hd <;> rw [hd] at hmove <;> cases hs <;>
        exact hmove
  | request id =>
      have hmove : Move s (.request id) (s.central.findOrRegister id).1 := .registered
      dsimp only [step] at hs
      split at hs <;> rename_i hd <;> rw [hd] at hmove <;> cases hs <;>
        exact hmove
  | disconnect id | forget id =>
      obtain ⟨d, -, rfl⟩ := Option.map_eq_some_iff.mp hs
      exact .same
  | call k ok nowMs =>
      dsimp only [step] at hs
      split at hs
      · rename_i c hc
        cases hs
        exact callStep_move hc
      · cases hs
  | connectEvent linked =>
      dsimp only [step] at hs
      split at hs
      · split at hs
        · cases hs
          rw [connectEvent_central]
          exact .same
        · cases hs
      · cases hs
  | disconnectEvent k =>
      dsimp only [step] at hs
      split at hs
      · split at hs
        · cases hs
          rw [disconnectEvent_central]
          exact .same
        · cases hs
      · cases hs
  | encrypted k handle | subscribed k handle =>
      dsimp only [step] at hs
      split at hs
      · split at hs
        · cases hs
          exact .same
        · cases hs
      · cases hs
  | host found nowMs => exact hostStep_move hs
  | hostReset =>
      dsimp only [step] at hs
      split at hs
      · cases hs
        exact .reset
      · cases hs

end Sys

end BleGateway.BleCentral
