import BleGateway.BleCentral.Records

/-! # Removals come to an end

A record that is marked REMOVING while it names a slot is finalized by the host task when the link
or the attempt ends; without a slot the caller of `ble_central_forget_peer` finalizes it. The
rollback of a start takes the slot from the record and leaves the mark: whoever forgets a device
during the start of its connection leaves a record that nobody finalizes.
-/

namespace BleGateway.BleCentral

open Central

/-- A step that is under way goes on to finalize the removal of record `d`. -/
inductive FinalizeDue (s : Sys) (d : DeviceIx) : Prop
  | call (call : .finalize d ∈ s.calls) : FinalizeDue s d
  | readState {k : CtxIx} {id : DeviceId} (host : s.host = .readState k d id)
      (find : s.central.find id = some d) : FinalizeDue s d
  | findRemoved {k : CtxIx} {id : DeviceId} (host : s.host = .findRemoved k id)
      (find : s.central.find id = some d) : FinalizeDue s d
  | host {k : CtxIx} (host : s.host = .finalize k d) : FinalizeDue s d

/-- The record is being removed, and has no slot. -/
structure Central.Detached (c : Central) (d : DeviceIx) : Prop where
  inUse : (c.devices d).inUse = true
  removing : (c.devices d).state = .removing
  slot : (c.devices d).connectionSlot = none

/-- A rollback does not take the slot from a record that is being removed. -/
def Unmarked (s : Sys) : Label → Prop
  | .call k _ _ =>
      match s.calls[k]? with
      | some (.rollback _ _ ref _) => ∀ d, s.central.deviceOf ref.slotIndex = some d →
          (s.central.devices d).state ≠ .removing
      | _ => True
  | _ => True

namespace Sys

variable {s s' : Sys} {l : Label}

/-! ## What a step writes -/

/-- What the step with this label makes of the records. -/
inductive Writes (s : Sys) : Label → (DeviceIx → Device) → Prop
  | none {l : Label} : Writes s l s.central.devices
  | addressed {l : Label} {d : DeviceIx} : Writes s l
      (Function.update s.central.devices d { s.central.devices d with hasPeerAddr := true })
  | registered {id : DeviceId} {d : DeviceIx} (fresh : s.central.find id = .none)
      (vacant : (s.central.devices d).inUse = false) : Writes s (.request id)
        (Function.update s.central.devices d (.registered id true))
  | reserved {l : Label} {d : DeviceIx} {i : SlotIx} {nowMs : Int} : Writes s l
      (Function.update s.central.devices d ((s.central.devices d).reserve i nowMs))
  | rolledBack {k : Nat} {ok : Bool} {nowMs : Int} {caller : Caller} {d e : DeviceIx} {ref : Ref}
      {err : Err} (call : s.calls[k]? = some (.rollback caller e ref err))
      (device : s.central.deviceOf ref.slotIndex = some d) : Writes s (.call k ok nowMs)
        (Function.update s.central.devices d ((s.central.devices d).rollBack nowMs))
  | failed {l : Label} {d : DeviceIx} {nowMs : Int} : Writes s l
      (Function.update s.central.devices d ((s.central.devices d).fail nowMs))
  | disconnected {found : Bool} {nowMs : Int} {k : CtxIx} {handle : UInt16} {d : DeviceIx}
      (host : s.host = .disconnected k handle ∨
        s.host = .connectFailed k ∧ handle = (s.central.ctxs k).connHandle)
      (lost : (s.central.onDisconnect (s.central.ctxs k).ref handle nowMs).2 = some (some d)) :
      Writes s (.host found nowMs)
        (Function.update s.central.devices d ((s.central.devices d).disconnect nowMs))
  | removing {k : Nat} {ok : Bool} {nowMs : Int} {d : DeviceIx}
      (call : s.calls[k]? = some (.forget d)) : Writes s (.call k ok nowMs)
        (Function.update s.central.devices d (s.central.devices d).remove)
  | finalized {l : Label} {d : DeviceIx} : Writes s l (Function.update s.central.devices d {})
  | succeeded {l : Label} {d : DeviceIx} {nowMs : Int} : Writes s l
      (Function.update s.central.devices d
        { s.central.devices d with retryCount := 0, lastAttemptMs := nowMs, nextRetryMs := 0 })
  | reset {l : Label} : Writes s l fun d => (s.central.devices d).hostReset

theorem writes_of_move {c : Central} (h : Move s l c) : Writes s l c.devices := by
  cases h with
  | same => exact .none
  | nextDevice =>
      unfold Central.nextDevice
      split <;> exact .none
  | registered =>
      unfold Central.findOrRegister
      split
      · exact .addressed
      · rename_i hfresh
        split
        · rename_i d hvac
          exact .registered hfresh (Directory.vacant_spec hvac)
        · exact .none
  | reserved call reserve =>
      obtain ⟨-, -, -, -, -, -, rfl⟩ := Central.reserveConnection_ok reserve
      exact .reserved
  | acquired call =>
      unfold Central.ctxAcquire
      split
      · split <;> exact .none
      · exact .none
  | released call | ctxReleased host =>
      unfold Central.ctxReleaseByRef
      split <;> exact .none
  | rolledBack call =>
      dsimp only [Central.rollbackConnectionStart]
      split
      · rename_i d hdev
        split <;> exact .rolledBack call hdev
      · split <;> exact .none
  | failureNoted call =>
      dsimp only [Central.noteFailure]
      split
      · split
        · split <;> exact .failed
        · exact .failed
      · exact .none
  | disconnectAsked call =>
      dsimp only [Central.requestDisconnect]
      split
      · split <;> exact .none
      · exact .none
  | forgetAsked call =>
      dsimp only [Central.requestForget]
      split
      · split
        · exact .removing call
        · split <;> exact .removing call
      · exact .removing call
  | finalized call | removed host =>
      unfold Central.finalizeRemove
      split
      · exact .finalized
      · exact .none
  | linked host =>
      dsimp only [Central.onConnectSuccess]
      split
      · split <;> exact .none
      · exact .none
  | identified host =>
      unfold Central.setPeerAddr
      split
      · exact .addressed
      · exact .none
  | lost host =>
      rename_i found nowMs k handle
      have hwrites : ∀ d,
          (s.central.onDisconnect (s.central.ctxs k).ref handle nowMs).2 = some (some d) →
            Writes s (.host found nowMs)
              (Function.update s.central.devices d ((s.central.devices d).disconnect nowMs)) :=
        fun d lost => .disconnected host lost
      dsimp only [Central.onDisconnect] at hwrites ⊢
      split
      · rename_i hvalid
        rw [if_pos hvalid] at hwrites
        split
        · rename_i d hix
          rw [hix] at hwrites
          dsimp only at hwrites
          split
          · rename_i hu
            rw [if_pos hu] at hwrites
            exact hwrites d rfl
          · exact .none
        · exact .none
      · exact .none
  | discovering host =>
      dsimp only [Central.beginDiscovery]
      split <;> exact .none
  | ready host =>
      unfold Central.setReady
      split <;> exact .none
  | succeeded host =>
      unfold Central.noteSuccess
      split
      · exact .succeeded
      · exact .none
  | reset => exact .reset

variable {t : DeviceIx → Device} {d : DeviceIx} {found : DeviceIx → Prop}

/-- A property of a record and what becomes of it, where one record is written. -/
theorem update_rel {R : DeviceIx → Device → Prop} {e : DeviceIx} {dev : Device}
    (hsame : ∀ d, R d (t d)) (hdev : R e dev) (d : DeviceIx) :
    R d (Function.update t e dev d) := by
  by_cases hde : d = e
  · subst hde
    rw [Function.update_self]
    exact hdev
  · rw [Function.update_of_ne hde]
    exact hsame d

/-! ## Records and their ids -/

/-- A record in use was in use before, under the same id; or its id is new, and finds it. -/
theorem key_of_writes (h : Writes s l t) (d : DeviceIx) (hu : (t d).inUse = true) :
    (s.central.devices d).inUse = true ∧ (t d).deviceId = (s.central.devices d).deviceId ∨
      (s.central.devices d).inUse = false ∧ s.central.find (t d).deviceId = .none ∧
        Directory.lookup Device.inUse Device.deviceId t (t d).deviceId = some d := by
  let R : DeviceIx → Device → Prop := fun d dev => dev.inUse = true →
    (s.central.devices d).inUse = true ∧ dev.deviceId = (s.central.devices d).deviceId
  have hsame : ∀ d, R d (s.central.devices d) := fun d hu => ⟨hu, rfl⟩
  have hkept : ∀ {p : Prop}, R d (t d) → (s.central.devices d).inUse = true ∧
      (t d).deviceId = (s.central.devices d).deviceId ∨ p := fun hr => .inl (hr hu)
  cases h with
  | none => exact hkept (hsame d)
  | registered fresh vacant =>
      rename_i id e
      by_cases hde : d = e
      · subst hde
        rw [Function.update_self]
        exact .inr ⟨vacant, fresh, Directory.lookup_update_new fresh rfl rfl⟩
      · rw [Function.update_of_ne hde] at hu ⊢
        exact .inl ⟨hu, rfl⟩
  | rolledBack call device =>
      refine hkept (update_rel hsame ?_ d)
      unfold Device.rollBack
      split <;> exact fun hu => ⟨hu, rfl⟩
  | disconnected host lost =>
      refine hkept (update_rel hsame ?_ d)
      unfold Device.disconnect
      split <;> exact fun hu => ⟨hu, rfl⟩
  | removing call =>
      refine hkept (update_rel hsame ?_ d)
      unfold Device.remove
      split <;> exact fun hu => ⟨hu, rfl⟩
  | addressed | reserved | failed | succeeded =>
      refine hkept (update_rel hsame ?_ d)
      exact fun hu => ⟨hu, rfl⟩
  | finalized =>
      refine hkept (update_rel hsame ?_ d)
      exact fun hu => by cases hu
  | reset =>
      refine hkept ?_
      dsimp only
      unfold Device.hostReset
      split
      · exact hsame d
      · split
        · exact fun hu => by cases hu
        · exact fun hu => ⟨hu, rfl⟩

/-- A record that the search finds is found as long as it stays in use. -/
theorem find_after (hs : s.step l = some s') {id : DeviceId} (hfind : s.central.find id = some d)
    (hu : (s'.central.devices d).inUse = true) :
    s'.central.find id = some d ∧ (s'.central.devices d).deviceId = id := by
  have hold := Directory.lookup_spec hfind
  have hkept := key_of_writes (writes_of_move (step_move hs))
  have hid : (s'.central.devices d).deviceId = id := by
    rcases hkept d hu with ⟨-, hsame⟩ | ⟨hfree, -⟩
    · rw [hsame]
      exact hold.2
    · rw [hold.1] at hfree
      cases hfree
  refine ⟨Directory.lookup_of_fewer hfind ⟨hu, hid⟩ fun e hue hide => ?_, hid⟩
  rcases hkept e hue with ⟨hue', hsame⟩ | ⟨-, hnone, -⟩
  · exact ⟨hue', hsame ▸ hide⟩
  · -- the new record would have the id of one that is there
    rw [hide, hfind] at hnone
    cases hnone

/-! ## How a record loses its slot -/

/-- The step with this label may leave record `d` REMOVING and without a slot. -/
inductive Detaches (s : Sys) (d : DeviceIx) : Label → Prop
  | already {l : Label} (detached : s.central.Detached d) : Detaches s d l
  | forgotten {k : Nat} {ok : Bool} {nowMs : Int} (call : s.calls[k]? = some (.forget d))
      (slot : (s.central.devices d).connectionSlot = none) : Detaches s d (.call k ok nowMs)
  | rolledBack {k : Nat} {ok : Bool} {nowMs : Int} {caller : Caller} {e : DeviceIx} {ref : Ref}
      {err : Err} (call : s.calls[k]? = some (.rollback caller e ref err))
      (device : s.central.deviceOf ref.slotIndex = some d)
      (removing : (s.central.devices d).state = .removing) : Detaches s d (.call k ok nowMs)
  | disconnected {found : Bool} {nowMs : Int} {k : CtxIx} {handle : UInt16}
      (host : s.host = .disconnected k handle ∨
        s.host = .connectFailed k ∧ handle = (s.central.ctxs k).connHandle)
      (lost : (s.central.onDisconnect (s.central.ctxs k).ref handle nowMs).2 = some (some d))
      (removing : (s.central.devices d).state = .removing) : Detaches s d (.host found nowMs)

theorem detaches_of_writes (h : Writes s l t) (d : DeviceIx) (hu : (t d).inUse = true)
    (hrem : (t d).state = .removing) (hnone : (t d).connectionSlot = none) : Detaches s d l := by
  revert hu hrem hnone
  have hsame : ∀ d, (s.central.devices d).inUse = true → (s.central.devices d).state = .removing →
      (s.central.devices d).connectionSlot = none → Detaches s d l :=
    fun d hu hrem hnone => .already ⟨hu, hrem, hnone⟩
  let R : DeviceIx → Device → Prop := fun d dev =>
    dev.inUse = true → dev.state = .removing → dev.connectionSlot = none → Detaches s d l
  show R d (t d)
  cases h with
  | none => exact hsame d
  | addressed | succeeded =>
      refine update_rel (R := R) hsame ?_ d
      exact hsame _
  | registered | reserved | failed =>
      refine update_rel (R := R) hsame ?_ d
      exact fun _ hrem => by cases hrem
  | rolledBack call device =>
      refine update_rel (R := R) hsame (fun hu hrem _ => .rolledBack call device ?_) d
      unfold Device.rollBack at hrem
      split at hrem
      · cases hrem
      · exact hrem
  | disconnected host lost =>
      refine update_rel (R := R) hsame (fun _ hrem _ => .disconnected host lost ?_) d
      unfold Device.disconnect at hrem
      split at hrem
      · cases hrem
      · rename_i hstate
        exact not_not.mp hstate
  | removing call =>
      refine update_rel (R := R) hsame (fun _ _ hnone => .forgotten call ?_) d
      unfold Device.remove at hnone
      split at hnone <;> exact hnone
  | finalized =>
      refine update_rel (R := R) hsame ?_ d
      exact fun hu => by cases hu
  | reset =>
      intro hu hrem _
      dsimp only at hu hrem
      unfold Device.hostReset at hu hrem
      split at hu
      · rename_i hfree
        rw [hu] at hfree
        cases hfree
      · rename_i hused
        rw [if_neg hused] at hrem
        split at hu
        · cases hu
        · -- the state is the old one or OFFLINE
          rename_i hstate
          rw [if_neg hstate] at hrem
          dsimp only at hrem
          split at hrem
          · cases hrem
          · exact absurd hrem hstate

/-- A record is REMOVING after a forget only. -/
theorem removing_of_writes (h : Writes s l t) (d : DeviceIx) (hrem : (t d).state = .removing) :
    (s.central.devices d).state = .removing ∨ .forget d ∈ s.calls := by
  revert hrem
  let R : DeviceIx → Device → Prop := fun d dev => dev.state = .removing →
    (s.central.devices d).state = .removing ∨ .forget d ∈ s.calls
  have hsame : ∀ d, R d (s.central.devices d) := fun d hrem => .inl hrem
  show R d (t d)
  cases h with
  | none => exact hsame d
  | addressed | succeeded =>
      refine update_rel hsame ?_ d
      exact hsame _
  | registered | reserved | failed | finalized =>
      refine update_rel hsame ?_ d
      exact fun hrem => by cases hrem
  | rolledBack call device =>
      refine update_rel hsame (fun hrem => .inl ?_) d
      unfold Device.rollBack at hrem
      split at hrem
      · cases hrem
      · exact hrem
  | disconnected host lost =>
      refine update_rel hsame (fun hrem => .inl ?_) d
      unfold Device.disconnect at hrem
      split at hrem
      · cases hrem
      · rename_i hstate
        exact not_not.mp hstate
  | removing call =>
      refine update_rel hsame ?_ d
      exact fun _ => .inr (List.mem_of_getElem? call)
  | reset =>
      intro hrem
      dsimp only at hrem
      unfold Device.hostReset at hrem
      split at hrem
      · exact .inl hrem
      · split at hrem
        · cases hrem
        · dsimp only at hrem
          split at hrem
          · cases hrem
          · exact .inl hrem

/-! ## Calls and the host task -/

/-- Some calls are added, none of them a forget of a record that has not been found. -/
def Adds (found : DeviceIx → Prop) (calls calls' : List Call) : Prop :=
  ∃ extra, calls' = calls ++ extra ∧ ∀ d, .forget d ∈ extra → found d

theorem Adds.none (calls : List Call) : Adds found calls calls :=
  ⟨[], (List.append_nil _).symm, fun _ h => by cases h⟩

theorem Adds.one {c : Call} (h : ∀ d, c = .forget d → found d) (calls : List Call) :
    Adds found calls (calls ++ [c]) :=
  ⟨[c], rfl, fun d hd => h d (List.mem_singleton.mp hd).symm⟩

theorem adds_failStart (s : Sys) (caller : Caller) (d : DeviceIx) (err : Err) :
    Adds found s.calls (s.failStart caller d err).calls := by
  unfold failStart
  split
  · exact .one (fun _ h => by cases h) _
  · exact .none _

/-- The next section of a call may lead to others, and leaves the host task alone. -/
theorem adds_callStep (s : Sys) (ok : Bool) (nowMs : Int) (c : Call) :
    Adds (fun _ => False) s.calls (s.callStep ok nowMs c).calls ∧
      (s.callStep ok nowMs c).host = s.host := by
  have hfail : ∀ (s : Sys) caller d err, (s.failStart caller d err).host = s.host := by
    intro s caller d err
    unfold failStart
    split <;> rfl
  cases c with
  | start caller d =>
      simp only [callStep]
      split
      · exact ⟨adds_failStart _ _ _ _, hfail _ _ _ _⟩
      · exact ⟨.one (fun _ h => by cases h) _, rfl⟩
  | getDeviceId caller d ref | getPeerAddr caller d ref | acquire caller d ref =>
      simp only [callStep]
      split <;> exact ⟨.one (fun _ h => by cases h) _, rfl⟩
  | connect | forget =>
      simp only [callStep]
      split
      · exact ⟨.none _, rfl⟩
      · exact ⟨.one (fun _ h => by cases h) _, rfl⟩
  | release caller d ref ctx => exact ⟨.one (fun _ h => by cases h) _, rfl⟩
  | rollback caller d ref err => exact ⟨adds_failStart _ _ _ _, hfail _ _ _ _⟩
  | noteFailure d | disconnect d | finalize d => exact ⟨.none _, rfl⟩

theorem hostStep_calls {found : Bool} {nowMs : Int} (hs : s.hostStep found nowMs = some s') :
    s'.calls = s.calls := by
  have hrelease : ∀ k handle, (s.releaseConnection k handle nowMs).calls = s.calls := by
    intro k handle
    unfold releaseConnection
    split <;> rfl
  unfold hostStep at hs
  split at hs
  · cases hs
  · split at hs
    · dsimp only at hs
      split at hs <;> cases hs
      · split <;> rfl
      · rfl
    · cases hs
      rfl
  · cases hs
    rfl
  · cases hs
    exact hrelease _ _
  · cases hs
    exact hrelease _ _
  · split at hs <;> cases hs <;> rfl
  · split at hs <;> cases hs <;> rfl
  · cases hs
    rfl
  · cases hs
    rfl
  · cases hs
    rfl
  · dsimp only at hs
    split at hs <;> cases hs <;> rfl
  · cases hs
    rfl

/-- Who is running after a step: the call that went on has left the list, and the host task goes
on only by its own steps. -/
theorem step_control (hs : s.step l = some s') :
    (Adds (fun d => ∃ id, l = .forget id ∧ s.central.find id = some d)
        (match l with
          | .call k _ _ => s.calls.eraseIdx k
          | _ => s.calls) s'.calls) ∧
      (s.host ≠ .idle → (∀ found nowMs, l ≠ .host found nowMs) → s'.host = s.host) := by
  cases l with
  | supervise nowMs | request id =>
      dsimp only [step] at hs
      split at hs <;> cases hs
      · exact ⟨.one (fun _ h => by cases h) _, fun _ _ => rfl⟩
      · exact ⟨.none _, fun _ _ => rfl⟩
  | disconnect id =>
      obtain ⟨d, -, rfl⟩ := Option.map_eq_some_iff.mp hs
      exact ⟨.one (fun _ h => by cases h) _, fun _ _ => rfl⟩
  | forget id =>
      obtain ⟨d, hfind, rfl⟩ := Option.map_eq_some_iff.mp hs
      refine ⟨.one (fun e he => ?_) _, fun _ _ => rfl⟩
      obtain rfl := Call.forget.inj he
      exact ⟨id, rfl, hfind⟩
  | call k ok nowMs =>
      dsimp only [step] at hs
      split at hs
      · rename_i c hc
        cases hs
        obtain ⟨⟨extra, hcalls, hextra⟩, hhost⟩ :=
          adds_callStep { s with calls := s.calls.eraseIdx k } ok nowMs c
        exact ⟨⟨extra, hcalls, fun d hd => (hextra d hd).elim⟩, fun _ _ => hhost⟩
      · cases hs
  | connectEvent linked =>
      dsimp only [step] at hs
      split at hs
      · split at hs
        · rename_i hidle
          cases hs
          refine ⟨?_, fun hbusy => absurd hidle hbusy⟩
          dsimp only [connectEvent]
          split <;> split <;> exact .none _
        · cases hs
      · cases hs
  | disconnectEvent k =>
      dsimp only [step] at hs
      split at hs
      · split at hs
        · rename_i hidle
          cases hs
          refine ⟨?_, fun hbusy => absurd hidle hbusy⟩
          dsimp only [disconnectEvent]
          split <;> exact .none _
        · cases hs
      · cases hs
  | encrypted k handle | subscribed k handle =>
      dsimp only [step] at hs
      split at hs
      · split at hs
        · rename_i hidle
          cases hs
          exact ⟨.none _, fun hbusy => absurd hidle hbusy⟩
        · cases hs
      · cases hs
  | host found nowMs =>
      refine ⟨?_, fun _ hl => absurd rfl (hl found nowMs)⟩
      dsimp only
      rw [hostStep_calls hs]
      exact .none _
  | hostReset =>
      dsimp only [step] at hs
      obtain ⟨hidle, ⟨⟩⟩ := Option.ite_none_right_eq_some.mp hs
      exact ⟨.none _, fun hbusy => absurd hidle hbusy⟩

/-! ## Every removal is finalized -/

/-- A record that is being removed, or is about to be, is found under its id; without a slot, its
finalization is due. -/
structure Removals (s : Sys) : Prop where
  found : ∀ d, (s.central.devices d).inUse = true →
    (s.central.devices d).state = .removing ∨ .forget d ∈ s.calls →
      s.central.find (s.central.devices d).deviceId = some d
  due : ∀ d, s.central.Detached d → FinalizeDue s d

theorem Initial.removals (h : s.Initial) : Removals s := by
  have hstate : ∀ d, (s.central.devices d).state ≠ .removing := by
    intro d
    rcases h.devices d with hd | ⟨id, hd⟩ <;> rw [hd] <;> exact nofun
  have hcalls : s.calls = [] := by rw [h.rest]
  constructor
  · rintro d - (hrem | hforget)
    · exact absurd hrem (hstate d)
    · rw [hcalls] at hforget
      cases hforget
  · exact fun d hd => absurd hd.removing (hstate d)

/-- A call of the list stays, unless it goes on. -/
theorem mem_calls_step (hs : s.step l = some s') {c : Call} (hc : c ∈ s.calls) :
    c ∈ s'.calls ∨ ∃ k ok nowMs, l = .call k ok nowMs ∧ s.calls[k]? = some c := by
  obtain ⟨⟨extra, hcalls, -⟩, -⟩ := step_control hs
  rw [hcalls, List.mem_append]
  cases l with
  | call k ok nowMs =>
      by_cases hk : s.calls[k]? = some c
      · exact .inr ⟨k, ok, nowMs, rfl, hk⟩
      · obtain ⟨j, hj⟩ := List.getElem?_of_mem hc
        have hjk : j ≠ k := by
          rintro rfl
          exact hk hj
        exact .inl (.inl (List.mem_eraseIdx_iff_getElem?.mpr ⟨j, hjk, hj⟩))
  | _ => exact .inl (.inl hc)

theorem forget_of_step (hs : s.step l = some s') (hc : .forget d ∈ s'.calls) :
    .forget d ∈ s.calls ∨ ∃ id, s.central.find id = some d := by
  obtain ⟨⟨extra, hcalls, hextra⟩, -⟩ := step_control hs
  rw [hcalls, List.mem_append] at hc
  rcases hc with hc | hc
  · left
    cases l with
    | call k ok nowMs => exact List.mem_of_mem_eraseIdx hc
    | _ => exact hc
  · obtain ⟨id, -, hfind⟩ := hextra d hc
    exact .inr ⟨id, hfind⟩

theorem Removals.found_step (h : Removals s) (hs : s.step l = some s') (d : DeviceIx)
    (hu : (s'.central.devices d).inUse = true)
    (hrem : (s'.central.devices d).state = .removing ∨ .forget d ∈ s'.calls) :
    s'.central.find (s'.central.devices d).deviceId = some d := by
  have hw := writes_of_move (step_move hs)
  rcases key_of_writes hw d hu with ⟨hu₀, hid⟩ | ⟨-, -, hnew⟩
  · -- the search has found the record before
    obtain ⟨id, hfind⟩ : ∃ id, s.central.find id = some d := by
      have hmark : (s.central.devices d).state = .removing ∨ .forget d ∈ s.calls ∨
          ∃ id, s.central.find id = some d := by
        rcases hrem with hrem | hforget
        · rcases removing_of_writes hw d hrem with hrem₀ | hforget
          · exact .inl hrem₀
          · exact .inr (.inl hforget)
        · exact .inr (forget_of_step hs hforget)
      rcases hmark with hrem₀ | hforget | hfind
      · exact ⟨_, h.found d hu₀ (.inl hrem₀)⟩
      · exact ⟨_, h.found d hu₀ (.inr hforget)⟩
      · exact hfind
    obtain ⟨hfind', hid'⟩ := find_after hs hfind hu
    rw [hid']
    exact hfind'
  · exact hnew

theorem hostLabel (h : ¬ ∀ found nowMs, l ≠ .host found nowMs) :
    ∃ found nowMs, l = .host found nowMs := by
  by_contra hno
  exact h fun found nowMs he => hno ⟨found, nowMs, he⟩

/-- What is due is done, or still due. -/
theorem due_step (h : FinalizeDue s d) (hs : s.step l = some s') (hd : s'.central.Detached d)
    (hremoving : (s.central.devices d).state = .removing) :
    FinalizeDue s' d := by
  have hcontrol := (step_control hs).2
  have hfinalize : (s.central.finalizeRemove d).devices = s'.central.devices → False := by
    intro he
    obtain ⟨hu, hrem, -⟩ := hd
    rw [← he] at hu hrem
    unfold Central.finalizeRemove at hu hrem
    split at hu
    · dsimp only [setDevice_devices] at hu
      rw [Function.update_self] at hu
      cases hu
    · rename_i hno
      exact hno ⟨hu, hremoving⟩
  cases h with
  | call call =>
      rcases mem_calls_step hs call with hmem | ⟨k, ok, nowMs, rfl, hk⟩
      · exact .call hmem
      · dsimp only [Sys.step] at hs
        rw [hk] at hs
        cases hs
        exact (hfinalize rfl).elim
  | readState host find =>
      have hbusy : s.host ≠ .idle := by simp [host]
      by_cases hl : ∀ found nowMs, l ≠ .host found nowMs
      · exact .readState ((hcontrol hbusy hl).trans host) (find_after hs find hd.inUse).1
      · -- the mark is there when the host task reads the state
        obtain ⟨found, nowMs, rfl⟩ := hostLabel hl
        replace hs : s.hostStep found nowMs = some s' := hs
        unfold hostStep at hs
        rw [host] at hs
        dsimp only at hs
        rw [if_pos hremoving] at hs
        cases hs
        exact .findRemoved rfl find
  | findRemoved host find =>
      have hbusy : s.host ≠ .idle := by simp [host]
      by_cases hl : ∀ found nowMs, l ≠ .host found nowMs
      · exact .findRemoved ((hcontrol hbusy hl).trans host) (find_after hs find hd.inUse).1
      · obtain ⟨found, nowMs, rfl⟩ := hostLabel hl
        replace hs : s.hostStep found nowMs = some s' := hs
        unfold hostStep at hs
        rw [host] at hs
        dsimp only at hs
        rw [find] at hs
        cases hs
        exact .host rfl
  | host host =>
      have hbusy : s.host ≠ .idle := by simp [host]
      by_cases hl : ∀ found nowMs, l ≠ .host found nowMs
      · exact .host ((hcontrol hbusy hl).trans host)
      · obtain ⟨found, nowMs, rfl⟩ := hostLabel hl
        replace hs : s.hostStep found nowMs = some s' := hs
        unfold hostStep at hs
        rw [host] at hs
        cases hs
        exact (hfinalize rfl).elim

/-- A slot is taken from a record that is being removed only where its finalization comes next. -/
theorem Removals.due_step (h : Removals s) (hok : Unmarked s l) (hs : s.step l = some s')
    (d : DeviceIx) (hd : s'.central.Detached d) : FinalizeDue s' d := by
  have hw := writes_of_move (step_move hs)
  have hdetach := detaches_of_writes hw d hd.inUse hd.removing hd.slot
  cases hdetach with
  | already detached => exact Sys.due_step (h.due d detached) hs hd detached.removing
  | forgotten call slot =>
      dsimp only [Sys.step] at hs
      rw [call] at hs
      cases hs
      refine .call ?_
      dsimp only [callStep, Central.requestForget]
      rw [slot]
      exact List.mem_append_right _ (List.mem_singleton_self _)
  | rolledBack call device removing =>
      dsimp only [Unmarked] at hok
      rw [call] at hok
      exact absurd removing (hok d device)
  | disconnected host lost removing =>
      rename_i found nowMs k handle
      -- the record was in use, and is found under its id
      have hu₀ : (s.central.devices d).inUse = true := by
        dsimp only [Central.onDisconnect] at lost
        split at lost
        · split at lost
          · split at lost
            · rename_i hu
              obtain rfl := Option.some.inj (Option.some.inj lost)
              exact hu
            · cases lost
          · cases lost
        · cases lost
      have hfind := h.found d hu₀ (.inl removing)
      have hhost : s'.host = .readState k d (s.central.devices d).deviceId := by
        have hrelease : (s.releaseConnection k handle nowMs).host =
            .readState k d (s.central.devices d).deviceId := by
          unfold releaseConnection
          generalize s.central.onDisconnect (s.central.ctxs k).ref handle nowMs = r at lost
          obtain ⟨c, released⟩ := r
          obtain rfl : released = some (some d) := lost
          rfl
        replace hs : s.hostStep found nowMs = some s' := hs
        unfold hostStep at hs
        rcases host with host | ⟨host, rfl⟩ <;> rw [host] at hs <;>
          cases hs <;> exact hrelease
      exact .readState hhost (find_after hs hfind hd.inUse).1

theorem Removals.step (h : Removals s) (hok : Unmarked s l) (hs : s.step l = some s') :
    Removals s' where
  found := h.found_step hs
  due := h.due_step hok hs

end Sys

/-- **A record that is being removed has a slot, or a step under way that finalizes it,** as long as
no rollback takes the slot from a record that is being removed. -/
theorem removals_finalized {s : Sys} (hs : machine.ReachableWhen Unmarked s) (d : DeviceIx)
    (hd : s.central.Detached d) : FinalizeDue s d := by
  have hinv : Sys.Removals s :=
    hs.invariant (M := machine) (I := Sys.Removals) (fun _ h => Sys.Initial.removals h)
      fun _ _ _ h hok hstep => Sys.Removals.step h hok hstep
  exact hinv.due d hd

/-! ## A removal that is forgotten -/

/-- The lamp is forgotten while its connection is being started, and the stack refuses to
connect. -/
def forgottenStart : List Label :=
  [.request lamp, .call 0 true 0, .forget lamp, .call 1 true 0] ++
    List.replicate 6 (.call 0 false 0)

instance (c : Central) (d : DeviceIx) : Decidable (c.Detached d) :=
  decidable_of_iff (((c.devices d).inUse = true ∧ (c.devices d).state = .removing) ∧
      (c.devices d).connectionSlot = none)
    ⟨fun ⟨⟨hu, hrem⟩, hnone⟩ => ⟨hu, hrem, hnone⟩, fun hd => ⟨⟨hd.inUse, hd.removing⟩, hd.slot⟩⟩

set_option maxRecDepth 100000 in
/-- Nothing is under way, and the lamp's record is REMOVING without a slot. -/
theorem removal_stranded : ¬ ∀ s, machine.Reachable s → s.calls = [] → s.attempt = none →
    s.links = [] → s.host = .idle → ∀ d, ¬ s.central.Detached d := by
  intro h
  have hrun : (machine.run twoDevices forgottenStart).map (fun s => decide ((s.calls = [] ∧
      s.attempt = none) ∧ (s.links = [] ∧ s.host = .idle) ∧ s.central.Detached lampIx)) =
        some true := by decide +kernel
  obtain ⟨s, hs, hp⟩ := Machine.exists_reachable_of_run twoDevices_initial hrun
  obtain ⟨⟨hcalls, hattempt⟩, ⟨hlinks, hhost⟩, hd⟩ := of_decide_eq_true hp
  exact h s hs hcalls hattempt hlinks hhost lampIx hd

instance (s : Sys) : (l : Label) → Decidable (Unmarked s l)
  | .call k _ _ => by
      unfold Unmarked
      dsimp only
      generalize s.calls[k]? = call
      exact match call with
        | some (.rollback _ _ _ _) => inferInstanceAs (Decidable (∀ d, _ → _))
        | some (.start ..) | some (.getDeviceId ..) | some (.getPeerAddr ..) | some (.acquire ..)
        | some (.connect ..) | some (.release ..) | some (.noteFailure ..) | some (.disconnect ..)
        | some (.forget ..) | some (.finalize ..) | none => instDecidableTrue
  | .supervise _ | .request _ | .disconnect _ | .forget _ | .connectEvent _ | .disconnectEvent _
  | .encrypted .. | .subscribed .. | .host .. | .hostReset => instDecidableTrue

/-- The connected lamp is forgotten, and its link ends. -/
def forgetLamp : List Label :=
  connectLamp ++ [.forget lamp, .call 0 true 0, .disconnectEvent 0, .host true 0]

set_option maxRecDepth 100000 in
theorem removals_finalized_lamp :
    ∃ s : Sys, s.central.Detached lampIx ∧ FinalizeDue s lampIx := by
  have hrun : (machine.runWhen Unmarked twoDevices forgetLamp).map (fun s =>
      decide (s.central.Detached lampIx)) = some true := by decide +kernel
  obtain ⟨s, hs, hp⟩ := Machine.exists_reachableWhen_of_run twoDevices_initial hrun
  exact ⟨s, of_decide_eq_true hp, removals_finalized hs lampIx (of_decide_eq_true hp)⟩

end BleGateway.BleCentral
