import BleGateway.BleCentral.Attempts
import BleGateway.BleCentral.Holders

/-! # The delays between connection attempts

The delay after a failure is the base, doubled for every failure since the last success and capped
at the maximum. The code counts the failures in a `uint8_t`: after 256 failures in a row the
delays begin again with the base.
-/

namespace BleGateway.BleCentral

open Central

/-! ## The law -/

/-- A delay that is doubled `n` times. -/
def doubled : Nat → Int → Int
  | 0, delay => delay
  | n + 1, delay => doubled n (delay * 2)

/-- The delay after a failure that follows `n` others. -/
def lawDelay (n : Nat) : Int := min (doubled n BLE_RETRY_INITIAL_MS) BLE_RETRY_MAX_MS

/-- The largest count of a `uint8_t`, plus one. -/
def RETRY_COUNTS : Nat := 256

variable {delay : Int} {n : Nat}

theorem le_doubled (n : Nat) (h : 0 ≤ delay) : delay ≤ doubled n delay := by
  induction n generalizing delay with
  | zero => exact le_refl _
  | succ n ih =>
      calc delay ≤ delay * 2 := by omega
        _ ≤ doubled n (delay * 2) := ih (by omega)

/-- The loop stops early, where the cap makes no difference. -/
theorem min_backoffLoop (n : Nat) (h : 0 ≤ delay) :
    min (backoffLoop n delay) BLE_RETRY_MAX_MS = min (doubled n delay) BLE_RETRY_MAX_MS := by
  induction n generalizing delay with
  | zero => rfl
  | succ n ih =>
      rw [backoffLoop, doubled]
      by_cases hlt : delay < BLE_RETRY_MAX_MS
      · rw [if_pos hlt]
        exact ih (by omega)
      · rw [if_neg hlt]
        have hle : delay * 2 ≤ doubled n (delay * 2) := le_doubled n (by omega)
        rw [min_eq_right (by omega), min_eq_right (by omega)]

theorem backoffDelayMs_eq (retryCount : UInt8) :
    backoffDelayMs retryCount = lawDelay retryCount.toNat :=
  min_backoffLoop _ (by decide)

/-- From the fifth failure on the delay is the maximum. -/
theorem lawDelay_max (h : 4 ≤ n) : lawDelay n = BLE_RETRY_MAX_MS := by
  obtain ⟨k, rfl⟩ := Nat.exists_eq_add_of_le' h
  have hle : (32000 : Int) ≤ doubled k 32000 := le_doubled k (by decide)
  apply min_eq_right
  calc BLE_RETRY_MAX_MS ≤ 32000 := by decide
    _ ≤ doubled (k + 4) BLE_RETRY_INITIAL_MS := hle

theorem doubled_mono_delay (n : Nat) {a b : Int} (h : a ≤ b) : doubled n a ≤ doubled n b := by
  induction n generalizing a b with
  | zero => exact h
  | succ n ih => exact ih (by omega)

theorem doubled_le_succ (n : Nat) (h : 0 ≤ delay) :
    doubled n delay ≤ doubled (n + 1) delay := by
  rw [doubled]
  exact doubled_mono_delay n (by omega)

/-- The law never takes a delay back. -/
theorem lawDelay_mono {m : Nat} (h : m ≤ n) : lawDelay m ≤ lawDelay n := by
  induction n, h using Nat.le_induction with
  | base => exact le_refl _
  | succ n _ ih =>
      calc lawDelay m ≤ lawDelay n := ih
        _ ≤ lawDelay (n + 1) := min_le_min_right _ (doubled_le_succ n (by decide))

theorem lawDelay_lt (h : n < 4) : lawDelay n < BLE_RETRY_MAX_MS :=
  calc lawDelay n ≤ lawDelay 3 := lawDelay_mono (by omega)
    _ < BLE_RETRY_MAX_MS := by decide

/-- The law for the count that the code keeps. -/
theorem lawDelay_wrapped_iff (n : Nat) :
    lawDelay (n % RETRY_COUNTS) = lawDelay n ↔ n < RETRY_COUNTS ∨ 4 ≤ n % RETRY_COUNTS := by
  constructor
  · intro heq
    by_contra hnot
    rw [not_or, Nat.not_lt, Nat.not_le] at hnot
    have hwide : 4 ≤ n := le_trans (by decide) hnot.1
    have hlt := lawDelay_lt hnot.2
    rw [heq, lawDelay_max hwide] at hlt
    exact lt_irrefl _ hlt
  · rintro (hlt | hmax)
    · rw [Nat.mod_eq_of_lt hlt]
    · rw [lawDelay_max hmax, lawDelay_max (hmax.trans (Nat.mod_le n _))]

/-! ## Failures and successes -/

/-- The record that loses its connection when the reference is reported as disconnected, and waits
for its next attempt. -/
def Central.loses (c : Central) (ref : Ref) (handle : UInt16) (nowMs : Int) :
    Option (DeviceIx × Int) :=
  match (c.onDisconnect ref handle nowMs).2 with
  | some (some d) => if (c.devices d).state ≠ .removing then some (d, nowMs) else none
  | _ => none

namespace Sys

variable (s : Sys)

/-- The connection failure of a step: the record that fails and the time. -/
def failure : Label → Option (DeviceIx × Int)
  | .call k _ nowMs =>
      match s.calls[k]? with
      | some (.rollback _ _ ref _) =>
          (s.central.deviceOf ref.slotIndex).bind fun d =>
            if (s.central.devices d).state = .connecting then some (d, nowMs) else none
      | some (.noteFailure d) =>
          if (s.central.devices d).inUse ∧ (s.central.devices d).state = .connecting then
            some (d, nowMs)
          else none
      | _ => none
  | .host _ nowMs =>
      match s.host with
      | .connectFailed k =>
          s.central.loses (s.central.ctxs k).ref (s.central.ctxs k).connHandle nowMs
      | .disconnected k handle => s.central.loses (s.central.ctxs k).ref handle nowMs
      | _ => none
  | _ => none

/-- The record whose success the step notes. -/
def success : Label → Option DeviceIx
  | .host _ _ =>
      match s.host with
      | .noteSuccess d =>
          if (s.central.devices d).inUse ∧ (s.central.devices d).state ≠ .removing then some d
          else none
      | _ => none
  | _ => none

variable {s} {s' : Sys} {l : Label} {nowMs : Int}

/-- A reported disconnect schedules the next attempt of the record that it releases. -/
theorem loses_spec {c : Central} {ref : Ref} {handle : UInt16} {t : Int} {d : DeviceIx}
    (h : c.loses ref handle nowMs = some (d, t)) :
    t = nowMs ∧ (c.onDisconnect ref handle nowMs).1.devices = Function.update c.devices d
      ({ c.devices d with connectionSlot := none, state := .backoff }.scheduleRetry nowMs) := by
  dsimp only [Central.loses, Central.onDisconnect] at h ⊢
  by_cases hvalid : c.refValid ref = true ∧ (c.slots ref.slotIndex).connHandle = handle
  · rw [if_pos hvalid] at h ⊢
    cases hix : (c.slots ref.slotIndex).deviceIndex with
    | none => simp [hix] at h
    | some e =>
        simp only [hix] at h ⊢
        by_cases hu : (c.devices e).inUse = true
        · simp only [hu, if_true] at h ⊢
          by_cases hrem : (c.devices e).state ≠ .removing
          · rw [if_pos hrem] at h
            cases h
            refine ⟨rfl, ?_⟩
            rw [setDevice_devices, setSlot_devices, Device.disconnect, if_pos hrem]
          · simp [hrem] at h
        · simp [hu] at h
  · simp [hvalid] at h

/-! ## What a step does to the counts -/

theorem rollback_central {k : Nat} {ok : Bool} {caller : Caller} {d : DeviceIx} {ref : Ref}
    {err : Err} (hcall : s.calls[k]? = some (.rollback caller d ref err))
    (hs : s.step (.call k ok nowMs) = some s') :
    s'.central = s.central.rollbackConnectionStart ref nowMs := by
  dsimp only [step] at hs
  rw [hcall] at hs
  rw [← Option.some.inj hs]
  exact failStart_central _ caller d err

theorem noteFailure_central {k : Nat} {ok : Bool} {d : DeviceIx}
    (hcall : s.calls[k]? = some (.noteFailure d)) (hs : s.step (.call k ok nowMs) = some s') :
    s'.central = s.central.noteFailure d nowMs := by
  dsimp only [step] at hs
  rw [hcall] at hs
  rw [← Option.some.inj hs]
  rfl

theorem rollback_scheduled {c : Central} {ref : Ref} {d : DeviceIx}
    (hdev : c.deviceOf ref.slotIndex = some d) (hconn : (c.devices d).state = .connecting)
    (nowMs : Int) : (c.rollbackConnectionStart ref nowMs).devices = Function.update c.devices d
      ({ c.devices d with connectionSlot := none, state := .backoff }.scheduleRetry nowMs) := by
  dsimp only [rollbackConnectionStart]
  rw [hdev]
  dsimp only
  rw [Device.rollBack, if_pos hconn, setDevice_devices]
  split <;> rfl

theorem noteFailure_scheduled {c : Central} {d : DeviceIx}
    (hconn : (c.devices d).inUse = true ∧ (c.devices d).state = .connecting) (nowMs : Int) :
    (c.noteFailure d nowMs).devices = Function.update c.devices d
      ({ c.devices d with connectionSlot := none, state := .backoff }.scheduleRetry nowMs) := by
  dsimp only [noteFailure]
  rw [if_pos hconn, setDevice_devices, Device.fail]
  split
  · split <;> rfl
  · rfl

/-- A failure schedules the next attempt of its record. -/
theorem failure_step {d : DeviceIx} (h : s.failure l = some (d, nowMs)) (hs : s.step l = some s') :
    s'.central.devices = Function.update s.central.devices d
      ({ s.central.devices d with connectionSlot := none, state := .backoff }.scheduleRetry
        nowMs) := by
  cases l with
  | call k ok t =>
      dsimp only [failure] at h
      split at h
      · rename_i caller e ref err hcall
        rw [rollback_central hcall hs]
        obtain ⟨e, hdev, hfail⟩ := Option.bind_eq_some_iff.mp h
        split at hfail
        · rename_i hconn
          obtain ⟨rfl, rfl⟩ := Prod.mk.inj (Option.some.inj hfail)
          exact rollback_scheduled hdev hconn t
        · cases hfail
      · rename_i e hcall
        rw [noteFailure_central hcall hs]
        split at h
        · rename_i hconn
          obtain ⟨rfl, rfl⟩ := Prod.mk.inj (Option.some.inj h)
          exact noteFailure_scheduled hconn t
        · cases h
      · cases h
  | host found t =>
      dsimp only [failure] at h
      dsimp only [step, hostStep] at hs
      split at h
      · rename_i k hhost
        rw [hhost] at hs
        obtain ⟨rfl, hdevices⟩ := loses_spec h
        rw [← Option.some.inj hs, releaseConnection_central, hdevices]
      · rename_i k handle hhost
        rw [hhost] at hs
        obtain ⟨rfl, hdevices⟩ := loses_spec h
        rw [← Option.some.inj hs, releaseConnection_central, hdevices]
      · cases h
  | supervise | request | disconnect | forget | connectEvent | disconnectEvent | encrypted
  | subscribed | hostReset => cases h

/-- A success clears the count of its record. -/
theorem success_step {d : DeviceIx} (h : s.success l = some d) (hs : s.step l = some s') :
    ∃ nowMs, s'.central.devices = Function.update s.central.devices d
      { s.central.devices d with retryCount := 0, lastAttemptMs := nowMs, nextRetryMs := 0 } := by
  cases l with
  | host found t =>
      dsimp only [success] at h
      dsimp only [step, hostStep] at hs
      split at h
      · rename_i e hhost
        rw [hhost] at hs
        obtain ⟨hnoted, ⟨⟩⟩ := Option.ite_none_right_eq_some.mp h
        refine ⟨t, ?_⟩
        rw [← Option.some.inj hs, Central.noteSuccess, if_pos hnoted, setDevice_devices]
      · cases h
  | supervise | request | call | disconnect | forget | connectEvent | disconnectEvent | encrypted
  | subscribed | hostReset => cases h

end Sys

namespace Central

variable {c c' : Central}

/-- Every record that stays in use keeps its count. -/
def SameCounts (c c' : Central) : Prop :=
  ∀ d, (c.devices d).inUse = true → (c'.devices d).inUse = true →
    (c'.devices d).retryCount = (c.devices d).retryCount

theorem SameCounts.of_eq (h : c'.devices = c.devices) : c.SameCounts c' := by
  intro d _ _
  rw [h]

/-- One record is written, and it is new or it keeps its count. -/
theorem SameCounts.update {d : DeviceIx} {dev : Device}
    (h : c'.devices = Function.update c.devices d dev)
    (hdev : (c.devices d).inUse = true → dev.inUse = true →
      dev.retryCount = (c.devices d).retryCount) : c.SameCounts c' := by
  intro e hu hu'
  rw [h] at hu' ⊢
  by_cases hed : e = d
  · subst hed
    rw [Function.update_self] at hu' ⊢
    exact hdev hu hu'
  · rw [Function.update_of_ne hed]

theorem SameCounts.findOrRegister (c : Central) (id : DeviceId) :
    c.SameCounts (c.findOrRegister id).1 := by
  unfold Central.findOrRegister
  split
  · exact .update rfl fun _ _ => rfl
  · split
    · rename_i d hvac
      refine .update rfl fun hu _ => ?_
      rw [Directory.vacant_spec hvac] at hu
      cases hu
    · exact .of_eq rfl

/-- A rollback that finds no record CONNECTING. -/
theorem SameCounts.rollback {ref : Ref} (nowMs : Int)
    (h : ∀ d, c.deviceOf ref.slotIndex = some d → (c.devices d).state ≠ .connecting) :
    c.SameCounts (c.rollbackConnectionStart ref nowMs) := by
  dsimp only [rollbackConnectionStart]
  split
  · rename_i d hdev
    have hkept : ((c.devices d).rollBack nowMs).retryCount = (c.devices d).retryCount := by
      rw [Device.rollBack, if_neg (h d hdev)]
    split <;> exact .update rfl fun _ _ => hkept
  · split <;> exact .of_eq rfl

variable {nowMs : Int}

/-- A reported disconnect of a record that is being removed, or of none. -/
theorem SameCounts.onDisconnect {ref : Ref} {handle : UInt16}
    (h : c.loses ref handle nowMs = none) :
    c.SameCounts (c.onDisconnect ref handle nowMs).1 := by
  dsimp only [Central.loses, Central.onDisconnect] at h ⊢
  split
  · rename_i hvalid
    rw [if_pos hvalid] at h
    split
    · rename_i d hix
      simp only [hix] at h
      split
      · rename_i hu
        simp only [hu, if_true] at h
        have hrem : ¬ (c.devices d).state ≠ .removing := fun hne => by simp [hne] at h
        refine .update rfl fun _ _ => ?_
        rw [Device.disconnect, if_neg hrem]
      · exact .of_eq rfl
    · exact .of_eq rfl
  · exact .of_eq rfl

theorem SameCounts.requestForget (c : Central) (d : DeviceIx) :
    c.SameCounts (c.requestForget d).1 := by
  have hkept : (c.devices d).remove.retryCount = (c.devices d).retryCount := by
    unfold Device.remove
    split <;> rfl
  dsimp only [Central.requestForget]
  split
  · split
    · exact .update rfl fun _ _ => hkept
    · split <;> exact .update rfl fun _ _ => hkept
  · exact .update rfl fun _ _ => hkept

theorem SameCounts.finalizeRemove (c : Central) (d : DeviceIx) :
    c.SameCounts (c.finalizeRemove d) := by
  unfold Central.finalizeRemove
  split
  · refine .update rfl fun _ hu => ?_
    cases hu
  · exact .of_eq rfl

/-- A reset of the host clears times and slots, and leaves the counts. -/
theorem SameCounts.handleHostReset (c : Central) : c.SameCounts c.handleHostReset := by
  intro d _ hu
  dsimp only [Central.handleHostReset] at hu ⊢
  unfold Device.hostReset at hu ⊢
  split
  · rfl
  · rename_i hused
    rw [if_neg hused] at hu
    split
    · rename_i hrem
      rw [if_pos hrem] at hu
      cases hu
    · rfl

end Central

namespace Sys

variable {s s' : Sys} {l : Label}

/-- A step without a failure and without a success keeps the counts. -/
theorem counts_kept (hfail : s.failure l = none) (hsucc : s.success l = none)
    (hs : s.step l = some s') : s.central.SameCounts s'.central := by
  have hmove := step_move hs
  generalize s'.central = c' at hmove ⊢
  cases hmove with
  | same => exact .of_eq rfl
  | nextDevice =>
      apply SameCounts.of_eq
      unfold Central.nextDevice
      split <;> rfl
  | registered => exact .findOrRegister _ _
  | reserved call reserve =>
      obtain ⟨-, -, -, -, -, -, rfl⟩ := Central.reserveConnection_ok reserve
      exact .update rfl fun _ _ => rfl
  | acquired call =>
      apply SameCounts.of_eq
      unfold Central.ctxAcquire
      split
      · split <;> rfl
      · rfl
  | released call | ctxReleased host =>
      apply SameCounts.of_eq
      unfold Central.ctxReleaseByRef
      split <;> rfl
  | rolledBack call =>
      simp only [failure, call, Option.bind_eq_none_iff] at hfail
      refine .rollback _ fun d hdev hconn => ?_
      have hnone := hfail d hdev
      rw [if_pos hconn] at hnone
      cases hnone
  | failureNoted call =>
      simp only [failure, call] at hfail
      split at hfail
      · cases hfail
      · rename_i hconn
        rw [noteFailure_eq hconn]
        exact .of_eq rfl
  | disconnectAsked call =>
      apply SameCounts.of_eq
      dsimp only [Central.requestDisconnect]
      split
      · split <;> rfl
      · rfl
  | forgetAsked call => exact .requestForget _ _
  | finalized call | removed host => exact .finalizeRemove _ _
  | linked host =>
      apply SameCounts.of_eq
      dsimp only [Central.onConnectSuccess]
      split
      · split <;> rfl
      · rfl
  | identified host =>
      unfold Central.setPeerAddr
      split
      · exact .update rfl fun _ _ => rfl
      · exact .of_eq rfl
  | lost host =>
      rename_i found nowMs k handle
      apply SameCounts.onDisconnect
      rcases host with hhost | ⟨hhost, rfl⟩
      · simpa only [failure, hhost] using hfail
      · simpa only [failure, hhost] using hfail
  | discovering host =>
      apply SameCounts.of_eq
      dsimp only [Central.beginDiscovery]
      split <;> rfl
  | ready host =>
      apply SameCounts.of_eq
      unfold Central.setReady
      split <;> rfl
  | succeeded host =>
      simp only [success, host] at hsucc
      split at hsucc
      · cases hsucc
      · rename_i hnot
        unfold Central.noteSuccess
        rw [if_neg hnot]
        exact .of_eq rfl
  | reset => exact .handleHostReset _

/-- A record that gets into use begins to count. -/
theorem count_registered (hs : s.step l = some s') {d : DeviceIx}
    (hu : (s.central.devices d).inUse = false) (hu' : (s'.central.devices d).inUse = true) :
    (s'.central.devices d).retryCount = 0 := by
  have hmove := device_move (step_move hs) d
  generalize s'.central.devices d = dev at hmove hu' ⊢
  -- what keeps the flag leaves the record out of use
  have hsame : dev.inUse = (s.central.devices d).inUse → dev.retryCount = 0 := by
    intro heq
    rw [heq, hu] at hu'
    cases hu'
  cases hmove with
  | registered | finalized | succeeded => rfl
  | same | addressed | reserved | failed => exact hsame rfl
  | rolledBack => exact hsame (Device.rollBack_inUse _ _)
  | disconnected => exact hsame (Device.disconnect_inUse _ _)
  | removing =>
      apply hsame
      unfold Device.remove
      split <;> rfl
  | reset label =>
      apply hsame
      rw [Device.hostReset, hu]
      exact hu

end Sys

/-! ## Runs with the delays written down -/

/-- The component with the delays that each record has got since it was registered and since its
last success. -/
structure Watched where
  sys : Sys
  delays : DeviceIx → List Int := fun _ => []

/-- The delays of a record after a step. -/
def Sys.delaysAfter (s : Sys) (l : Label) (s' : Sys) (d : DeviceIx) (delays : List Int) :
    List Int :=
  if (s.central.devices d).inUse = false ∨ (s'.central.devices d).inUse = false then []
  else
    match s.failure l with
    | some (e, nowMs) =>
        if e = d then delays ++ [(s'.central.devices d).nextRetryMs - nowMs] else delays
    | none => if s.success l = some d then [] else delays

def Watched.step (w : Watched) (l : Label) : Option Watched :=
  (w.sys.step l).map fun s' =>
    { sys := s', delays := fun d => w.sys.delaysAfter l s' d (w.delays d) }

/-- The runs of the component, with the delays. -/
def watched : Machine Watched Label where
  init w := w.sys.Initial ∧ w.delays = fun _ => []
  step := Watched.step

/-- What the counts say of the delays. -/
structure Watched.Counted (w : Watched) : Prop where
  delays : ∀ d i, ∀ delay, (w.delays d)[i]? = some delay → delay = lawDelay (i % RETRY_COUNTS)
  count : ∀ d, (w.sys.central.devices d).inUse = true →
    (w.sys.central.devices d).retryCount.toNat = (w.delays d).length % RETRY_COUNTS

namespace Watched

variable {w w' : Watched} {l : Label}

theorem Counted.init (h : watched.init w) : w.Counted where
  delays := by
    intro d i delay hi
    rw [h.2] at hi
    cases hi
  count := by
    intro d hu
    rw [h.2]
    rcases h.1.devices d with hd | ⟨id, hd⟩ <;> rw [hd] <;> rfl

/-- The next count. -/
theorem count_succ {count : UInt8} (h : count.toNat = n % RETRY_COUNTS) :
    (count + 1).toNat = (n + 1) % RETRY_COUNTS := by
  have hone : UInt8.toNat 1 = 1 := rfl
  have hsize : RETRY_COUNTS = 2 ^ 8 := rfl
  rw [UInt8.toNat_add, h, hone, hsize]
  omega

theorem Counted.step (h : w.Counted) (hs : w.step l = some w') : w'.Counted := by
  obtain ⟨s', hstep, rfl⟩ := Option.map_eq_some_iff.mp hs
  have hrecord : ∀ d, (∀ i delay, (w.sys.delaysAfter l s' d (w.delays d))[i]? = some delay →
      delay = lawDelay (i % RETRY_COUNTS)) ∧ ((s'.central.devices d).inUse = true →
        (s'.central.devices d).retryCount.toNat =
          (w.sys.delaysAfter l s' d (w.delays d)).length % RETRY_COUNTS) := by
    intro d
    have hempty : ∀ i delay, ([] : List Int)[i]? = some delay →
        delay = lawDelay (i % RETRY_COUNTS) := by
      intro i delay hi
      cases hi
    unfold Sys.delaysAfter
    by_cases hunused : (w.sys.central.devices d).inUse = false ∨
        (s'.central.devices d).inUse = false
    · rw [if_pos hunused]
      refine ⟨hempty, fun hu' => ?_⟩
      have hu := hunused.resolve_right (by simp [hu'])
      rw [Sys.count_registered hstep hu hu']
      rfl
    · rw [if_neg hunused]
      rw [not_or, Bool.not_eq_false, Bool.not_eq_false] at hunused
      obtain ⟨hu, hu'⟩ := hunused
      cases hfail : w.sys.failure l with
      | none =>
          cases hsucc : w.sys.success l with
          | none =>
              dsimp only
              rw [if_neg (by simp), Sys.counts_kept hfail hsucc hstep d hu hu']
              exact ⟨h.delays d, fun _ => h.count d hu⟩
          | some e =>
              obtain ⟨nowMs, hdevices⟩ := Sys.success_step hsucc hstep
              dsimp only
              by_cases hed : e = d
              · subst hed
                rw [if_pos rfl, hdevices, Function.update_self]
                exact ⟨hempty, fun _ => rfl⟩
              · rw [if_neg (fun heq => hed (Option.some.inj heq)), hdevices,
                  Function.update_of_ne (Ne.symm hed)]
                exact ⟨h.delays d, fun _ => h.count d hu⟩
      | some failed =>
          obtain ⟨e, nowMs⟩ := failed
          have hdevices := Sys.failure_step hfail hstep
          dsimp only
          by_cases hed : e = d
          · subst hed
            rw [if_pos rfl, hdevices, Function.update_self]
            refine ⟨fun i delay hi => ?_, fun _ => ?_⟩
            · rw [List.getElem?_append] at hi
              split at hi
              · exact h.delays e i delay hi
              · rename_i hge
                have hi' : i = (w.delays e).length := by
                  have hlt := (List.getElem?_eq_some_iff.mp hi).1
                  rw [List.length_singleton] at hlt
                  omega
                subst hi'
                rw [Nat.sub_self] at hi
                have hdelay : nowMs + backoffDelayMs (w.sys.central.devices e).retryCount - nowMs =
                    delay := Option.some.inj hi
                calc delay = backoffDelayMs (w.sys.central.devices e).retryCount := by omega
                  _ = lawDelay ((w.delays e).length % RETRY_COUNTS) := by
                    rw [backoffDelayMs_eq, h.count e hu]
            · rw [List.length_append, List.length_singleton]
              exact count_succ (h.count e hu)
          · rw [if_neg hed, hdevices, Function.update_of_ne (Ne.symm hed)]
            exact ⟨h.delays d, fun _ => h.count d hu⟩
  exact ⟨fun d => (hrecord d).1, fun d => (hrecord d).2⟩

end Watched

/-- **The back-off law.** In every run, the delay after a failure that follows `i` others without a
success between them is the base doubled `i` times and capped, and none of theirs is larger, exactly
when the count is right or beyond the steps of the back-off. -/
theorem backoff_law {w : Watched} (hw : watched.Reachable w) {d : DeviceIx} {i : Nat} {delay : Int}
    (hi : (w.delays d)[i]? = some delay) :
    (delay = lawDelay i ∧ ∀ earlier ∈ (w.delays d).take i, earlier ≤ delay) ↔
      i < RETRY_COUNTS ∨ 4 ≤ i % RETRY_COUNTS := by
  have h : w.Counted :=
    Machine.Reachable.invariant (M := watched) (I := Watched.Counted)
      (fun _ h => .init h) (fun _ _ _ h hs => h.step hs) hw
  have hdelay := h.delays d i delay hi
  rw [← lawDelay_wrapped_iff i, ← hdelay]
  constructor
  · exact And.left
  · intro hlaw
    refine ⟨hlaw, fun earlier hmem => ?_⟩
    obtain ⟨j, hj, hget⟩ := List.mem_take_iff_getElem.mp hmem
    have hlt : j < i := lt_of_lt_of_le hj (min_le_left _ _)
    calc earlier = lawDelay (j % RETRY_COUNTS) := by
          apply h.delays d j
          rw [← hget]
          exact List.getElem?_eq_getElem _
      _ ≤ lawDelay j := lawDelay_mono (Nat.mod_le j _)
      _ ≤ lawDelay i := lawDelay_mono (le_of_lt hlt)
      _ = delay := hlaw.symm

/-! ## Failures without end -/

namespace Central

/-- Record `d` waits for its next attempt, and no connection is open or being opened. -/
structure Waiting (c : Central) (id : DeviceId) (d : DeviceIx) : Prop where
  find : c.find id = some d
  state : (c.devices d).state = .offline ∨ (c.devices d).state = .backoff
  unlinked : ∀ e, (c.devices e).inUse = true → (c.devices e).connectionSlot = none
  slots : ∀ i, (c.slots i).state = .free
  ctxs : ∀ k, (c.ctxs k).inUse = false

/-- The only attempt under way is that for record `d`, under the reference. -/
structure Trying (c : Central) (id : DeviceId) (d : DeviceIx) (ref : Ref) : Prop where
  find : c.find id = some d
  addressed : (c.devices d).hasPeerAddr = true
  state : (c.devices d).state = .connecting
  slot : (c.devices d).connectionSlot = some ref.slotIndex
  unlinked : ∀ e, e ≠ d → (c.devices e).inUse = true → (c.devices e).connectionSlot = none
  live : (c.slots ref.slotIndex).state ≠ .free
  generation : (c.slots ref.slotIndex).generation = ref.generation
  carries : (c.slots ref.slotIndex).deviceIndex = some d
  others : ∀ i, i ≠ ref.slotIndex → (c.slots i).state = .free

variable {c : Central} {id : DeviceId} {d : DeviceIx} {ref : Ref}

theorem find_used (h : c.find id = some d) : (c.devices d).inUse = true :=
  (Directory.lookup_spec h).1

/-- Writing a record under its name does not disturb the search. -/
theorem find_setDevice {dev : Device} (hu : dev.inUse = (c.devices d).inUse)
    (hid : dev.deviceId = (c.devices d).deviceId) (h : c.find id = some d) :
    (c.setDevice d dev).find id = some d :=
  (Directory.lookup_update_same hu hid id).trans h

/-- A request finds the record. -/
theorem Waiting.request (h : Waiting c id d) : ∃ c', c.findOrRegister id = (c', some d) ∧
    Waiting c' id d ∧ (c'.devices d).hasPeerAddr = true := by
  refine ⟨_, by rw [findOrRegister, h.find], ?_, ?_⟩
  · refine ⟨find_setDevice rfl rfl h.find, ?_, ?_, h.slots, h.ctxs⟩
    · rw [setDevice_devices, Function.update_self]
      exact h.state
    · intro e hu
      rw [setDevice_devices] at hu ⊢
      by_cases hed : e = d
      · subst hed
        rw [Function.update_self]
        exact h.unlinked e (find_used h.find)
      · rw [Function.update_of_ne hed] at hu ⊢
        exact h.unlinked e hu
  · rw [setDevice_devices, Function.update_self]

theorem Waiting.firstSlot (h : Waiting c id d) : ∃ i, c.firstSlot .free = some i := by
  apply Option.ne_none_iff_exists'.mp
  intro hnone
  exact firstSlot_eq_none.mp hnone ⟨0, slots_pos⟩ (h.slots _)

/-- A record that waits gets a slot. -/
theorem Waiting.reserve (h : Waiting c id d) (haddr : (c.devices d).hasPeerAddr = true)
    (nowMs : Int) : ∃ c' ref, c.reserveConnection d nowMs = .ok (c', ref) ∧ Trying c' id d ref ∧
      c'.ctxs = c.ctxs := by
  have hu := find_used h.find
  have hnone := h.unlinked d hu
  have hconn : c.firstSlot .connecting = none := by
    rw [firstSlot_eq_none]
    intro i
    rw [h.slots i]
    decide
  obtain ⟨i, hi⟩ := h.firstSlot
  have hbusy : ¬ ((c.devices d).state ≠ .offline ∧ (c.devices d).state ≠ .backoff) := by
    rintro ⟨hoff, hback⟩
    exact h.state.elim hoff hback
  have hok : c.reserveConnection d nowMs =
      .ok ((c.setSlot i ((c.slots i).newLifetime d)).setDevice d ((c.devices d).reserve i nowMs),
        ⟨i, (c.slots i).generation + 1⟩) := by
    dsimp only [reserveConnection]
    rw [if_neg (by simp [hu]), if_neg hbusy, if_neg (by simp [hnone]), if_neg (by simp [hconn]), hi]
    rfl
  refine ⟨_, _, hok, ?_, rfl⟩
  constructor
  · exact find_setDevice rfl rfl h.find
  · rw [setDevice_devices, Function.update_self]
    exact haddr
  · rw [setDevice_devices, Function.update_self]
    rfl
  · rw [setDevice_devices, Function.update_self]
    rfl
  · intro e hed he
    rw [setDevice_devices, Function.update_of_ne hed] at he ⊢
    exact h.unlinked e he
  · rw [setDevice_slots, setSlot_slots, Function.update_self]
    simp [Slot.newLifetime]
  · rw [setDevice_slots, setSlot_slots, Function.update_self]
    rfl
  · rw [setDevice_slots, setSlot_slots, Function.update_self]
    rfl
  · intro j hj
    rw [setDevice_slots, setSlot_slots, Function.update_of_ne hj]
    exact h.slots j

/-- The attempt is the only one with the slot. -/
theorem Trying.deviceOf (h : Trying c id d ref) : c.deviceOf ref.slotIndex = some d := by
  refine Fin.find?_eq_some_iff.mpr ⟨by simp [find_used h.find, h.slot], fun e he => ?_⟩
  have hed : e ≠ d := ne_of_lt he
  cases hu : (c.devices e).inUse with
  | false => rfl
  | true => simp [h.unlinked e hed hu]

/-- When the attempt is rolled back the record waits again. -/
theorem Trying.rollback (h : Trying c id d ref) (hctx : ∀ k, (c.ctxs k).inUse = false)
    (nowMs : Int) : Waiting (c.rollbackConnectionStart ref nowMs) id d := by
  have hvalid : c.refValid ref = true ∧ (c.slots ref.slotIndex).deviceIndex ≠ none := by
    refine ⟨refValid_iff.mpr ⟨h.live, h.generation⟩, ?_⟩
    rw [h.carries]
    simp
  have heq : c.rollbackConnectionStart ref nowMs =
      (c.setSlot ref.slotIndex (c.slots ref.slotIndex).free).setDevice d
        ((c.devices d).rollBack nowMs) := by
    dsimp only [rollbackConnectionStart]
    rw [h.deviceOf, if_pos hvalid]
  rw [heq]
  constructor
  · refine find_setDevice ?_ ?_ h.find
    · exact Device.rollBack_inUse _ _
    · unfold Device.rollBack
      split <;> rfl
  · rw [setDevice_devices, Function.update_self, Device.rollBack, if_pos h.state]
    exact .inr rfl
  · intro e he
    rw [setDevice_devices] at he ⊢
    by_cases hed : e = d
    · subst hed
      rw [Function.update_self]
      exact Device.rollBack_slot _ _
    · rw [Function.update_of_ne hed] at he ⊢
      exact h.unlinked e hed he
  · intro i
    rw [setDevice_slots, setSlot_slots]
    by_cases hi : i = ref.slotIndex
    · subst hi
      rw [Function.update_self]
      rfl
    · rw [Function.update_of_ne hi]
      exact h.others i hi
  · exact hctx

/-- The attempt gets a context, and gives it back. -/
theorem Trying.context (h : Trying c id d ref) (hctx : ∀ k, (c.ctxs k).inUse = false) :
    ∃ c' k, c.ctxAcquire ref = (c', some k) ∧ Trying c' id d ref ∧
      Trying (c'.ctxReleaseByRef ref) id d ref ∧
        ∀ k, ((c'.ctxReleaseByRef ref).ctxs k).inUse = false := by
  have hvalid : c.refValid ref = true := refValid_iff.mpr ⟨h.live, h.generation⟩
  have hsome : (c.ctxAcquire ref).2 ≠ none := by
    rw [ctxAcquire, if_pos hvalid]
    generalize hfree : (Fin.find? fun k => !(c.ctxs k).inUse) = found
    cases found with
    | none =>
        rw [Fin.find?_eq_none_iff] at hfree
        have hused := hfree ⟨0, slots_pos⟩
        rw [hctx] at hused
        cases hused
    | some k => simp
  obtain ⟨k, hk⟩ := Option.ne_none_iff_exists'.mp hsome
  obtain ⟨c', hc'⟩ : ∃ c', c' = (c.ctxAcquire ref).1 := ⟨_, rfl⟩
  have hset := (ctxAcquire_some hk).2
  rw [← hc'] at hset
  refine ⟨c', k, Prod.ext hc'.symm hk, ?_, ?_, ?_⟩
  · rw [hset]
    exact ⟨h.find, h.addressed, h.state, h.slot, h.unlinked, h.live, h.generation, h.carries,
      h.others⟩
  · rw [hset]
    unfold ctxReleaseByRef
    split <;> exact ⟨h.find, h.addressed, h.state, h.slot, h.unlinked, h.live, h.generation,
      h.carries, h.others⟩
  · intro j
    -- the context that was taken is the only one in use
    have hof : c'.ctxOf ref = some k := by
      rw [hset]
      refine Fin.find?_eq_some_iff.mpr ⟨?_, fun i hi => ?_⟩
      · rw [setCtx_ctxs, Function.update_self]
        simp
      · rw [setCtx_ctxs, Function.update_of_ne (ne_of_lt hi), hctx i]
        rfl
    rw [(ctxReleaseByRef_ctxs _ ref j).2, hof]
    split
    · rfl
    · rename_i hnot
      have hjk : j ≠ k := fun heq => hnot (by rw [heq])
      rw [hset, setCtx_ctxs, Function.update_of_ne hjk]
      exact hctx j

end Central

/-- In some run the record has the delays, in state `s`. -/
def Attains (s : Sys) (d : DeviceIx) (delays : List Int) : Prop :=
  ∃ w, watched.Reachable w ∧ w.sys = s ∧ w.delays d = delays

section Attains

variable {s s' : Sys} {l : Label} {d : DeviceIx} {delays : List Int}

theorem watched_step {w : Watched} (hs : w.sys.step l = some s') : watched.step w l =
    some { sys := s', delays := fun e => w.sys.delaysAfter l s' e (w.delays e) } :=
  Option.map_eq_some_iff.mpr ⟨s', hs, rfl⟩

/-- A step without a failure and without a success keeps the delays. -/
theorem Attains.quiet (h : Attains s d delays) (hs : s.step l = some s')
    (hfail : s.failure l = none)
    (hsucc : s.success l = none) (hu : (s.central.devices d).inUse = true)
    (hu' : (s'.central.devices d).inUse = true) : Attains s' d delays := by
  obtain ⟨w, hw, rfl, hdelays⟩ := h
  refine ⟨_, hw.step (watched_step hs), rfl, ?_⟩
  dsimp only
  rw [Sys.delaysAfter, if_neg (by simp [hu, hu']), hfail, hsucc]
  exact hdelays

/-- A failure adds a delay. -/
theorem Attains.failed (h : Attains s d delays) {nowMs : Int} (hs : s.step l = some s')
    (hfail : s.failure l = some (d, nowMs)) (hu : (s.central.devices d).inUse = true)
    (hu' : (s'.central.devices d).inUse = true) :
    Attains s' d (delays ++ [(s'.central.devices d).nextRetryMs - nowMs]) := by
  obtain ⟨w, hw, rfl, hdelays⟩ := h
  refine ⟨_, hw.step (watched_step hs), rfl, ?_⟩
  dsimp only
  rw [Sys.delaysAfter, if_neg (by simp [hu, hu']), hfail, ← hdelays]
  exact if_pos rfl

end Attains

/-- From a state in which the record waits, a request that the stack refuses brings one more
failure. -/
theorem fails_again {c : Central} {id : DeviceId} {d : DeviceIx} {delays : List Int}
    (h : c.Waiting id d) (hat : Attains { central := c } d delays) :
    ∃ c' delay, c'.Waiting id d ∧ Attains { central := c' } d (delays ++ [delay]) := by
  obtain ⟨c₁, hreq, hwait, haddr⟩ := h.request
  obtain ⟨c₂, ref, hres, htry, hctxs⟩ := hwait.reserve haddr 0
  obtain ⟨c₃, k, hacq, htry₃, htry₄, hfree⟩ := htry.context (hctxs ▸ hwait.ctxs)
  obtain ⟨c₄, hc₄⟩ : ∃ c₄, c₄ = c₃.ctxReleaseByRef ref := ⟨_, rfl⟩
  rw [← hc₄] at htry₄ hfree
  have hu₁ := find_used hwait.find
  have hu₂ := find_used htry.find
  have hu₃ := find_used htry₃.find
  have hu₄ := find_used htry₄.find
  -- the request reaches the stack
  have hs₁ : ({ central := c } : Sys).step (.request id) =
      some { central := c₁, calls := [.start .request d] } := by
    dsimp only [Sys.step]
    rw [hreq]
    rfl
  have hs₂ : ({ central := c₁, calls := [.start .request d] } : Sys).step (.call 0 true 0) =
      some { central := c₂, calls := [.getDeviceId .request d ref] } := by
    dsimp only [Sys.step, List.getElem?_cons_zero, List.eraseIdx_cons_zero, Sys.callStep]
    rw [hres]
    rfl
  have hs₃ : ({ central := c₂, calls := [.getDeviceId .request d ref] } : Sys).step
      (.call 0 true 0) = some { central := c₂, calls := [.getPeerAddr .request d ref] } := by
    dsimp only [Sys.step, List.getElem?_cons_zero, List.eraseIdx_cons_zero, Sys.callStep]
    rw [if_pos hu₂]
    rfl
  have hs₄ : ({ central := c₂, calls := [.getPeerAddr .request d ref] } : Sys).step
      (.call 0 true 0) = some { central := c₂, calls := [.acquire .request d ref] } := by
    dsimp only [Sys.step, List.getElem?_cons_zero, List.eraseIdx_cons_zero, Sys.callStep]
    rw [if_pos ⟨hu₂, htry.addressed⟩]
    rfl
  have hs₅ : ({ central := c₂, calls := [.acquire .request d ref] } : Sys).step
      (.call 0 true 0) = some { central := c₃, calls := [.connect .request d ref k] } := by
    dsimp only [Sys.step, List.getElem?_cons_zero, List.eraseIdx_cons_zero, Sys.callStep]
    rw [hacq]
    rfl
  -- the stack refuses, and the attempt is rolled back
  have hs₆ : ({ central := c₃, calls := [.connect .request d ref k] } : Sys).step
      (.call 0 false 0) = some { central := c₃, calls := [.release .request d ref k] } := rfl
  have hs₇ : ({ central := c₃, calls := [.release .request d ref k] } : Sys).step
      (.call 0 true 0) = some { central := c₄, calls := [.rollback .request d ref .stack] } := by
    rw [hc₄]
    rfl
  have hs₈ : ({ central := c₄, calls := [.rollback .request d ref .stack] } : Sys).step
      (.call 0 true 0) = some { central := c₄.rollbackConnectionStart ref 0 } := rfl
  have hfail : ({ central := c₄, calls := [.rollback .request d ref .stack] } : Sys).failure
      (.call 0 true 0) = some (d, 0) := by
    dsimp only [Sys.failure, List.getElem?_cons_zero]
    rw [htry₄.deviceOf, Option.bind_some, if_pos htry₄.state]
  have hrefused : Attains { central := c₃, calls := [.connect .request d ref k] } d delays := by
    have hat₁ := hat.quiet hs₁ rfl rfl (find_used h.find) hu₁
    have hat₂ := hat₁.quiet hs₂ rfl rfl hu₁ hu₂
    have hat₃ := hat₂.quiet hs₃ rfl rfl hu₂ hu₂
    have hat₄ := hat₃.quiet hs₄ rfl rfl hu₂ hu₂
    exact hat₄.quiet hs₅ rfl rfl hu₂ hu₃
  have hreleased : Attains { central := c₄, calls := [.rollback .request d ref .stack] } d
      delays := by
    have hat₆ := hrefused.quiet hs₆ rfl rfl hu₃ hu₃
    exact hat₆.quiet hs₇ rfl rfl hu₃ hu₄
  have hback := htry₄.rollback hfree 0
  exact ⟨_, _, hback, hreleased.failed hs₈ hfail hu₄ (find_used hback.find)⟩

/-- There is no bound on the failures in a row. -/
theorem fails_forever (n : Nat) : ∃ w, watched.Reachable w ∧ (w.delays lampIx).length = n := by
  have hmany : ∃ c delays, Central.Waiting c lamp lampIx ∧ Attains { central := c } lampIx delays ∧
      delays.length = n := by
    induction n with
    | zero =>
        refine ⟨twoDevices.central, [], ?_, ⟨{ sys := twoDevices },
          .init ⟨twoDevices_initial, rfl⟩, rfl, rfl⟩, rfl⟩
        exact ⟨by decide +kernel, .inl (by decide +kernel), by decide +kernel, fun _ => rfl,
          fun _ => rfl⟩
    | succ n ih =>
        obtain ⟨c, delays, hwait, hat, hlen⟩ := ih
        obtain ⟨c', delay, hwait', hat'⟩ := fails_again hwait hat
        refine ⟨c', _, hwait', hat', ?_⟩
        rw [List.length_append, hlen, List.length_singleton]
  obtain ⟨c, delays, -, ⟨w, hw, -, hdelays⟩, hlen⟩ := hmany
  exact ⟨w, hw, hdelays ▸ hlen⟩

/-- After 256 failures the delays begin again with the base. -/
theorem backoff_starts_over : ¬ ∀ w, watched.Reachable w → ∀ d i delay,
    (w.delays d)[i]? = some delay →
      delay = lawDelay i ∧ ∀ earlier ∈ (w.delays d).take i, earlier ≤ delay := by
  intro h
  obtain ⟨w, hw, hlen⟩ := fails_forever 257
  have hcounted : w.Counted :=
    Machine.Reachable.invariant (M := watched) (I := Watched.Counted)
      (fun _ h => .init h) (fun _ _ _ h hs => h.step hs) hw
  have hget : (w.delays lampIx)[256]? = some (w.delays lampIx)[256] :=
    List.getElem?_eq_getElem (by omega)
  have hbase := hcounted.delays lampIx 256 _ hget
  rw [(h w hw lampIx 256 _ hget).1, lawDelay_max (by decide)] at hbase
  exact absurd hbase (by decide)

/-- The law holds again for the fifth failure after them. -/
theorem backoff_law_wrapped : ∃ w delay, watched.Reachable w ∧
    (w.delays lampIx)[260]? = some delay ∧ delay = lawDelay 260 ∧
      ∀ earlier ∈ (w.delays lampIx).take 260, earlier ≤ delay := by
  obtain ⟨w, hw, hlen⟩ := fails_forever 261
  have hget : (w.delays lampIx)[260]? = some (w.delays lampIx)[260] :=
    List.getElem?_eq_getElem (by omega)
  exact ⟨w, _, hw, hget, (backoff_law hw hget).mpr (.inr (by decide))⟩

end BleGateway.BleCentral
