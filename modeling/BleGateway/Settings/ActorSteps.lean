import BleGateway.Settings.Actor

/-! # The operations in the rounds of the actor

What an event can do to the operation records: it ends the active operation or leaves it in its
record, and starts no other than the first queued one. Commands are submitted for the active
operation only.
-/

namespace BleGateway.Settings

/-- The event cancels the work of the device. -/
def ActorEvent.cancels (id : DeviceId) : ActorEvent → Bool
  | .cancelDevice k | .forgetDevice k | .disconnected k => k = id
  | _ => false

namespace Actor

variable {a : Actor} {op : ActiveOp}

/-- The record of the active operation is in use. -/
def Sound (a : Actor) : Prop := ∀ op, a.active = some op → (a.ops op.slot).active = true

/-- No record has been taken, and none has changed its device. -/
def Tame (a a' : Actor) : Prop :=
  ∀ slot, (a'.ops slot).active = true →
    (a.ops slot).active = true ∧ (a'.ops slot).deviceId = (a.ops slot).deviceId

theorem Tame.refl (a : Actor) : a.Tame a := fun _ h => ⟨h, rfl⟩

theorem Tame.trans {a₁ a₂ a₃ : Actor} (h : a₁.Tame a₂) (h' : a₂.Tame a₃) : a₁.Tame a₃ := by
  intro slot hslot
  obtain ⟨hused', hid'⟩ := h' slot hslot
  obtain ⟨hused, hid⟩ := h slot hused'
  exact ⟨hused, hid'.trans hid⟩

/-- What every part of a round keeps. -/
structure Follows (a a' : Actor) : Prop where
  sound : a'.Sound
  tame : a.Tame a'
  events : a'.events = a.events

theorem Follows.trans {a₁ a₂ a₃ : Actor} (h : a₁.Follows a₂) (h' : a₂.Follows a₃) : a₁.Follows a₃ :=
  ⟨h'.sound, h.tame.trans h'.tame, h'.events.trans h.events⟩

theorem Sound.follows (h : a.Sound) : a.Follows a := ⟨h, .refl a, rfl⟩

theorem setOp_self (a : Actor) (i : OpIx) (r : OpRecord) : (a.setOp i r).ops i = r := by
  show Function.update a.ops i r i = r
  rw [Function.update_self]

theorem setOp_of_ne (a : Actor) {i j : OpIx} (h : j ≠ i) (r : OpRecord) :
    (a.setOp i r).ops j = a.ops j := by
  show Function.update a.ops i r j = a.ops j
  rw [Function.update_of_ne h]

theorem tame_setOp {i : OpIx} {r : OpRecord}
    (hr : r.active = true → (a.ops i).active = true ∧ r.deviceId = (a.ops i).deviceId) :
    a.Tame (a.setOp i r) := by
  intro slot hslot
  by_cases hi : slot = i
  · rw [hi, setOp_self] at hslot ⊢
    exact hr hslot
  · rw [setOp_of_ne a hi] at hslot ⊢
    exact ⟨hslot, rfl⟩

/-- The record of an operation is written in place. -/
theorem follows_setOp (h : a.Sound) {i : OpIx} {r : OpRecord}
    (hr : r.active = (a.ops i).active) (hid : r.deviceId = (a.ops i).deviceId) :
    a.Follows (a.setOp i r) := by
  refine ⟨fun op hop => ?_, tame_setOp fun hused => ⟨hr.symm.trans hused, hid⟩, rfl⟩
  have hused : (a.ops op.slot).active = true := h op hop
  by_cases hi : op.slot = i
  · rw [hi, setOp_self]
    exact hr.trans (hi ▸ hused)
  · rwa [setOp_of_ne a hi]

theorem follows_setActive (hused : (a.ops op.slot).active = true) : a.Follows (a.setActive op) := by
  refine ⟨fun op' hop' => ?_, .refl a, rfl⟩
  rw [← Option.some.inj hop']
  exact hused

theorem follows_finishActive (h : a.Sound) (result : OpResult) :
    a.Follows (a.finishActive result).1 := by
  rw [finishActive]
  cases hop : a.active with
  | none => exact h.follows
  | some op =>
      have htame : ({ a with active := none } : Actor).Tame
          (setOp { a with active := none } op.slot { a.ops op.slot with
            active := false
            state := if (a.ops op.slot).active then .idle else (a.ops op.slot).state }) :=
        tame_setOp fun hused => by cases hused
      exact ⟨fun op' hop' => (by cases hop'), htame, rfl⟩

/-- The operation has ended when it is finished. -/
theorem finishActive_slot (hop : a.active = some op) (result : OpResult) :
    ((a.finishActive result).1.ops op.slot).active = false := by
  rw [finishActive, hop]
  dsimp only
  rw [setOp_self]

theorem matching_spec {cookie : Cookie} (h : a.matching cookie = some op) :
    a.active = some op ∧ op.cookie = cookie := by
  obtain ⟨hop, hcookie⟩ := Option.filter_eq_some_iff.mp h
  exact ⟨hop, of_decide_eq_true hcookie⟩

/-! ## The functions -/

theorem follows_scheduleRetry (h : a.Sound) (hused : (a.ops op.slot).active = true) :
    a.Follows (a.scheduleRetry op).1 := by
  rw [scheduleRetry]
  split
  · exact follows_finishActive h .failed
  · exact follows_setActive hused

theorem follows_submitOrRetry (h : a.Sound) (hused : (a.ops op.slot).active = true)
    (submitted : Bool) : a.Follows (a.submitOrRetry op submitted).1 := by
  rw [submitOrRetry]
  split
  · exact follows_setActive hused
  · exact follows_scheduleRetry h hused

theorem queued_spec {i : OpIx} (h : a.queued = some i) :
    (a.ops i).active = true ∧ (a.ops i).state = .queued := by
  simpa using (Fin.find?_eq_some_iff.mp h).1

theorem follows_handleStart (h : a.Sound) (acquired : Bool) :
    a.Follows (a.handleStart acquired).1 := by
  rw [handleStart]
  split
  · rename_i i hnone hi
    dsimp only
    have hset {op : ActiveOp} (hslot : op.slot = i) : a.Follows (a.setActive op) :=
      follows_setActive (hslot ▸ (queued_spec hi).1)
    split
    · exact hset rfl
    · exact (hset rfl).trans (follows_finishActive (hset rfl).sound .internal)
  · exact h.follows

theorem follows_handleLease (h : a.Sound) (cookie : Cookie) (ok : Bool) (lease : UInt32)
    (submitted : Bool) : a.Follows (a.handleLease cookie ok lease submitted).1 := by
  rw [handleLease]
  split
  · exact h.follows
  · rename_i op hmatch
    have hused := h op (matching_spec hmatch).1
    split
    · exact follows_finishActive h .internal
    · have hset : a.Follows (a.setActive { op with lease := lease }) := follows_setActive hused
      dsimp only
      split
      · have hwait : a.Follows (a.setActive { op with lease := lease, phase := .waitCommand }) :=
          follows_setActive hused
        exact hwait.trans (follows_setOp hwait.sound rfl rfl)
      · exact hset.trans (follows_scheduleRetry hset.sound hused)

theorem follows_completeReadIfReady (hused : (a.ops op.slot).active = true) :
    a.Follows (a.completeReadIfReady op).1 := by
  have hset : a.Follows (a.setActive op) := follows_setActive hused
  rw [completeReadIfReady]
  split
  · exact hset.trans (follows_finishActive hset.sound _)
  · exact hset

theorem follows_handleCommand (h : a.Sound) (cookie : Cookie) (status : DeviceCommandStatus)
    (submitted : Bool) : a.Follows (a.handleCommand cookie status submitted).1 := by
  rw [handleCommand]
  split
  · exact h.follows
  · rename_i op hmatch
    have hused := h op (matching_spec hmatch).1
    cases status with
    | ok =>
        dsimp only
        split
        · have hset : a.Follows (a.setOp op.slot { a.ops op.slot with kind := .get }) :=
            follows_setOp h rfl rfl
          refine hset.trans (follows_submitOrRetry hset.sound ?_ submitted)
          rwa [setOp_self]
        · exact follows_completeReadIfReady hused
    | busy => exact follows_scheduleRetry h hused
    | timeout => exact follows_finishActive h .timeout
    | rejected => exact follows_finishActive h .rejected
    | _ => exact follows_finishActive h .internal

theorem follows_handleValues (h : a.Sound) (id : DeviceId) (success : Bool) :
    a.Follows (a.handleValues id success).1 := by
  rw [handleValues]
  split
  · exact h.follows
  · rename_i op hop
    split
    · exact follows_completeReadIfReady (h op hop)
    · exact h.follows

theorem follows_handleRetry (h : a.Sound) (cookie : Cookie) (submitted : Bool) :
    a.Follows (a.handleRetry cookie submitted).1 := by
  rw [handleRetry]
  split
  · exact h.follows
  · rename_i op hmatch
    exact follows_submitOrRetry h (h op (matching_spec hmatch).1) submitted

theorem follows_cancelActive (h : a.Sound) (id : DeviceId) : a.Follows (a.cancelActive id).1 := by
  rw [cancelActive]
  split
  · exact h.follows
  · rename_i op hop
    dsimp only
    split
    · have hset : a.Follows (a.setOp op.slot
          { a.ops op.slot with generation := (a.ops op.slot).generation + 1 }) :=
        follows_setOp h rfl rfl
      exact hset.trans (follows_finishActive hset.sound .internal)
    · exact h.follows

theorem follows_cancelDevice (h : a.Sound) (id : DeviceId) (acquired : Bool) :
    a.Follows (a.cancelDevice id acquired).1 :=
  (follows_cancelActive h id).trans (follows_handleStart (follows_cancelActive h id).sound acquired)

/-- **A round** ends operations and begins none that was not requested. -/
theorem follows_handle (h : a.Sound) (acquired submitted : Bool) (event : ActorEvent) :
    a.Follows (a.handle acquired submitted event).1 := by
  cases event with
  | startOperation => exact follows_handleStart h acquired
  | leaseResult cookie ok lease origin => exact follows_handleLease h cookie ok lease submitted
  | commandComplete cookie status origin => exact follows_handleCommand h cookie status submitted
  | valuesStreamComplete id success => exact follows_handleValues h id success
  | retryTimer cookie origin => exact follows_handleRetry h cookie submitted
  | disconnected id => exact follows_cancelDevice h id acquired
  | cancelDevice id => exact follows_cancelDevice h id acquired
  | forgetDevice id => exact follows_cancelDevice h id acquired
  | txLeaseResult | txCommandComplete | transactionStart | transactionAbort | transactionTimeout =>
      exact h.follows

/-! ## Submitted commands -/

/-- No command is submitted but for the active operation. -/
def OpAction.of (a : Actor) : OpAction → Prop
  | .submit slot _ _ _ => a.active.map (·.slot) = some slot
  | _ => True

/-- No command is submitted. -/
def OpAction.quiet : OpAction → Prop
  | .submit .. => False
  | _ => True

theorem finishActive_quiet (result : OpResult) :
    ∀ x ∈ (a.finishActive result).2, OpAction.quiet x := by
  rw [finishActive]
  cases a.active with
  | none => exact fun x hx => by cases hx
  | some op =>
      intro x hx
      simp only [List.mem_append, List.mem_cons, releaseLease] at hx
      rcases hx with (rfl | hx) | hx
      · trivial
      · split at hx
        · cases hx
        · rw [List.mem_singleton.mp hx]
          trivial
      · split at hx
        · rw [List.mem_singleton.mp hx]
          trivial
        · cases hx

theorem scheduleRetry_quiet : ∀ x ∈ (a.scheduleRetry op).2, OpAction.quiet x := by
  rw [scheduleRetry]
  split
  · exact finishActive_quiet .failed
  · intro x hx
    rw [List.mem_singleton.mp hx]
    trivial

theorem handleStart_quiet (acquired : Bool) :
    ∀ x ∈ (a.handleStart acquired).2, OpAction.quiet x := by
  rw [handleStart]
  split
  · dsimp only
    split
    · intro x hx
      rw [List.mem_singleton.mp hx]
      trivial
    · intro x hx
      rcases List.mem_cons.mp hx with heq | hx
      · rw [heq]
        trivial
      · exact finishActive_quiet .internal x hx
  · exact fun x hx => by cases hx

theorem OpAction.quiet.of {x : OpAction} (h : OpAction.quiet x) : OpAction.of a x := by
  cases x with
  | submit slot id kind accepted => exact h.elim
  | _ => trivial

theorem submitCommand_of (hop : a.active.map (·.slot) = some op.slot) (a' : Actor)
    (submitted : Bool) :
    ∀ x ∈ (a'.submitCommand op submitted).2, OpAction.of a x := by
  rw [submitCommand]
  split
  · exact fun x hx => by cases hx
  · intro x hx
    rw [List.mem_singleton.mp hx]
    exact hop

theorem submitOrRetry_of (hop : a.active.map (·.slot) = some op.slot) (a' : Actor)
    (submitted : Bool) :
    ∀ x ∈ (a'.submitOrRetry op submitted).2, OpAction.of a x := by
  have hsubmit := submitCommand_of hop a' submitted
  rw [submitOrRetry]
  cases hr : a'.submitCommand op submitted with
  | mk done actions =>
      rw [hr] at hsubmit
      cases done with
      | true => exact hsubmit
      | false =>
          intro x hx
          rcases List.mem_append.mp hx with hx | hx
          · exact hsubmit x hx
          · exact (scheduleRetry_quiet x hx).of

theorem completeReadIfReady_quiet : ∀ x ∈ (a.completeReadIfReady op).2, OpAction.quiet x := by
  rw [completeReadIfReady]
  split
  · exact finishActive_quiet _
  · exact fun x hx => by cases hx

theorem cancelDevice_quiet (id : DeviceId) (acquired : Bool) :
    ∀ x ∈ (a.cancelDevice id acquired).2, OpAction.quiet x := by
  intro x hx
  rcases List.mem_append.mp hx with hx | hx
  · change x ∈ (a.cancelActive id).2 at hx
    unfold cancelActive at hx
    split at hx
    · cases hx
    · dsimp only at hx
      split at hx
      · exact finishActive_quiet .internal x hx
      · cases hx
  · exact handleStart_quiet acquired x hx

/-- **Commands** are submitted for the active operation only, and not when work is cancelled. -/
theorem handle_of (acquired submitted : Bool) (event : ActorEvent) :
    ∀ x ∈ (a.handle acquired submitted event).2,
      OpAction.of a x ∧ ((∃ id, event.cancels id = true) → OpAction.quiet x) := by
  have hactive {op : ActiveOp} {cookie : Cookie} (hmatch : a.matching cookie = some op) :
      a.active.map (·.slot) = some op.slot := by
    rw [(matching_spec hmatch).1]
    rfl
  have hquiet {x : OpAction} (h : OpAction.quiet x) {P : Prop} :
      OpAction.of a x ∧ (P → OpAction.quiet x) := ⟨h.of, fun _ => h⟩
  intro x hx
  cases event with
  | startOperation => exact hquiet (handleStart_quiet acquired x hx)
  | leaseResult cookie ok lease origin =>
      refine ⟨?_, fun ⟨id, hid⟩ => by cases hid⟩
      change x ∈ (a.handleLease cookie ok lease submitted).2 at hx
      rw [handleLease] at hx
      split at hx
      · split at hx
        · cases hx
        · rw [List.mem_singleton.mp hx]
          trivial
      · rename_i op hmatch
        split at hx
        · exact (finishActive_quiet .internal x hx).of
        · have hslot := hactive hmatch
          have hsubmit := @submitCommand_of a { op with lease := lease } hslot
            (a.setActive { op with lease := lease }) submitted
          dsimp only at hx
          split at hx
          · rename_i hr
            rw [hr] at hsubmit
            exact hsubmit x hx
          · rename_i hr
            rw [hr] at hsubmit
            rcases List.mem_append.mp hx with hx | hx
            · exact hsubmit x hx
            · exact (scheduleRetry_quiet x hx).of
  | commandComplete cookie status origin =>
      refine ⟨?_, fun ⟨id, hid⟩ => by cases hid⟩
      change x ∈ (a.handleCommand cookie status submitted).2 at hx
      rw [handleCommand] at hx
      split at hx
      · cases hx
      · rename_i op hmatch
        cases status with
        | ok =>
            dsimp only at hx
            split at hx
            · exact submitOrRetry_of (hactive hmatch) _ submitted x hx
            · exact (completeReadIfReady_quiet x hx).of
        | busy => exact (scheduleRetry_quiet x hx).of
        | timeout => exact (finishActive_quiet .timeout x hx).of
        | rejected => exact (finishActive_quiet .rejected x hx).of
        | _ => exact (finishActive_quiet .internal x hx).of
  | valuesStreamComplete id success =>
      change x ∈ (a.handleValues id success).2 at hx
      rw [handleValues] at hx
      split at hx
      · cases hx
      · split at hx
        · exact hquiet (completeReadIfReady_quiet x hx)
        · cases hx
  | retryTimer cookie origin =>
      refine ⟨?_, fun ⟨id, hid⟩ => by cases hid⟩
      change x ∈ (a.handleRetry cookie submitted).2 at hx
      rw [handleRetry] at hx
      split at hx
      · cases hx
      · rename_i op hmatch
        exact submitOrRetry_of (hactive hmatch) a submitted x hx
  | disconnected id => exact hquiet (cancelDevice_quiet id acquired x hx)
  | cancelDevice id => exact hquiet (cancelDevice_quiet id acquired x hx)
  | forgetDevice id => exact hquiet (cancelDevice_quiet id acquired x hx)
  | txLeaseResult | txCommandComplete | transactionStart | transactionAbort | transactionTimeout =>
      cases hx

/-! ## Cancelling -/

/-- The work of the device is found: it is the active operation, or there is none and the one that
would start now gets no lease. -/
def Finds (a : Actor) (acquired : Bool) (id : DeviceId) : Prop :=
  ∀ slot, (a.ops slot).active = true → (a.ops slot).deviceId = id →
    a.active.map (·.slot) = some slot ∨ (a.active = none ∧ a.queued = some slot ∧ acquired = false)

instance (a : Actor) (acquired : Bool) (id : DeviceId) : Decidable (a.Finds acquired id) := by
  unfold Finds
  infer_instance

/-- **Work that is found is ended.** -/
theorem cancelDevice_ends (h : a.Sound) {acquired : Bool} {id : DeviceId}
    (hfinds : a.Finds acquired id) {slot : OpIx}
    (hslot : ((a.cancelDevice id acquired).1.ops slot).active = true) :
    ((a.cancelDevice id acquired).1.ops slot).deviceId ≠ id := by
  intro hid
  have hcancel := follows_cancelActive h id
  have hstart := follows_handleStart hcancel.sound acquired
  obtain ⟨hused', hid'⟩ := hstart.tame slot hslot
  obtain ⟨hused, hid''⟩ := hcancel.tame slot hused'
  have hdevice : (a.ops slot).deviceId = id := (hid'.trans hid'').symm.trans hid
  rcases hfinds slot hused hdevice with hactive | hqueued
  · -- the active operation has been finished
    obtain ⟨op, hop, rfl⟩ := Option.map_eq_some_iff.mp hactive
    rw [cancelActive, hop] at hused'
    dsimp only at hused'
    rw [if_pos hdevice] at hused'
    refine absurd hused' ?_
    rw [Bool.not_eq_true]
    generalize hnext : a.setOp op.slot _ = a'
    have hop' : a'.active = some op := hnext ▸ hop
    exact finishActive_slot hop' .internal
  · -- it has been started and refused
    obtain ⟨hnone, hqueued, rfl⟩ := hqueued
    have hsame : a.cancelActive id = (a, []) := by
      rw [cancelActive, hnone]
    rw [cancelDevice, hsame] at hslot
    dsimp only at hslot
    rw [handleStart, hnone, hqueued] at hslot
    refine absurd hslot ?_
    rw [Bool.not_eq_true]
    have hended {op : ActiveOp} (hop : op.slot = slot) :
        (((a.setActive op).finishActive .internal).1.ops slot).active = false :=
      hop ▸ finishActive_slot rfl .internal
    exact hended rfl

end Actor

end BleGateway.Settings
