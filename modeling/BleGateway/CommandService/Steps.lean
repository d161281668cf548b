import BleGateway.CommandService.Dispatch

/-! # What the task of the command service can do

One inversion lemma for a step of the task: it leaves the commands alone, completes a pending
one, refuses a submitted one, or makes a submitted one pending.
-/

namespace BleGateway.CommandService

variable {κ : Type}

/-- The validation, the link and the transport let the command through. -/
def Dcs.SubmitAnswers.passes (a : Dcs.SubmitAnswers) : Bool :=
  a.validation = .ok && a.connected && a.sent

/-- What a step of the task does to the submitted and the pending commands. -/
inductive TaskMove (d : Dcs κ) (a : Dcs.SubmitAnswers) (d' : Dcs κ) : Option (Done κ) → Prop
  | same : d'.normalQueue = d.normalQueue → d'.pending = d.pending → TaskMove d a d' none
  | completed {i : PendingIx} {p : Pending κ} (result : DeviceCommandResult) :
      d.pending i = some p → d'.normalQueue = d.normalQueue →
      d'.pending = Function.update d.pending i none → TaskMove d a d' (some (p.callback, result))
  | refused {e : SubmitEvent κ} (result : DeviceCommandResult) :
      d.normalQueue = e :: d'.normalQueue → d'.pending = d.pending →
      TaskMove d a d' (some (e.callback, result))
  | admitted {e : SubmitEvent κ} {i : PendingIx} {p : Pending κ} :
      d.task = .receive → a.passes = true → d.normalQueue = e :: d'.normalQueue →
      d.pending i = none → p.callback = e.callback → p.deviceId = e.request.deviceId →
      d'.pending = Function.update d.pending i (some p) → TaskMove d a d' none

namespace Dcs

variable {d d' : Dcs κ} {a : SubmitAnswers} {done : Option (Done κ)}

@[simp] theorem goto_pending (d : Dcs κ) (t : TaskPc) : (d.goto t).pending = d.pending := rfl
@[simp] theorem goto_normalQueue (d : Dcs κ) (t : TaskPc) :
    (d.goto t).normalQueue = d.normalQueue := rfl
@[simp] theorem goto_urgentQueue (d : Dcs κ) (t : TaskPc) :
    (d.goto t).urgentQueue = d.urgentQueue := rfl
@[simp] theorem setPending_pending (d : Dcs κ) (i : PendingIx) (p : Option (Pending κ)) :
    (d.setPending i p).pending = Function.update d.pending i p := rfl

/-- A step that only moves the task on keeps what a handler has done. -/
theorem goto_move (h : TaskMove d a d' done) (t : TaskPc) : TaskMove d a (d'.goto t) done := by
  cases h with
  | same hq hp => exact .same hq hp
  | completed r hi hq hp => exact .completed r hi hq hp
  | refused r hq hp => exact .refused r hq hp
  | admitted ht ha hq hi hc hd hp => exact .admitted ht ha hq hi hc hd hp

/-! ## The handlers -/

/-- Completing a pending slot, which may be free. -/
theorem pendingComplete_move (i : PendingIx) (result : DeviceCommandResult)
    (hq : d'.normalQueue = d.normalQueue) (hp : d'.pending = d.pending) :
    TaskMove d a (d'.pendingComplete i result).1 (d'.pendingComplete i result).2 := by
  simp only [pendingComplete, hp]
  cases hi : d.pending i with
  | none =>
      refine .same hq ?_
      rw [setPending_pending, hp, ← hi, Function.update_eq_self]
  | some p =>
      refine .completed result hi hq ?_
      rw [setPending_pending, hp]

theorem completeDevice_move (id : DeviceId) (status : DeviceCommandStatus)
    (hq : d'.normalQueue = d.normalQueue) (hp : d'.pending = d.pending) :
    TaskMove d a (d'.completeDevice id status).1 (d'.completeDevice id status).2 := by
  unfold completeDevice
  split
  · exact .same hq hp
  · exact pendingComplete_move _ _ hq hp

theorem handleUrgent_move (e : UrgentEvent) (hq : d'.normalQueue = d.normalQueue)
    (hp : d'.pending = d.pending) :
    TaskMove d a (d'.handleUrgent e).1 (d'.handleUrgent e).2 := by
  cases e with
  | ack ack =>
      simp only [handleUrgent, handleAck]
      split
      · exact .same hq hp
      split
      · exact .same hq hp
      split
      · exact .same hq hp
      · exact pendingComplete_move _ _ hq hp
  | disconnect id | cancel id => exact completeDevice_move id _ hq hp
  | shutdown => exact .same hq hp

theorem checkTimeout_move (i : PendingIx) (now : Int) :
    TaskMove d a (d.checkTimeout i now).1 (d.checkTimeout i now).2 := by
  unfold checkTimeout
  split
  · exact pendingComplete_move _ _ rfl rfl
  · exact .same rfl rfl

theorem handleSubmit_move {e : SubmitEvent κ} {es : List (SubmitEvent κ)} (now : Int)
    (htask : d.task = .receive) (hq : d.normalQueue = e :: es) :
    TaskMove d a ({ d with normalQueue := es }.handleSubmit e a now).1
      ({ d with normalQueue := es }.handleSubmit e a now).2 := by
  unfold handleSubmit
  split
  · exact .refused _ hq rfl
  rename_i hvalid
  split
  · exact .refused _ hq rfl
  rename_i hconn
  split
  · exact .refused _ hq rfl
  split
  · exact .refused _ hq rfl
  rename_i i hi
  have hfree : d.pending i = none := by
    have hnone := (Fin.find?_eq_some_iff.mp hi).1
    simpa using hnone
  dsimp only
  split
  · rename_i hsent
    refine .admitted htask ?_ hq hfree rfl rfl rfl
    simp_all [SubmitAnswers.passes]
  · -- the command is written to its slot and completed at once
    have hback : Function.update (Function.update d.pending i (some
        { requestId := pendingNextRequestId { d with normalQueue := es } DCS_MAX_PENDING
            d.nextRequestId
          deviceId := e.request.deviceId
          command := e.request.command
          callback := e.callback
          deadlineUs := now + DCS_ACK_TIMEOUT_MS * 1000 })) i none = d.pending := by
      rw [Function.update_idem, ← hfree, Function.update_eq_self]
    simp only [pendingCompleteStatus, pendingComplete, setPending_pending, Function.update_self]
    exact .refused _ hq hback

/-! ## The callers -/

/-- A submit is refused, or puts the command behind the others. -/
theorem submit_cases (d : Dcs κ) (request : DeviceCommandRequest) (callback : κ) :
    (∃ err, err ≠ .ok ∧ d.submit request callback = (d, err)) ∨
      d.submit request callback =
        ({ d with normalQueue := d.normalQueue ++ [⟨request, callback⟩], notified := true },
          .ok) := by
  unfold submit
  split
  · exact Or.inl ⟨_, by simp, rfl⟩
  · split
    · exact Or.inl ⟨_, by simp, rfl⟩
    · exact Or.inr rfl

/-- The urgent queue is full, or takes the event. -/
theorem urgentEnqueue_cases (d : Dcs κ) (e : UrgentEvent) :
    d.urgentEnqueue e = (d, false) ∨
      d.urgentEnqueue e =
        ({ d with urgentQueue := d.urgentQueue ++ [e], notified := true }, true) := by
  unfold urgentEnqueue
  split
  · exact Or.inl rfl
  · exact Or.inr rfl

/-- A cancel is refused, or enters the urgent queue. -/
theorem cancelDevice_cases (d : Dcs κ) (id : DeviceId) :
    (∃ err, err ≠ .ok ∧ d.cancelDevice id = (d, err)) ∨
      d.cancelDevice id =
        ({ d with urgentQueue := d.urgentQueue ++ [.cancel id], notified := true }, .ok) := by
  unfold cancelDevice
  split
  · exact Or.inl ⟨_, by simp, rfl⟩
  split
  · exact Or.inl ⟨_, by simp, rfl⟩
  rcases urgentEnqueue_cases d (.cancel id) with heq | heq <;> rw [heq]
  · exact Or.inl ⟨_, by simp, rfl⟩
  · exact Or.inr rfl

/-! ## The urgent queue -/

/-- The devices of the cancel events in the queue, in order. -/
def cancelEvents (queue : List UrgentEvent) : List DeviceId :=
  queue.filterMap fun
    | .cancel deviceId => some deviceId
    | _ => none

theorem completeDevice_urgentQueue (id : DeviceId) (status : DeviceCommandStatus) :
    (d.completeDevice id status).1.urgentQueue = d.urgentQueue := by
  unfold completeDevice
  split <;> rfl

theorem handleUrgent_urgentQueue (e : UrgentEvent) :
    (d.handleUrgent e).1.urgentQueue = d.urgentQueue := by
  cases e with
  | ack ack =>
      simp only [handleUrgent, handleAck]
      split
      · rfl
      split
      · rfl
      split <;> rfl
  | disconnect id | cancel id => exact completeDevice_urgentQueue id _
  | shutdown => rfl

theorem handleSubmit_urgentQueue (e : SubmitEvent κ) (now : Int) :
    (d.handleSubmit e a now).1.urgentQueue = d.urgentQueue := by
  unfold handleSubmit
  split
  · rfl
  split
  · rfl
  split
  · rfl
  split
  · rfl
  dsimp only
  split <;> rfl

theorem checkTimeout_urgentQueue (i : PendingIx) (now : Int) :
    (d.checkTimeout i now).1.urgentQueue = d.urgentQueue := by
  unfold checkTimeout
  split <;> rfl

variable {now : Int} {timeUp : Bool}

/-- A step of the task takes the cancel event it handles out of the queue and no other. -/
theorem taskStep_cancelEvents (h : d.taskStep now a timeUp = some (d', done)) :
    cancelEvents d.urgentQueue = d.nextCancel.toList ++ cancelEvents d'.urgentQueue := by
  have hkept (hnext : d.nextCancel = none) (hu : d'.urgentQueue = d.urgentQueue) :
      cancelEvents d.urgentQueue = d.nextCancel.toList ++ cancelEvents d'.urgentQueue := by
    rw [hnext, hu]
    rfl
  unfold taskStep at h
  split at h
  · rename_i ht
    cases h
    exact hkept (by simp [nextCancel, ht]) rfl
  · rename_i ht
    split at h
    · rename_i hu
      cases h
      exact hkept (by simp [nextCancel, ht, hu]) rfl
    · rename_i e es hu
      have hq := handleUrgent_urgentQueue (d := { d with urgentQueue := es }) e
      have hd' : d'.urgentQueue = es := by
        dsimp only at h
        split at h <;> cases h <;> exact hq
      rw [hd', hu, nextCancel, ht, hu]
      cases e <;> rfl
  · rename_i i ht
    dsimp only at h
    split at h <;> cases h <;>
      exact hkept (by simp [nextCancel, ht]) (checkTimeout_urgentQueue i now)
  · rename_i ht
    split at h <;> cases h
    · exact hkept (by simp [nextCancel, ht]) rfl
    · exact hkept (by simp [nextCancel, ht]) (handleSubmit_urgentQueue _ now)
  · rename_i ht
    obtain ⟨-, ⟨⟩⟩ := Option.ite_none_right_eq_some.mp h
    exact hkept (by simp [nextCancel, ht]) rfl
  · rename_i i ht
    dsimp only at h
    split at h <;> cases h <;>
      exact hkept (by simp [nextCancel, ht]) rfl
  · cases h

/-- The command that a cancel event completes is pending for the device of the event. -/
theorem taskStep_cancelled {deviceId : DeviceId} {k : κ} {result : DeviceCommandResult}
    (h : d.taskStep now a timeUp = some (d', some (k, result)))
    (hnext : d.nextCancel = some deviceId) :
    ∃ i p, d.pending i = some p ∧ p.deviceId = deviceId ∧ p.callback = k := by
  unfold nextCancel at hnext
  split at hnext
  · rename_i ht hu
    cases hnext
    simp only [taskStep, ht, hu, Option.some.injEq, Prod.mk.injEq, handleUrgent, handleCancel,
      completeDevice] at h
    obtain ⟨-, hdone⟩ := h
    split at hdone
    · cases hdone
    · rename_i i hfind
      have hi := (Fin.find?_eq_some_iff.mp hfind).1
      obtain ⟨p, hp, hid⟩ := (Option.any_eq_true _ _).mp hi
      obtain ⟨q, hq, hcall⟩ := Option.map_eq_some_iff.mp hdone
      obtain rfl := Option.some.inj (hp.symm.trans hq)
      exact ⟨i, p, hp, CharBuf.ext (of_decide_eq_true hid), congrArg Prod.fst hcall⟩
  · cases hnext

/-! ## The step -/

theorem taskStep_move (h : d.taskStep now a timeUp = some (d', done)) : TaskMove d a d' done := by
  unfold taskStep at h
  split at h
  · cases h
    exact .same rfl rfl
  · split at h
    · cases h
      exact .same rfl rfl
    · rename_i e es _
      have hm : TaskMove d a ({ d with urgentQueue := es }.handleUrgent e).1
          ({ d with urgentQueue := es }.handleUrgent e).2 := handleUrgent_move e rfl rfl
      dsimp only at h
      split at h <;> cases h
      · exact hm
      · exact goto_move hm _
  · rename_i i _
    have hm := checkTimeout_move (d := d) (a := a) i now
    dsimp only at h
    split at h <;> cases h <;> exact goto_move hm _
  · rename_i htask
    split at h
    · cases h
      exact .same rfl rfl
    · rename_i hq
      cases h
      exact goto_move (handleSubmit_move now htask hq) _
  · split at h
    · cases h
      exact .same rfl rfl
    · cases h
  · rename_i i _
    have hm : TaskMove d a (d.pendingCompleteStatus i .cancelled).1
        (d.pendingCompleteStatus i .cancelled).2 := pendingComplete_move _ _ rfl rfl
    dsimp only at h
    split at h <;> cases h <;> exact goto_move hm _
  · cases h

end Dcs

end BleGateway.CommandService
