import BleGateway.CommandService.Steps

set_option autoImplicit false

/-! # The command service and its callers

The command service by itself. A call of its interface is cut at each point where another task can
run: behind its checks, and between the queue that takes its event and the notification of the task.
The commands that enter the normal queue are numbered. The number stands for the callback and its
context, and the history has the numbers of the completed commands.
-/

namespace BleGateway.CommandService

namespace Dcs

variable {κ : Type}

/-! ## Sections of the calls -/

/-- `xQueueSend` into the normal queue. -/
def sendNormal (d : Dcs κ) (request : DeviceCommandRequest) (callback : κ) : Option (Dcs κ) :=
  if DCS_QUEUE_LEN ≤ d.normalQueue.length then none
  else some { d with normalQueue := d.normalQueue ++ [⟨request, callback⟩] }

/-- `xQueueSend` into the urgent queue. -/
def sendUrgent (d : Dcs κ) (e : UrgentEvent) : Option (Dcs κ) :=
  if DCS_URGENT_QUEUE_LEN ≤ d.urgentQueue.length then none
  else some { d with urgentQueue := d.urgentQueue ++ [e] }

/-- `xTaskNotifyGive`. -/
def notifyGive (d : Dcs κ) : Dcs κ := { d with notified := true }

end Dcs

/-! ## The system -/

/-- A call in progress, by what it does next. -/
inductive Call
  /-- `device_command_service_submit` sends its command. -/
  | submit (request : DeviceCommandRequest)
  /-- `dcs_urgent_enqueue` sends an event. -/
  | urgent (e : UrgentEvent)
  /-- `device_command_service_submit` notifies the task of the command with this number. -/
  | announce (n : Nat)
  /-- `dcs_urgent_enqueue`, or the `device_command_service_deinit` that found the urgent queue full,
  notifies the task. -/
  | give
  deriving DecidableEq

/-- The service, the calls in progress, the number of commands that were accepted, and the completed
ones with their results. -/
structure Service where
  dcs : Dcs Nat := {}
  calls : List Call := []
  accepted : Nat := 0
  completed : List (Done Nat) := []

namespace Service

variable (s : Service)

/-- The `n`-th call is replaced by what it has left to do. -/
def callStep (n : Nat) : Call → Service
  | .submit request =>
      match s.dcs.sendNormal request s.accepted with
      | some dcs =>
          { s with
            dcs
            calls := s.calls.eraseIdx n ++ [.announce s.accepted]
            accepted := s.accepted + 1 }
      | none => { s with calls := s.calls.eraseIdx n }
  | .urgent e =>
      match s.dcs.sendUrgent e with
      | some dcs =>
          { s with
            dcs
            calls := s.calls.eraseIdx n ++ [.give] }
      | none =>
          if e = .shutdown then
            { s with
              dcs := { s.dcs with running := false }
              calls := s.calls.eraseIdx n ++ [.give] }
          else { s with calls := s.calls.eraseIdx n }
  | .announce _ | .give =>
      { s with
        dcs := s.dcs.notifyGive
        calls := s.calls.eraseIdx n }

/-- A call that has passed its checks. -/
def enter (c : Call) : Service := { s with calls := s.calls ++ [c] }

inductive Label
  | submit (request : DeviceCommandRequest)
  | ack (ack : AckEvent)
  | disconnect (deviceId : DeviceId)
  | cancel (deviceId : DeviceId)
  | deinit
  /-- The `n`-th call goes on. -/
  | call (n : Nat)
  | task (now : Int) (a : Dcs.SubmitAnswers) (timeUp : Bool)

/-- One step; a call whose checks fail has no effect. -/
def step : Label → Option Service
  | .submit request => if s.dcs.running then some (s.enter (.submit request)) else none
  | .ack ack =>
      if ack.requestId ≠ 0 ∧ s.dcs.running then some (s.enter (.urgent (.ack ack))) else none
  | .disconnect id =>
      if id.text ≠ [] ∧ s.dcs.running then some (s.enter (.urgent (.disconnect id))) else none
  | .cancel id =>
      if id.text ≠ [] ∧ s.dcs.running then some (s.enter (.urgent (.cancel id))) else none
  | .deinit => some (s.enter (.urgent .shutdown))
  | .call n => s.calls[n]?.map (s.callStep n)
  | .task now a timeUp =>
      (s.dcs.taskStep now a timeUp).map fun (dcs, done) =>
        { s with
          dcs
          completed := done.toList ++ s.completed }

end Service

/-- The service after `device_command_service_init`. -/
def service : Machine Service Service.Label where
  init s := s = {}
  step := Service.step

/-! ## What a call changes -/

namespace Service

variable {s s' : Service}

/-- What a section of a call does to the service. -/
inductive CallMove (s : Service) (n : Nat) (s' : Service) : Prop
  | sent {request : DeviceCommandRequest} (call : s.calls[n]? = some (.submit request))
      (dcs : s'.dcs = { s.dcs with normalQueue := s.dcs.normalQueue ++ [⟨request, s.accepted⟩] })
      (calls : s'.calls = s.calls.eraseIdx n ++ [.announce s.accepted])
      (accepted : s'.accepted = s.accepted + 1) (completed : s'.completed = s.completed)
  | announced {k : Nat} (call : s.calls[n]? = some (.announce k)) (dcs : s'.dcs = s.dcs.notifyGive)
      (calls : s'.calls = s.calls.eraseIdx n) (accepted : s'.accepted = s.accepted)
      (completed : s'.completed = s.completed)
  /-- A submit that finds the queue full, or a section of an urgent event. -/
  | urgent (call : ∀ k, s.calls[n]? ≠ some (.announce k))
      (queue : s'.dcs.normalQueue = s.dcs.normalQueue) (pending : s'.dcs.pending = s.dcs.pending)
      (task : s'.dcs.task = s.dcs.task) (notified : s.dcs.notified = true → s'.dcs.notified = true)
      (calls : ∀ c ∈ s.calls.eraseIdx n, c ∈ s'.calls) (accepted : s'.accepted = s.accepted)
      (completed : s'.completed = s.completed)

theorem callStep_move {n : Nat} (h : s.step (.call n) = some s') : CallMove s n s' := by
  obtain ⟨c, hc, rfl⟩ := Option.map_eq_some_iff.mp h
  have hleft : ∀ c' ∈ s.calls.eraseIdx n, c' ∈ s.calls.eraseIdx n ++ [Call.give] :=
    fun c' hc' => List.mem_append_left _ hc'
  cases c with
  | submit request =>
      have hno : ∀ k, s.calls[n]? ≠ some (.announce k) := by simp [hc]
      unfold callStep Dcs.sendNormal
      dsimp only
      split
      · rename_i dcs hd
        split at hd
        · cases hd
        · cases hd
          exact .sent hc rfl rfl rfl rfl
      · exact .urgent hno rfl rfl rfl id (fun _ => id) rfl rfl
  | urgent e =>
      have hno : ∀ k, s.calls[n]? ≠ some (.announce k) := by simp [hc]
      unfold callStep Dcs.sendUrgent
      dsimp only
      split
      · rename_i dcs hd
        split at hd
        · cases hd
        · cases hd
          exact .urgent hno rfl rfl rfl id hleft rfl rfl
      · split
        · exact .urgent hno rfl rfl rfl id hleft rfl rfl
        · exact .urgent hno rfl rfl rfl id (fun _ => id) rfl rfl
  | announce k => exact .announced hc rfl rfl rfl rfl
  | give =>
      have hno : ∀ k, s.calls[n]? ≠ some (.announce k) := by simp [hc]
      exact .urgent hno rfl rfl rfl (fun _ => rfl) (fun _ => id) rfl rfl

/-- A call that is made only joins the calls in progress. -/
theorem step_enter {l : Label} (h : s.step l = some s') (hcall : ∀ n, l ≠ .call n)
    (htask : ∀ now a timeUp, l ≠ .task now a timeUp) : ∃ c, s' = s.enter c := by
  cases l with
  | submit request | ack ack | disconnect id | cancel id =>
      simp only [step] at h
      split at h
      · exact ⟨_, (Option.some.inj h).symm⟩
      · cases h
  | deinit => exact ⟨_, (Option.some.inj h).symm⟩
  | call n => exact absurd rfl (hcall n)
  | task now a timeUp => exact absurd rfl (htask now a timeUp)

/-- A step of the task. -/
theorem step_task {now : Int} {a : Dcs.SubmitAnswers} {timeUp : Bool}
    (h : s.step (.task now a timeUp) = some s') : ∃ dcs done,
      s.dcs.taskStep now a timeUp = some (dcs, done) ∧
        s' = { s with dcs, completed := done.toList ++ s.completed } := by
  obtain ⟨⟨dcs, done⟩, hstep, rfl⟩ := Option.map_eq_some_iff.mp h
  exact ⟨dcs, done, hstep, rfl⟩

end Service

end BleGateway.CommandService
