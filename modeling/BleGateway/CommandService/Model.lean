import BleGateway.Scheduler.State

set_option autoImplicit false

/-! # The device command service

`device_command_service.c`, `device_command_pending.c`, `device_command_urgent.c` and
`device_command_worker.c`. One task owns the pending commands; the other tasks reach it through
two queues. Its loop is cut where it returns to a queue, so a step handles one event, one pending
slot or one submitted command, and completes at most one command.

The service only stores the completion callback of a command with its context and hands it back:
both are one value of a type `κ`. What the validation of a request, the link and the transport
answer comes with the step. The statistics, the logs, and the fields of a pending slot and of the
completed ACKs that only they read are left out.
-/

namespace BleGateway.CommandService

def DCS_QUEUE_LEN : Nat := 8
def DCS_URGENT_QUEUE_LEN : Nat := 8
def DCS_MAX_PENDING : Nat := 4
def DCS_ACK_TIMEOUT_MS : Int := 2000

instance : NeZero DCS_MAX_PENDING := ⟨by decide⟩

/-- An index into the pending commands. -/
abbrev PendingIx := Fin DCS_MAX_PENDING

/-! ## Events -/

/-- `dcs_submit_event_t`. -/
structure SubmitEvent (κ : Type) where
  request : DeviceCommandRequest
  callback : κ

/-- `dcs_ack_event_t`. -/
structure AckEvent where
  deviceId : DeviceId
  requestId : UInt32
  command : CharBuf DEVICE_COMMAND_MAX_LEN
  accepted : Bool
  boolValue : Option Bool := none
  intValue : Option Int32 := none
  featureValueBool : Option Bool := none
  featureValueInt : Option Int32 := none
  deriving DecidableEq

/-- `dcs_urgent_event_t`. -/
inductive UrgentEvent
  | ack (ack : AckEvent)
  | disconnect (deviceId : DeviceId)
  | cancel (deviceId : DeviceId)
  | shutdown
  deriving DecidableEq

/-! ## States -/

/-- `dcs_pending_slot_t` while it is in use. -/
structure Pending (κ : Type) where
  requestId : UInt32
  deviceId : DeviceId
  command : CharBuf DEVICE_COMMAND_MAX_LEN
  callback : κ
  deadlineUs : Int

/-- Where `dcs_service_task` is. `drain` and `timeouts` come twice in the loop, the second time
behind a submit. -/
inductive TaskPc
  | test
  | drain (second : Bool)
  | timeouts (second : Bool) (i : PendingIx)
  | receive
  | wait
  | sweep (i : PendingIx)
  | stopped
  deriving DecidableEq

/-- `dcs_state_t` once it is initialised, with the position of its task. -/
structure Dcs (κ : Type) where
  normalQueue : List (SubmitEvent κ) := []
  urgentQueue : List UrgentEvent := []
  running : Bool := true
  notified : Bool := false
  task : TaskPc := .test
  pending : PendingIx → Option (Pending κ) := fun _ => none
  nextRequestId : UInt32 := 0

/-- A completed command: its callback and the result it is called with. -/
abbrev Done (κ : Type) := κ × DeviceCommandResult

variable {κ : Type}

namespace Dcs

/-! ## The callers -/

/-- `device_command_service_submit`, whose arguments are not `NULL`. -/
def submit (d : Dcs κ) (request : DeviceCommandRequest) (callback : κ) : Dcs κ × EspErr :=
  if d.running = false then (d, .invalidState)
  else if DCS_QUEUE_LEN ≤ d.normalQueue.length then (d, .noMem)
  else
    ({ d with normalQueue := d.normalQueue ++ [⟨request, callback⟩], notified := true }, .ok)

/-- `dcs_urgent_enqueue`; a wait for room that has ended. -/
def urgentEnqueue (d : Dcs κ) (e : UrgentEvent) : Dcs κ × Bool :=
  if DCS_URGENT_QUEUE_LEN ≤ d.urgentQueue.length then (d, false)
  else ({ d with urgentQueue := d.urgentQueue ++ [e], notified := true }, true)

/-- `device_command_service_cancel_device`. -/
def cancelDevice (d : Dcs κ) (deviceId : DeviceId) : Dcs κ × EspErr :=
  if deviceId.text = [] then (d, .invalidArg)
  else if d.running = false then (d, .invalidState)
  else
    match d.urgentEnqueue (.cancel deviceId) with
    | (d, true) => (d, .ok)
    | (d, false) => (d, .noMem)

/-- `device_command_service_on_disconnect`. -/
def onDisconnect (d : Dcs κ) (deviceId : DeviceId) : Dcs κ :=
  if deviceId.text = [] ∨ d.running = false then d
  else (d.urgentEnqueue (.disconnect deviceId)).1

/-- `device_command_service_on_notify` for a `device_ack`. -/
def onNotify (d : Dcs κ) (ack : AckEvent) : Dcs κ × Bool :=
  if ack.requestId = 0 ∨ d.running = false then (d, false)
  else d.urgentEnqueue (.ack ack)

/-- `device_command_service_deinit` up to its wait for the task. -/
def deinit (d : Dcs κ) : Dcs κ :=
  match d.urgentEnqueue .shutdown with
  | (d, true) => d
  | (d, false) => { d with running := false, notified := true }

/-! ## The pending commands -/

/-- `dcs_pending_find_device`. -/
def pendingFindDevice (d : Dcs κ) (deviceId : CString) : Option PendingIx :=
  Fin.find? fun i => (d.pending i).any (·.deviceId.text = deviceId)

/-- `dcs_pending_find_id`. -/
def pendingFindId (d : Dcs κ) (deviceId : CString) (requestId : UInt32) : Option PendingIx :=
  Fin.find? fun i => (d.pending i).any fun p =>
    p.deviceId.text = deviceId && p.requestId = requestId

/-- `dcs_pending_allocate`. -/
def pendingAllocate (d : Dcs κ) : Option PendingIx := Fin.find? fun i => (d.pending i).isNone

/-- Some pending command carries this request id. -/
def requestIdInUse (d : Dcs κ) (id : UInt32) : Bool :=
  (List.finRange DCS_MAX_PENDING).any fun i => (d.pending i).any (·.requestId = id)

/-- The loop of `dcs_pending_next_request_id` behind `counter`, which meets a collision at most
once for each of the `n` slots left. -/
def pendingNextRequestId (d : Dcs κ) : Nat → UInt32 → UInt32
  | 0, counter => Scheduler.nextId counter
  | n + 1, counter =>
      if d.requestIdInUse (Scheduler.nextId counter) then
        d.pendingNextRequestId n (Scheduler.nextId counter)
      else Scheduler.nextId counter

def setPending (d : Dcs κ) (i : PendingIx) (p : Option (Pending κ)) : Dcs κ :=
  { d with pending := Function.update d.pending i p }

/-- `dcs_pending_complete`: the slot is cleared and the callback called. -/
def pendingComplete (d : Dcs κ) (i : PendingIx) (result : DeviceCommandResult) :
    Dcs κ × Option (Done κ) :=
  (d.setPending i none, (d.pending i).map fun p => (p.callback, result))

/-- `dcs_pending_complete_status`. -/
def pendingCompleteStatus (d : Dcs κ) (i : PendingIx) (status : DeviceCommandStatus) :
    Dcs κ × Option (Done κ) :=
  d.pendingComplete i { status, requestId := ((d.pending i).map (·.requestId)).getD 0 }

/-! ## The handlers -/

/-- What `dcs_validate_request`, `is_connected` and `send_command` answer for a request. -/
structure SubmitAnswers where
  validation : DeviceCommandStatus := .ok
  connected : Bool := true
  sent : Bool := true

/-- `dcs_handle_submit`. -/
def handleSubmit (d : Dcs κ) (e : SubmitEvent κ) (a : SubmitAnswers) (now : Int) :
    Dcs κ × Option (Done κ) :=
  if a.validation ≠ .ok then (d, some (e.callback, { status := a.validation }))
  else if a.connected = false then (d, some (e.callback, { status := .notConnected }))
  else if (d.pendingFindDevice e.request.deviceId.text).isSome then
    (d, some (e.callback, { status := .busy }))
  else
    match d.pendingAllocate with
    | none => (d, some (e.callback, { status := .queueFull }))
    | some i =>
        let requestId := d.pendingNextRequestId DCS_MAX_PENDING d.nextRequestId
        let p : Pending κ :=
          { requestId
            deviceId := e.request.deviceId
            command := e.request.command
            callback := e.callback
            deadlineUs := now + DCS_ACK_TIMEOUT_MS * 1000 }
        let d := { d.setPending i (some p) with nextRequestId := requestId }
        if a.sent then (d, none) else d.pendingCompleteStatus i .transportError

/-- The result of an ACK. -/
def ackResult (ack : AckEvent) (requestId : UInt32) : DeviceCommandResult :=
  if ack.accepted then
    { status := .ok
      requestId
      accepted := true
      hasBoolValue := ack.boolValue.isSome
      boolValue := ack.boolValue.getD false
      hasIntValue := ack.intValue.isSome
      intValue := ack.intValue.getD 0
      hasFeatureValueBool := ack.featureValueBool.isSome
      featureValueBool := ack.featureValueBool.getD false
      hasFeatureValueInt := ack.featureValueInt.isSome
      featureValueInt := ack.featureValueInt.getD 0 }
  else { status := .rejected, requestId }

/-- `handle_ack`. -/
def handleAck (d : Dcs κ) (ack : AckEvent) : Dcs κ × Option (Done κ) :=
  if ack.requestId = 0 then (d, none)
  else
    match d.pendingFindId ack.deviceId.text ack.requestId with
    | none => (d, none)
    | some i =>
        if (d.pending i).any (·.command ≠ ack.command) then (d, none)
        else d.pendingComplete i (ackResult ack ack.requestId)

/-- Complete the command that is pending for a device: `handle_disconnect` and `handle_cancel`. -/
def completeDevice (d : Dcs κ) (deviceId : DeviceId) (status : DeviceCommandStatus) :
    Dcs κ × Option (Done κ) :=
  match d.pendingFindDevice deviceId.text with
  | none => (d, none)
  | some i => d.pendingCompleteStatus i status

def handleDisconnect (d : Dcs κ) (deviceId : DeviceId) : Dcs κ × Option (Done κ) :=
  d.completeDevice deviceId .notConnected

def handleCancel (d : Dcs κ) (deviceId : DeviceId) : Dcs κ × Option (Done κ) :=
  d.completeDevice deviceId .cancelled

/-- The `switch` of `dcs_urgent_drain`. -/
def handleUrgent (d : Dcs κ) : UrgentEvent → Dcs κ × Option (Done κ)
  | .ack ack => d.handleAck ack
  | .disconnect deviceId => d.handleDisconnect deviceId
  | .cancel deviceId => d.handleCancel deviceId
  | .shutdown => ({ d with running := false }, none)

/-- The body of the loop of `check_timeouts`. -/
def checkTimeout (d : Dcs κ) (i : PendingIx) (now : Int) : Dcs κ × Option (Done κ) :=
  if (d.pending i).any (now ≥ ·.deadlineUs) then d.pendingCompleteStatus i .timeout else (d, none)

/-! ## The task -/

def goto (d : Dcs κ) (task : TaskPc) : Dcs κ := { d with task }

/-- The index behind `i`, if there is one. -/
def nextIx (i : PendingIx) : Option PendingIx :=
  if h : i.val + 1 < DCS_MAX_PENDING then some ⟨i.val + 1, h⟩ else none

/-- Behind the last slot of `check_timeouts`. -/
def afterTimeouts (d : Dcs κ) (second : Bool) : TaskPc :=
  if second then .wait else if d.running then .receive else .sweep 0

/-- One step of `dcs_service_task`; it is blocked while it waits and nothing wakes it. -/
def taskStep (d : Dcs κ) (now : Int) (a : SubmitAnswers) (timeUp : Bool) :
    Option (Dcs κ × Option (Done κ)) :=
  match d.task with
  | .test => some (d.goto (if d.running then .drain false else .sweep 0), none)
  | .drain second =>
      match d.urgentQueue with
      | [] => some (d.goto (.timeouts second 0), none)
      | e :: es =>
          let (d, done) := { d with urgentQueue := es }.handleUrgent e
          some (if d.running then d else d.goto (.timeouts second 0), done)
  | .timeouts second i =>
      let (d, done) := d.checkTimeout i now
      match nextIx i with
      | some j => some (d.goto (.timeouts second j), done)
      | none => some (d.goto (d.afterTimeouts second), done)
  | .receive =>
      match d.normalQueue with
      | [] => some (d.goto .wait, none)
      | e :: es =>
          let (d, done) := { d with normalQueue := es }.handleSubmit e a now
          some (d.goto (.drain true), done)
  | .wait =>
      if d.notified ∨ timeUp then some ({ d with notified := false }.goto .test, none) else none
  | .sweep i =>
      let (d, done) := d.pendingCompleteStatus i .cancelled
      match nextIx i with
      | some j => some (d.goto (.sweep j), done)
      | none => some (d.goto .stopped, done)
  | .stopped => none

end Dcs

end BleGateway.CommandService
