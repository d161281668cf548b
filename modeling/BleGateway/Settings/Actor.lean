import BleGateway.Settings.Transaction

set_option autoImplicit false

/-! # Settings operations and their actor

`device_settings_operation.c`, the operations that describe the settings of a device or get their
values, and the part of `device_settings_worker.c` that carries them out, one at a time. Everybody
else only puts events into the queue of the actor. The callbacks of the scheduler and of the retry
timer read the cookie of the operation that is active when they run.

The actor is running. A function gives the new state and what it asks of the scheduler and of its
callers, in order; the answers of the scheduler come with the step. The last argument of an event
that answers a request is history: on whose behalf the request was made. No function reads it.
-/

namespace BleGateway.Settings

def DS_EVENT_QUEUE_LEN : Nat := 24

/-- The length of `s_retry_backoff_ms`. -/
def DS_WORK_RETRY_MAX : Nat := 3

inductive OpKind
  | none | describe | get
  deriving DecidableEq

inductive OpState
  | idle | queued | running
  deriving DecidableEq

inductive OpResult
  | ok | timeout | protocolError | internal | rejected | failed
  deriving DecidableEq

/-- An index into the operation records. -/
abbrev OpIx := Fin DEVICE_SETTINGS_MAX_DEVICES

theorem opSlots_pos : 0 < DEVICE_SETTINGS_MAX_DEVICES := by decide

/-- `ds_op_record_t`, with its entry in `s_ops_generation`. -/
structure OpRecord where
  active : Bool := false
  deviceId : DeviceId := .empty
  kind : OpKind := .none
  state : OpState := .idle
  opId : UInt32 := 0
  generation : UInt32 := 0
  deriving DecidableEq

/-- `ds_cookie_t`; the default value is the one `memset` leaves. -/
structure Cookie where
  slot : OpIx := ⟨0, opSlots_pos⟩
  generation : UInt32 := 0
  owner : UInt32 := 0
  deriving DecidableEq

/-- `ds_actor_phase_t` without the idle one. -/
inductive ActorPhase
  | waitLease | waitCommand | waitReadStream | waitRetry
  deriving DecidableEq

/-- `ds_active_op_t` of an active operation. -/
structure ActiveOp where
  phase : ActorPhase := .waitLease
  slot : OpIx
  generation : UInt32
  owner : UInt32
  lease : UInt32 := 0
  retryCount : Nat := 0
  readAck : Bool := false
  valuesEnd : Bool := false
  valuesOk : Bool := false
  deriving DecidableEq

def ActiveOp.cookie (op : ActiveOp) : Cookie :=
  { slot := op.slot, generation := op.generation, owner := op.owner }

/-- A command of a transaction; a `set` carries the index of its change. -/
inductive TxCommand
  | begin | set (index : Nat) | commit | confirm
  deriving DecidableEq

/-- A command of the transaction with a number, submitted from the slot of the transaction. -/
structure TxJob where
  slot : Tx
  serial : Nat
  command : TxCommand
  deriving DecidableEq

/-- A lease that is asked for on behalf of the transaction with a number. -/
structure TxLeaseRequest where
  id : DeviceId
  serial : Nat
  deriving DecidableEq

/-- `ds_event_t`. Events of transactions have the slot `-1`. -/
inductive ActorEvent
  | startOperation
  | leaseResult (cookie : Cookie) (ok : Bool) (lease : UInt32) (origin : Nat)
  | txLeaseResult (generation owner : UInt32) (ok : Bool) (lease : UInt32) (origin : TxLeaseRequest)
  | commandComplete (cookie : Cookie) (status : DeviceCommandStatus) (origin : Nat)
  | txCommandComplete (id : DeviceId) (result : DeviceCommandResult) (origin : TxJob)
  | valuesStreamComplete (id : DeviceId) (success : Bool)
  | disconnected (id : DeviceId)
  | retryTimer (cookie : Cookie) (origin : Nat)
  | cancelDevice (id : DeviceId)
  | transactionStart (id : DeviceId) (generation owner : UInt32) (origin : Nat)
  | transactionAbort (id : DeviceId)
  | transactionTimeout (id : DeviceId)
  | forgetDevice (id : DeviceId)
  deriving DecidableEq

/-- What the actor does for an operation outside its state. -/
inductive OpAction
  | acquire (slot : OpIx) (id : DeviceId) (owner : UInt32) (accepted : Bool)
  | submit (slot : OpIx) (id : DeviceId) (kind : OpKind) (accepted : Bool)
  | armRetry (slot : OpIx)
  | cancelSource (slot : OpIx) (id : DeviceId) (owner : UInt32)
  | releaseLease (slot : OpIx) (lease : UInt32)
  | releaseStray (lease : UInt32)
  | complete (slot : OpIx) (id : DeviceId) (result : OpResult)
  deriving DecidableEq

/-- `s_ops`, `s_active_op` and the event queue. -/
structure Actor where
  ops : OpIx → OpRecord := fun _ => {}
  nextOpId : UInt32 := 1
  active : Option ActiveOp := none
  events : List ActorEvent := []

namespace Actor

variable (a : Actor)

/-! ## Operations -/

/-- `find_op`. -/
def findOp (id : DeviceId) : Option OpIx :=
  Fin.find? fun i => (a.ops i).active && decide ((a.ops i).deviceId = id)

/-- The free record that `alloc_op` takes. -/
def freeOp : Option OpIx := Fin.find? fun i => !(a.ops i).active

def setOp (i : OpIx) (op : OpRecord) : Actor := { a with ops := Function.update a.ops i op }

/-- `ds_events_post`. -/
def post (event : ActorEvent) : Actor :=
  if a.events.length < DS_EVENT_QUEUE_LEN then { a with events := a.events ++ [event] } else a

/-- `alloc_op` and what follows it in `device_settings_describe` and `device_settings_get`. -/
def queueOp (id : DeviceId) (kind : OpKind) : Option Actor :=
  a.freeOp.map fun i =>
    ({ a with nextOpId := a.nextOpId + 1 }.setOp i
      { active := true, deviceId := id, kind, state := .queued, opId := a.nextOpId,
        generation := 1 }).post .startOperation

/-- `device_settings_describe`, with the schema state of the device. -/
def describe (id : DeviceId) (state : SchemaState) : Except EspErr Actor :=
  if id.text = [] then .error .invalidArg
  else if (a.findOp id).isSome then .error .invalidState
  else if state = .unsupported then .error .notSupported
  else (a.queueOp id .describe).elim (.error .noMem) .ok

/-- `device_settings_get`, with the schema state of the device. -/
def get (id : DeviceId) (state : SchemaState) : Except EspErr Actor :=
  if id.text = [] then .error .invalidArg
  else if (a.findOp id).isSome then .error .invalidState
  else if state ≠ .ready then .error .invalidState
  else (a.queueOp id .get).elim (.error .noMem) .ok

/-- `device_settings_cancel`. -/
def cancel (id : DeviceId) : Actor :=
  if id.text = [] then a
  else if (a.findOp id).isSome then a.post (.cancelDevice id) else a

/-! ## The callbacks -/

/-- The cookie behind `&s_active_op.cookie`. -/
def cookie : Cookie := (a.active.map (·.cookie)).getD {}

/-- `post_lease_done`. -/
def leaseDone (ok : Bool) (lease : UInt32) (origin : Nat) : Actor :=
  a.post (.leaseResult a.cookie ok lease origin)

/-- `post_command_done`. -/
def commandDone (status : DeviceCommandStatus) (origin : Nat) : Actor :=
  a.post (.commandComplete a.cookie status origin)

/-- `retry_timer_cb`. -/
def retryTimer (origin : Nat) : Actor := a.post (.retryTimer a.cookie origin)

/-! ## The actor -/

/-- `release_lease`. -/
def releaseLease (op : ActiveOp) : List OpAction :=
  if op.lease = 0 then [] else [.releaseLease op.slot op.lease]

/-- `finish_active`. -/
def finishActive (result : OpResult) : Actor × List OpAction :=
  match a.active with
  | none => (a, [])
  | some op =>
      let r := a.ops op.slot
      ({ a with active := none }.setOp op.slot { r with
          active := false, state := if r.active then .idle else r.state },
        .cancelSource op.slot r.deviceId op.owner :: releaseLease op ++
          if r.active then [.complete op.slot r.deviceId result] else [])

/-- `matching`, which gives the active operation. -/
def matching (cookie : Cookie) : Option ActiveOp := a.active.filter fun op => op.cookie = cookie

def setActive (op : ActiveOp) : Actor := { a with active := some op }

/-- `submit_command`, with the answer of the scheduler: whether it succeeds, and what it asks
for. -/
def submitCommand (op : ActiveOp) (submitted : Bool) : Bool × List OpAction :=
  let r := a.ops op.slot
  match r.kind with
  | .none => (false, [])
  | kind => (submitted, [.submit op.slot r.deviceId kind submitted])

/-- `schedule_retry`. -/
def scheduleRetry (op : ActiveOp) : Actor × List OpAction :=
  if op.retryCount ≥ DS_WORK_RETRY_MAX then a.finishActive .failed
  else
    (a.setActive { op with retryCount := op.retryCount + 1, phase := .waitRetry },
      [.armRetry op.slot])

/-- Submit the command of the active operation, and try again later when that fails. -/
def submitOrRetry (op : ActiveOp) (submitted : Bool) : Actor × List OpAction :=
  match a.submitCommand op submitted with
  | (true, actions) => (a.setActive { op with phase := .waitCommand }, actions)
  | (false, actions) =>
      let (a, retry) := a.scheduleRetry op
      (a, actions ++ retry)

/-- The operation that `handle_start` makes the active one. -/
def queued : Option OpIx :=
  Fin.find? fun i => (a.ops i).active && decide ((a.ops i).state = .queued)

/-- `handle_start`; `acquired` is whether the scheduler takes the request for a lease. -/
def handleStart (acquired : Bool) : Actor × List OpAction :=
  match a.active, a.queued with
  | none, some i =>
      let generation := (a.ops i).generation
      let owner := if generation = 0 then 1 else generation
      let a := a.setActive { slot := i, generation, owner }
      let asked := .acquire i (a.ops i).deviceId owner acquired
      if acquired then (a, [asked])
      else
        let (a, ended) := a.finishActive .internal
        (a, asked :: ended)
  | _, _ => (a, [])

/-- `handle_lease` for an operation. -/
def handleLease (cookie : Cookie) (ok : Bool) (lease : UInt32) (submitted : Bool) :
    Actor × List OpAction :=
  match a.matching cookie with
  | none => (a, if lease = 0 then [] else [.releaseStray lease])
  | some op =>
      if !ok || lease = 0 then a.finishActive .internal
      else
        let op := { op with lease := lease }
        let a := a.setActive op
        match a.submitCommand op submitted with
        | (true, actions) =>
            ((a.setActive { op with phase := .waitCommand }).setOp op.slot
              { a.ops op.slot with state := .running }, actions)
        | (false, actions) =>
            let (a, retry) := a.scheduleRetry op
            (a, actions ++ retry)

/-- `complete_read_if_ready`. -/
def completeReadIfReady (op : ActiveOp) : Actor × List OpAction :=
  let a := a.setActive op
  if op.readAck && op.valuesEnd then
    a.finishActive (if op.valuesOk then .ok else .protocolError)
  else (a, [])

/-- `handle_command`. -/
def handleCommand (cookie : Cookie) (status : DeviceCommandStatus) (submitted : Bool) :
    Actor × List OpAction :=
  match a.matching cookie with
  | none => (a, [])
  | some op =>
      match status with
      | .ok =>
          if (a.ops op.slot).kind = .describe then
            (a.setOp op.slot { a.ops op.slot with kind := .get }).submitOrRetry op submitted
          else a.completeReadIfReady { op with readAck := true, phase := .waitReadStream }
      | .busy => a.scheduleRetry op
      | .timeout => a.finishActive .timeout
      | .rejected => a.finishActive .rejected
      | _ => a.finishActive .internal

/-- `handle_values`. -/
def handleValues (id : DeviceId) (success : Bool) : Actor × List OpAction :=
  match a.active with
  | none => (a, [])
  | some op =>
      if (a.ops op.slot).kind = .get ∧ (a.ops op.slot).deviceId = id then
        a.completeReadIfReady { op with valuesEnd := true, valuesOk := success }
      else (a, [])

/-- `DS_EVENT_RETRY_TIMER` in `actor_task`. -/
def handleRetry (cookie : Cookie) (submitted : Bool) : Actor × List OpAction :=
  match a.matching cookie with
  | none => (a, [])
  | some op => a.submitOrRetry op submitted

/-- `cancel_device`, up to `handle_start`. -/
def cancelActive (id : DeviceId) : Actor × List OpAction :=
  match a.active with
  | none => (a, [])
  | some op =>
      let r := a.ops op.slot
      if r.deviceId = id then
        (a.setOp op.slot { r with generation := r.generation + 1 }).finishActive .internal
      else (a, [])

/-- `cancel_device`. -/
def cancelDevice (id : DeviceId) (acquired : Bool) : Actor × List OpAction :=
  let (a, ended) := a.cancelActive id
  let (a, started) := a.handleStart acquired
  (a, ended ++ started)

/-- What one round of `actor_task` does with the event for the operations. -/
def handle (acquired submitted : Bool) : ActorEvent → Actor × List OpAction
  | .startOperation => a.handleStart acquired
  | .leaseResult cookie ok lease _ => a.handleLease cookie ok lease submitted
  | .commandComplete cookie status _ => a.handleCommand cookie status submitted
  | .valuesStreamComplete id success => a.handleValues id success
  | .retryTimer cookie _ => a.handleRetry cookie submitted
  | .disconnected id | .cancelDevice id | .forgetDevice id => a.cancelDevice id acquired
  | .txLeaseResult .. | .txCommandComplete .. | .transactionStart .. | .transactionAbort _
  | .transactionTimeout _ => (a, [])

end Actor

end BleGateway.Settings
