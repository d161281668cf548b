import BleGateway.DeviceSchema.Protocol
import BleGateway.Lib.Machine
import BleGateway.Scheduler.State

set_option autoImplicit false

/-! # Schema discovery

`device_schema_discovery.c`, `device_schema_worker.c`, the record table of
`device_schema_runtime.c`, the calls `device_schema_refresh` and `device_schema_forget` of
`device_schema.c`, and the bridge of `device_schema_control_adapter.c`.

A discovery asks the scheduler for one command to the device. The worker handles its queue of
events one by one; the calls of the API and the completions of the scheduler run in other tasks,
between its critical sections. The system steps one critical section, one post to the queue or
one call of the scheduler at a time.

The mutex is taken within its timeout, and frames are copied without a failing allocation. The
fields of the owner and of the events that nobody reads, time stamps and statistics are left out.
The contents of the store are not part of the system: whether a write or an erase succeeds is an
input.
-/

namespace BleGateway.DeviceSchema

open Scheduler (nextId)

def SCHEMA_EVENT_QUEUE_DEPTH : Nat := 32

/-- An index into the record table. -/
abbrev Ix := Fin DEVICE_STORE_MAX_DEVICES

abbrev Records := Ix → Record

/-- `device_schema_submit_result_t`. -/
inductive SubmitResult
  | ok | rejected | timeout | error | busy | notConnected | transportError | internalError
  deriving DecidableEq

/-- `schema_global_owner_t`. -/
structure Owner where
  active : Bool := false
  deviceId : DeviceId := .empty
  operationId : UInt32 := 0
  deriving DecidableEq

/-- `completion_context_t`. -/
structure Context where
  deviceId : DeviceId
  operationId : UInt32
  refreshGeneration : UInt32
  deriving DecidableEq

/-- `schema_event_t`. -/
inductive Event
  | ready (id : DeviceId)
  | refresh (id : DeviceId) (generation : UInt32)
  | disconnect (id : DeviceId)
  | notify (id : DeviceId) (msg : Message)
  | completion (context : Context) (result : SubmitResult)
  deriving DecidableEq

/-- What the worker does next. -/
inductive Worker
  /-- It receives from the queue. -/
  | idle
  /-- The critical section of `start_discovery`. -/
  | start (id : DeviceId) (kind : OperationKind) (generation : UInt32)
  /-- The call of the submitter. -/
  | submit (context : Context)
  /-- The critical section after a failed submission. -/
  | failed (id : DeviceId)
  /-- `start_next_pending`. -/
  | startNext
  /-- The store after a commit. -/
  | persist (id : DeviceId) (changed : Bool)
  deriving DecidableEq

/-- A call of the API between two of its critical sections. -/
inductive Call
  /-- `device_schema_refresh` posts its event. -/
  | posting (id : DeviceId) (generation : UInt32)
  /-- `device_schema_refresh` takes its reservation back. -/
  | rollback (id : DeviceId) (generation : UInt32)
  /-- `device_schema_forget` erases the record from the store and then clears it. -/
  | erasing (id : DeviceId)
  deriving DecidableEq

/-- An entry of the history of the refreshes. -/
inductive Entry
  /-- `device_schema_refresh` hands out a generation. -/
  | reserved (id : DeviceId) (generation : UInt32)
  /-- The call of `device_schema_refresh` fails after that. -/
  | refused (id : DeviceId) (generation : UInt32)
  /-- A failing `device_schema_refresh` ends the refresh in progress. -/
  | withdrawn (id : DeviceId) (generation : UInt32)
  /-- `refresh_last_completed` is written, in the operation with this number. -/
  | completed (id : DeviceId) (outcome : RefreshCompleted) (op : Nat)
  /-- `device_schema_forget` ends the refresh in progress. -/
  | forgotten (id : DeviceId) (generation : UInt32)
  /-- A refresh that was not in progress any more is in progress again. -/
  | revived (id : DeviceId) (generation : UInt32)
  deriving DecidableEq

/-- What happened so far: the history of the refreshes, the number of the last operation of each
record, the number of the operation in which its stream was opened, and the operations whose
stream was committed. -/
structure History where
  log : List Entry := []
  started : Nat := 0
  opNo : Ix → Nat := fun _ => 0
  streamNo : Ix → Nat := fun _ => 0
  commits : List Nat := []

/-- The state of the component, and of the calls and completions that run beside the worker. -/
structure Sys where
  records : Records := fun _ => {}
  owner : Owner := {}
  nextOperationId : UInt32 := 0
  nextGeneration : UInt32 := 0
  queue : List Event := []
  worker : Worker := .idle
  /-- `s_bridge`: the context of the command at the scheduler. -/
  bridge : Option Context := none
  /-- Completions that have left the bridge and are not posted yet. -/
  done : List (Context × SubmitResult) := []
  calls : List Call := []
  history : History := {}

/-! ## Records -/

namespace Record

variable (r : Record)

/-- A new record of `schema_runtime_find_or_create_locked`. -/
def fresh (id : DeviceId) : Record := { used := true, committed := { deviceId := id } }

/-- A record that `schema_load_persisted` fills. -/
def loaded (snapshot : Snapshot) : Record :=
  { used := true
    hasCommitted := true
    committed := { snapshot with state := .ready, snapshotId := 0 } }

/-- The record waits for the owner of the running discovery. -/
def enqueue : Record :=
  { r with
    operationState := .queued
    committed := { r.committed with state := .discovering } }

/-- The record's discovery runs. -/
def run (operationId : UInt32) (kind : OperationKind) (generation : UInt32) : Record :=
  { r with
    operationId := operationId
    operationKind := kind
    operationState := .running
    stagingActive := false
    committed := { r.committed with state := .discovering }
    refreshActive := if kind = .manual then ⟨generation, .running⟩ else r.refreshActive }

/-- The reservation in `device_schema_refresh`. -/
def reserve (operationId generation : UInt32) : Record :=
  { r with
    operationKind := .manual
    operationState := .queued
    operationId := operationId
    refreshActive := ⟨generation, .queued⟩ }

/-- `device_schema_refresh` takes its reservation back. -/
def unreserve : Record := { r with operationState := .idle, refreshActive := ⟨0, .idle⟩ }

/-- The first branch of `handle_disconnect`. The generation is cleared before it is copied. -/
def disconnectRunning : Record :=
  let r := r.clearStaging
  let r :=
    if r.operationKind = .manual then
      let r := { r with refreshActive := ⟨0, .idle⟩ }
      { r with refreshLastCompleted := ⟨r.refreshActive.generation, .disconnected⟩ }
    else r.reportError
  { r with operationState := .idle }

/-- The second branch of `handle_disconnect`, which leaves the generation of the last completed
refresh. -/
def disconnectQueued : Record :=
  let r :=
    if r.operationKind = .manual then
      { r with
        refreshActive := ⟨0, .idle⟩
        refreshLastCompleted := { r.refreshLastCompleted with result := .disconnected } }
    else r.reportError
  { r with operationState := .idle }

/-- The `switch` of `handle_completion`. -/
def refreshResult : SubmitResult → RefreshResult
  | .ok => if r.hasCommitted then .success else .internalError
  | .busy => .busy
  | .timeout => .timeout
  | .notConnected => .disconnected
  | .transportError => .transportError
  | .rejected => .unsupported
  | .error => .internalError
  | .internalError => .internalError

/-- The record after the completion of its command. -/
def complete (generation : UInt32) (completion : SubmitResult) : Record :=
  -- a completion with `ok` reports no error, whether the stream was committed or not
  let r := if completion = .ok then r else r.reportError
  let r :=
    if r.operationKind = .manual then
      { r with
        refreshActive := ⟨0, .idle⟩
        refreshLastCompleted := ⟨generation, r.refreshResult completion⟩ }
    else r
  { r with operationState := .idle }

/-- The record after the first critical section of `device_schema_forget`. -/
def abandon : Record := { r.clearStaging with operationState := .idle }

end Record

/-- The first record that waits for its discovery. -/
def nextQueued (records : Records) : Option Ix :=
  Fin.find? fun i => (records i).used && decide ((records i).operationState = .queued)

namespace Sys

/-- `schema_runtime_find_locked`. -/
def find (s : Sys) (id : DeviceId) : Option Ix :=
  Directory.lookup Record.used Record.deviceId s.records id

def setRecord (s : Sys) (i : Ix) (r : Record) : Sys :=
  { s with records := Function.update s.records i r }

/-- `schema_runtime_find_or_create_locked`. -/
def findOrCreate (s : Sys) (id : DeviceId) : Option (Sys × Ix) :=
  match s.find id with
  | some i => some (s, i)
  | none => (Directory.vacant Record.used s.records).map fun i => (s.setRecord i (.fresh id), i)

/-- `schema_worker_post_event`, which drops the event when the queue is full. -/
def post (s : Sys) (e : Event) : Sys :=
  if s.queue.length < SCHEMA_EVENT_QUEUE_DEPTH then { s with queue := s.queue ++ [e] } else s

/-- The owner names the operation of the record. -/
def owns (s : Sys) (r : Record) : Bool :=
  s.owner.active && s.owner.deviceId = r.deviceId && s.owner.operationId = r.operationId

/-! ## The history -/

/-- The generation of the refresh that a device has in progress: its record waits for its turn,
or the owner names the record's operation. -/
def refreshing (s : Sys) (id : DeviceId) : Option UInt32 :=
  (s.find id).bind fun i =>
    let r := s.records i
    if r.operationKind = .manual ∧ (r.operationState = .queued ∨ s.owns r) ∧
        r.refreshActive.generation ≠ 0 then
      some r.refreshActive.generation
    else none

def note (s : Sys) (entries : List Entry) : Sys :=
  { s with history := { s.history with log := entries ++ s.history.log } }

/-- The entry of a refresh that is in progress again. -/
def revivedEntries (id : DeviceId) : Option UInt32 → Option UInt32 → List Entry
  | none, some generation => [.revived id generation]
  | _, _ => []

/-- The entry of a refresh that is no longer in progress. -/
def endedEntries (entry : UInt32 → Entry) : Option UInt32 → Option UInt32 → List Entry
  | some generation, none => [entry generation]
  | _, _ => []

/-- Enter that the refresh of a device is in progress again after a step from `s`. -/
def noteRevived (s' s : Sys) (id : DeviceId) : Sys :=
  s'.note (revivedEntries id (s.refreshing id) (s'.refreshing id))

/-- Enter how the refresh of a device has ended, if it is no longer in progress after a step from
`s`. -/
def noteEnded (s' s : Sys) (id : DeviceId) (entry : UInt32 → Entry) : Sys :=
  s'.note (endedEntries entry (s.refreshing id) (s'.refreshing id))

/-! ## The worker -/

/-- The decision of `schema_discovery_handle_ready`. -/
def handleReady (s : Sys) (id : DeviceId) : Sys :=
  match s.find id with
  | none => { s with worker := .start id .initial 0 }
  | some i =>
      let r := s.records i
      if r.hasCommitted ∧ r.committed.state = .ready then s
      else if r.operationState = .queued ∨ r.operationState = .running then s
      else if r.hasCommitted ∧ (r.committed.state = .error ∨ r.committed.state = .unsupported)
        then s
      else { s with worker := .start id .initial 0 }

/-- The critical section of `handle_disconnect`. -/
def handleDisconnect (s : Sys) (id : DeviceId) : Sys :=
  match s.find id with
  | none => s
  | some i =>
      let r := s.records i
      let entry (r' : Record) : List Entry :=
        if r.operationKind = .manual then
          [.completed id r'.refreshLastCompleted (s.history.opNo i)]
        else []
      if r.operationState = .running ∧ s.owns r then
        { (s.setRecord i r.disconnectRunning).note (entry r.disconnectRunning) with
          owner := { s.owner with active := false }
          worker := .startNext }
      else if r.operationState = .queued then
        { (s.setRecord i r.disconnectQueued).note (entry r.disconnectQueued) with
          worker := .startNext }
      else { s with worker := .startNext }

/-- The critical section of `handle_completion`. -/
def handleCompletion (s : Sys) (context : Context) (result : SubmitResult) : Sys :=
  match s.find context.deviceId with
  | none => { s with owner := { s.owner with active := false }, worker := .startNext }
  | some i =>
      let r := s.records i
      if !s.owner.active ∨ s.owner.deviceId ≠ context.deviceId ∨
          s.owner.operationId ≠ context.operationId then s
      else
        let r' := r.complete context.refreshGeneration result
        { (s.setRecord i r').note
            (if r.operationKind = .manual then
              [.completed context.deviceId r'.refreshLastCompleted (s.history.opNo i)]
            else []) with
          owner := { s.owner with active := false }
          worker := .startNext }

/-- `schema_protocol_handle_message`, up to the end of its first critical section. -/
def handleNotify (s : Sys) (id : DeviceId) (msg : Message) : Sys :=
  match s.find id with
  | none => s
  | some i =>
      let r := s.records i
      match handleMessage id msg r with
      | .ignored => s
      | .stored r' =>
          let h := s.history
          { s.setRecord i r' with
            history :=
              if msg.type = cstr "capabilities_begin" then
                { h with streamNo := Function.update h.streamNo i (h.opNo i) }
              else h }
      | .rejected => s.setRecord i r.resetError
      | .committed r' changed =>
          { s.setRecord i r' with
            worker := .persist id changed
            history := { s.history with commits := s.history.streamNo i :: s.history.commits } }

/-- The worker takes an event up to the end of its first critical section. -/
def handle (s : Sys) : Event → Sys
  | .ready id => s.handleReady id
  | .refresh id generation => { s with worker := .start id .manual generation }
  | .disconnect id => s.handleDisconnect id
  | .notify id msg => s.handleNotify id msg
  | .completion context result => s.handleCompletion context result

/-- `start_next_pending` up to its call of `start_discovery`. -/
def startNextPending (s : Sys) : Sys :=
  match if s.owner.active then none else nextQueued s.records with
  | none => { s with worker := .idle }
  | some i =>
      let r := s.records i
      if r.deviceId.text ≠ [] then
        { s with worker := .start r.deviceId r.operationKind r.refreshActive.generation }
      else { s with worker := .idle }

/-- The discovery takes the owner. -/
def runDiscovery (s : Sys) (i : Ix) (id : DeviceId) (kind : OperationKind) (generation : UInt32) :
    Sys :=
  let operationId := nextId s.nextOperationId
  let h := s.history
  { s.setRecord i ((s.records i).run operationId kind generation) with
    owner := ⟨true, id, operationId⟩
    nextOperationId := operationId
    worker := .submit ⟨id, operationId, generation⟩
    history := { h with
      started := h.started + 1
      opNo := Function.update h.opNo i (h.started + 1) } }

/-- The critical section of `start_discovery`. -/
def startDiscovery (s : Sys) (id : DeviceId) (kind : OperationKind) (generation : UInt32) : Sys :=
  match s.findOrCreate id with
  | none => { s with worker := .idle }
  | some (s₁, i) =>
      if s.owner.active then
        { s₁.setRecord i (s₁.records i).enqueue with worker := .idle }.noteRevived s id
      else (s₁.runDiscovery i id kind generation).noteRevived s id

/-- The call of the submitter; without room in the bridge it fails. -/
def submit (s : Sys) (context : Context) (accepted : Bool) : Sys :=
  if accepted ∧ s.bridge = none then { s with bridge := some context, worker := .idle }
  else { s with worker := .failed context.deviceId }

/-- The critical section after a failed submission. -/
def submitFailed (s : Sys) (id : DeviceId) : Sys :=
  let s₁ :=
    match s.find id with
    | none => s
    | some i => s.setRecord i (s.records i).resetError
  { s₁ with owner := { s.owner with active := false }, worker := .startNext }

/-- What `handle_end` does with the store after a commit. -/
def persist (s : Sys) (id : DeviceId) (changed stored : Bool) : Sys :=
  let s₁ :=
    match s.find id with
    | none => s
    | some i =>
        let r := s.records i
        if changed then
          if stored then s else s.setRecord i { r with persistDirty := true }
        else if r.persistDirty ∧ stored then s.setRecord i { r with persistDirty := false }
        else s
  { s₁ with worker := .idle }

/-- The next section of the worker; `ok` is whether a call that can fail succeeds. -/
def workerStep (s : Sys) (ok : Bool) : Option Sys :=
  match s.worker with
  | .idle =>
      match s.queue with
      | [] => none
      | e :: rest => some ({ s with queue := rest }.handle e)
  | .start id kind generation => some (s.startDiscovery id kind generation)
  | .submit context => some (s.submit context ok)
  | .failed id => some (s.submitFailed id)
  | .startNext => some s.startNextPending
  | .persist id changed => some (s.persist id changed ok)

/-! ## Calls of the API -/

/-- The first critical section of `device_schema_refresh`, for a device of the device store. -/
def refresh (s : Sys) (id : DeviceId) : Sys :=
  match s.findOrCreate id with
  | none => s
  | some (s₁, i) =>
      let r := s₁.records i
      if r.operationState = .queued ∨ r.operationState = .running then s
      else
        let generation := nextId s.nextGeneration
        let operationId := nextId s.nextOperationId
        { (s₁.setRecord i (r.reserve operationId generation)).note [.reserved id generation] with
          nextGeneration := generation
          nextOperationId := operationId
          calls := s.calls ++ [.posting id generation] }

/-- The second critical section of a failing `device_schema_refresh`. -/
def refreshRollback (s : Sys) (id : DeviceId) (generation : UInt32) : Sys :=
  let s₁ :=
    match s.find id with
    | none => s
    | some i => (s.setRecord i (s.records i).unreserve).noteEnded s id (.withdrawn id)
  s₁.note [.refused id generation]

/-- The first critical section of `device_schema_forget`. -/
def forget (s : Sys) (id : DeviceId) : Sys :=
  match s.find id with
  | none => s
  | some i =>
      let r := s.records i
      let owner :=
        if (r.operationState = .queued ∨ r.operationState = .running) ∧ s.owns r then
          { s.owner with active := false }
        else s.owner
      { s.setRecord i r.abandon with
        owner := owner
        calls := s.calls ++ [Call.erasing id] }.noteEnded s id (.forgotten id)

/-- The second critical section of `device_schema_forget`. -/
def forgetRecord (s : Sys) (id : DeviceId) : Sys :=
  match s.find id with
  | none => s
  | some i => (s.setRecord i {}).noteEnded s id (.forgotten id)

/-- The next section of a call, which has left the list of calls. -/
def callStep (s : Sys) (ok : Bool) : Call → Sys
  | .posting id generation =>
      if s.queue.length < SCHEMA_EVENT_QUEUE_DEPTH then s.post (.refresh id generation)
      else { s with calls := s.calls ++ [.rollback id generation] }
  | .rollback id generation => s.refreshRollback id generation
  | .erasing id => if ok then s.forgetRecord id else s

end Sys

/-! ## The machine -/

/-- What the environment decides. -/
inductive Label
  /-- `device_schema_on_ready`. -/
  | ready (id : DeviceId)
  /-- `device_schema_on_disconnect`. -/
  | disconnect (id : DeviceId)
  /-- `device_schema_on_notify`. -/
  | notify (id : DeviceId) (msg : Message)
  /-- `device_schema_refresh` is called. -/
  | refresh (id : DeviceId)
  /-- `device_schema_forget` is called. -/
  | forget (id : DeviceId)
  /-- Call number `k` goes on; `ok` is whether its erase from the store succeeds. -/
  | call (k : Nat) (ok : Bool)
  /-- The scheduler finishes the command at the bridge. -/
  | jobDone (result : SubmitResult)
  /-- Completion number `k` is posted. -/
  | post (k : Nat)
  /-- The worker goes on. -/
  | worker (ok : Bool)
  deriving DecidableEq

/-- One step of the system. -/
def Sys.step (s : Sys) : Label → Option Sys
  | .ready id => if id.text ≠ [] then some (s.post (.ready id)) else none
  | .disconnect id => if id.text ≠ [] then some (s.post (.disconnect id)) else none
  | .notify id msg => some (s.post (.notify id msg))
  | .refresh id => if id.text ≠ [] then some (s.refresh id) else none
  | .forget id => if id.text ≠ [] then some (s.forget id) else none
  | .call k ok =>
      match s.calls[k]? with
      | some c => some ({ s with calls := s.calls.eraseIdx k }.callStep ok c)
      | none => none
  | .jobDone result =>
      match s.bridge with
      | some context => some { s with bridge := none, done := s.done ++ [(context, result)] }
      | none => none
  | .post k =>
      match s.done[k]? with
      | some (context, result) =>
          some ({ s with done := s.done.eraseIdx k }.post (.completion context result))
      | none => none
  | .worker ok => s.workerStep ok

/-- The component after `device_schema_init`: the records that `schema_load_persisted` has
loaded, each with a committed snapshot. -/
structure Sys.Initial (s : Sys) : Prop where
  loaded : ∀ i, (s.records i).used = true →
    ∃ snapshot : Snapshot, snapshot.deviceId.text ≠ [] ∧ s.records i = .loaded snapshot
  vacant : ∀ i, (s.records i).used = false → s.records i = {}
  rest : s = ⟨s.records, {}, 0, 0, [], .idle, none, [], [], {}⟩

def machine : Machine Sys Label where
  init := Sys.Initial
  step := Sys.step

end BleGateway.DeviceSchema
