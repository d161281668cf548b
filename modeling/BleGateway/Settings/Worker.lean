import BleGateway.Settings.TxActor

set_option autoImplicit false

/-! # The settings component

The streams, the transactions and the actor together, with the callers and the scheduler around
them. A handler or a public function is a critical section and then, step by step, what it still
owes the actor. The scheduler is what it holds for the component: requests for leases and commands
it has accepted, each of which it answers once, at any time and with any result.

The operations and the transactions are numbered in the order in which they were accepted. These
numbers and the log are history.
-/

namespace BleGateway.Settings

/-- What a function still has to do after its critical section. -/
inductive Rest
  | post (event : ActorEvent)
  | cancel (id : DeviceId)
  | txCancel (id : DeviceId)
  | purge (id : DeviceId)
  | describe (id : DeviceId)
  | get (id : DeviceId)
  | reconcile (id : DeviceId)
  | resolve (res : Resolution)
  deriving DecidableEq

/-- The part of an effect that is still to be done. -/
def Effect.rest? : Effect → Option Rest
  | .valuesComplete id success => some (.post (.valuesStreamComplete id success))
  | .reconcile id => some (.reconcile id)
  | .workerDisconnect id => some (.post (.disconnected id))
  | .cancel id => some (.cancel id)
  | .describe id => some (.describe id)
  | .get id => some (.get id)
  | .txCancel id => some (.txCancel id)
  | .publishState .. | .publishChanged .. | .publishReconnecting .. | .commitSchema ..
  | .commitValues .. => none

/-- The last section of `device_settings_forget`. -/
def Protocol.purge (s : Protocol) (id : DeviceId) : Protocol :=
  match s.findRecord id with
  | some i => s.setRecord i {}
  | none => s

/-! ## States -/

/-- A request for a lease that the scheduler has accepted. -/
inductive LeaseRequest
  | op (serial : Nat)
  | tx (request : TxLeaseRequest)
  deriving DecidableEq

/-- A command that the scheduler has accepted. -/
inductive WorkerJob
  | op (serial : Nat)
  | tx (job : TxJob)
  deriving DecidableEq

/-- An entry of the log. -/
inductive Entry
  | opRequested (serial : Nat) (id : DeviceId)
  | txRequested (serial : Nat) (id : DeviceId) (changes : Nat)
  | granted (request : LeaseRequest) (lease : UInt32)
  | answered (job : WorkerJob) (status : DeviceCommandStatus)
  | handled (event : ActorEvent)
  | op (serial : Nat) (action : OpAction)
  | tx (serial : Nat) (action : TxAction)
  | gone (id : DeviceId)
  deriving DecidableEq

/-- `txGeneration` and `txOwner` are `s_tx_cookie`, `txDevice` is `s_tx_device`; `retry` says that
the retry timer is armed, for the operation with the number. -/
structure Worker where
  store : Transactions := {}
  actor : Actor := {}
  txGeneration : UInt32 := 0
  txOwner : UInt32 := 0
  txDevice : DeviceId := .empty
  calls : List (List Rest) := []
  leases : List LeaseRequest := []
  jobs : List WorkerJob := []
  retry : Option Nat := none
  clock : Nat := 0
  opSerial : OpIx → Nat := fun _ => 0
  txSerial : Tx → Nat := fun _ => 0
  log : List Entry := []

namespace Worker

variable (w : Worker)

/-! ## History -/

/-- The operation that an action is about. -/
def opEntry : OpAction → Entry
  | .acquire slot id owner accepted => .op (w.opSerial slot) (.acquire slot id owner accepted)
  | .submit slot id kind accepted => .op (w.opSerial slot) (.submit slot id kind accepted)
  | .armRetry slot => .op (w.opSerial slot) (.armRetry slot)
  | .cancelSource slot id owner => .op (w.opSerial slot) (.cancelSource slot id owner)
  | .releaseLease slot lease => .op (w.opSerial slot) (.releaseLease slot lease)
  | .releaseStray lease => .op 0 (.releaseStray lease)
  | .complete slot id result => .op (w.opSerial slot) (.complete slot id result)

/-- An operation asks the scheduler or the timer for something. -/
def recordOp (action : OpAction) : Worker :=
  let w := { w with log := w.log ++ [w.opEntry action] }
  match action with
  | .acquire slot _ _ true => { w with leases := w.leases ++ [.op (w.opSerial slot)] }
  | .submit slot _ _ true => { w with jobs := w.jobs ++ [.op (w.opSerial slot)] }
  | .armRetry slot => { w with retry := some (w.opSerial slot) }
  | _ => w

/-- The transaction that an action is about. -/
def txEntry : TxAction → Entry
  | .effect e => .tx 0 (.effect e)
  | .submit slot command accepted => .tx (w.txSerial slot) (.submit slot command accepted)
  | .cancelSource slot id owner => .tx (w.txSerial slot) (.cancelSource slot id owner)
  | .begun slot lease => .tx (w.txSerial slot) (.begun slot lease)
  | .finished slot id result => .tx (w.txSerial slot) (.finished slot id result)
  | .acquire origin id owner accepted => .tx origin (.acquire origin id owner accepted)

/-- A transaction asks the scheduler for something. -/
def recordTx (action : TxAction) : Worker :=
  let w := { w with log := w.log ++ [w.txEntry action] }
  match action with
  | .acquire origin id _ true => { w with leases := w.leases ++ [.tx ⟨id, origin⟩] }
  | .submit slot command true =>
      { w with jobs := w.jobs ++ [.tx ⟨slot, w.txSerial slot, command⟩] }
  | _ => w

def withOps (r : Actor × List OpAction) : Worker :=
  r.2.foldl recordOp { w with actor := r.1 }

def withTxs (r : TxStep) : Worker := r.2.foldl recordTx { w with store := r.1 }

/-! ## Public functions -/

def schemaState (id : DeviceId) : SchemaState :=
  ((w.store.protocol.recordOf id).getD {}).schemaState

/-- An operation is accepted into the free record, or refused. -/
def request (id : DeviceId) (r : Except EspErr Actor) : Worker :=
  match r, w.actor.freeOp with
  | .ok actor, some slot =>
      { w with
        actor
        clock := w.clock + 1
        opSerial := Function.update w.opSerial slot w.clock
        log := w.log ++ [.opRequested w.clock id] }
  | _, _ => w

/-- `device_settings_save`; `alloc` says that there is memory for the changes. -/
def save (id : DeviceId) (changes : List ChangeRequest) (expectedConfigRev : UInt32)
    (completion context : Ptr) (alloc : Bool) : Worker :=
  let r := w.store.table.save w.store.protocol id changes expectedConfigRev completion context
    alloc (decide (w.actor.events.length < DS_EVENT_QUEUE_LEN))
  let w' := { w with store := { w.store with table := r.table } }
  match r.start, Directory.vacant Transaction.active w.store.table.txns with
  | some owner, some slot =>
      { w' with
        actor := w.actor.post (.transactionStart id owner owner w.clock)
        clock := w.clock + 1
        txSerial := Function.update w.txSerial slot w.clock
        log := w.log ++ [.txRequested w.clock id changes.length] }
  | _, _ => w'

/-- The next thing that a call under way does, and what it finds to do then. -/
def perform (locked : Bool) : Rest → Worker × List Rest
  | .post event => ({ w with actor := w.actor.post event }, [])
  | .cancel id => ({ w with actor := w.actor.cancel id }, [])
  | .txCancel id =>
      (if (w.store.table.find id).isSome then
        { w with actor := w.actor.post (.transactionAbort id) }
      else w, [])
  | .purge id =>
      (if locked then
        { w with store := { w.store with protocol := w.store.protocol.purge id } }
      else w, [])
  | .describe id => (w.request id (w.actor.describe id (w.schemaState id)), [])
  | .get id => (w.request id (w.actor.get id (w.schemaState id)), [])
  | .reconcile id =>
      let (store, res) := w.store.reconcileBegin id locked
      ({ w with store }, (res.map .resolve).toList)
  | .resolve res => (w.withTxs (w.store.reconcileEnd res), [])

/-- A handler has left its critical section. -/
def handled (r : Protocol × List Effect) (more : List Rest) : Worker :=
  { w with
    store := { w.store with protocol := r.1 }
    calls := w.calls ++ [r.2.filterMap Effect.rest? ++ more] }

/-! ## The actor -/

/-- `TRANSACTION_START` makes the transaction the one whose lease the actor waits for. -/
def prepare : ActorEvent → Worker
  | .transactionStart id generation owner _ =>
      { w with txGeneration := generation, txOwner := owner, txDevice := id }
  | _ => w

/-- What a round of `actor_task` does with the event for the transactions. -/
def txRound (acquired submitted armed : Bool) : ActorEvent → TxStep
  | .txLeaseResult generation owner ok lease _ =>
      if generation = w.txGeneration ∧ owner = w.txOwner then
        if ok ∧ lease ≠ 0 then w.store.actorBegin w.txDevice w.txOwner lease submitted
        else w.store.actorAbort w.txDevice
      else (w.store, if lease = 0 then [] else [.effect (.releaseLease lease)])
  | .txCommandComplete id result _ => w.store.commandComplete id result submitted armed
  | .transactionStart id _ owner origin =>
      TxStep.next (w.store, [.acquire origin id owner acquired]) fun s =>
        if acquired then (s, []) else s.actorAbort id
  | .transactionAbort id => w.store.actorAbort id
  | .transactionTimeout id => w.store.actorTimeout id
  | .disconnected id => w.store.actorDisconnect id armed
  | .cancelDevice id | .forgetDevice id => w.store.actorAbort id
  | .startOperation | .leaseResult .. | .commandComplete .. | .valuesStreamComplete ..
  | .retryTimer .. => (w.store, [])

def handleTx (acquired submitted armed : Bool) (event : ActorEvent) : Worker :=
  (w.prepare event).withTxs (w.txRound acquired submitted armed event)

/-- One round of `actor_task` with the event. -/
def handleEvent (acquired submitted armed : Bool) (event : ActorEvent) : Worker :=
  let w := { w with log := w.log ++ [Entry.handled event] }
  (w.withOps (w.actor.handle acquired submitted event)).handleTx acquired submitted armed event

/-! ## Steps -/

inductive Act
  | notify (id : DeviceId) (msg : Message) (alloc locked : Bool)
  | disconnect (id : DeviceId) (locked : Bool)
  | forget (id : DeviceId) (locked : Bool)
  | capability (id : DeviceId) (supported : Bool) (schemaRevision : UInt16) (locked : Bool)
  | describe (id : DeviceId)
  | get (id : DeviceId)
  | cancel (id : DeviceId)
  | save (id : DeviceId) (changes : List ChangeRequest) (expectedConfigRev : UInt32)
      (completion context : Ptr) (alloc : Bool)
  | txCancel (id : DeviceId)
  | reconcile (id : DeviceId)
  | proceed (call : Nat) (locked : Bool)
  | leaseDone (n : Nat) (ok : Bool) (lease : UInt32)
  | jobDone (n : Nat) (result : DeviceCommandResult)
  | retryTimer
  | reconTimer (slot : Tx)
  | actor (acquired submitted armed : Bool)

/-- The scheduler answers a request for a lease. -/
def leaseDone (request : LeaseRequest) (ok : Bool) (lease : UInt32) : Worker :=
  let w := { w with log := w.log ++ [Entry.granted request (if ok then lease else 0)] }
  match request with
  | .op serial => { w with actor := w.actor.leaseDone ok lease serial }
  -- `post_tx_lease_done` reads the cookie now
  | .tx request =>
      { w with actor := w.actor.post (.txLeaseResult w.txGeneration w.txOwner ok lease request) }

/-- The scheduler reports the end of a command. -/
def jobDone (job : WorkerJob) (result : DeviceCommandResult) : Worker :=
  let w := { w with log := w.log ++ [Entry.answered job result.status] }
  match job with
  | .op serial => { w with actor := w.actor.commandDone result.status serial }
  -- `on_scheduler_complete` reads the device from the slot now
  | .tx job =>
      { w with
        actor := w.actor.post (.txCommandComplete (w.store.tx job.slot).deviceId result job) }

def step : Act → Option Worker
  | .notify id msg alloc locked =>
      some (w.handled (w.store.protocol.onNotify id msg alloc locked) [])
  | .disconnect id locked =>
      if id.text = [] then some w
      else
        let w := w.handled (w.store.protocol.onDisconnect id locked) []
        some { w with log := w.log ++ [.gone id] }
  | .forget id locked =>
      if id.text = [] then some w
      else
        let w := w.handled (w.store.protocol.onDisconnect id locked)
          [.cancel id, .txCancel id, .purge id]
        some { w with log := w.log ++ [.gone id] }
  | .capability id supported schemaRevision locked =>
      some (w.handled (w.store.protocol.onCapability id supported schemaRevision locked) [])
  | .describe id => some (w.perform true (.describe id)).1
  | .get id => some (w.perform true (.get id)).1
  | .cancel id => some (w.perform true (.cancel id)).1
  | .save id changes expectedConfigRev completion context alloc =>
      some (w.save id changes expectedConfigRev completion context alloc)
  | .txCancel id => some (w.perform true (.txCancel id)).1
  | .reconcile id => some { w with calls := w.calls ++ [[.reconcile id]] }
  | .proceed call locked =>
      match w.calls[call]? with
      | some (rest :: more) =>
          let (w, found) := w.perform locked rest
          some { w with calls := w.calls.set call (found ++ more) }
      | some [] | none => none
  | .leaseDone n ok lease =>
      w.leases[n]?.map fun request =>
        { w with leases := w.leases.eraseIdx n }.leaseDone request ok lease
  | .jobDone n result =>
      w.jobs[n]?.map fun job => { w with jobs := w.jobs.eraseIdx n }.jobDone job result
  | .retryTimer =>
      w.retry.map fun serial => { w with retry := none, actor := w.actor.retryTimer serial }
  | .reconTimer slot =>
      if (w.store.tx slot).reconTimer then
        some (if (w.store.tx slot).active then
          { w with actor := w.actor.post (.transactionTimeout (w.store.tx slot).deviceId) }
        else w)
      else none
  | .actor acquired submitted armed =>
      match w.actor.events with
      | [] => none
      | event :: rest =>
          some ({ w with actor := { w.actor with events := rest } }.handleEvent
            acquired submitted armed event)

/-- The component as a machine. -/
def machine : Machine Worker Act where
  init w := w = {}
  step := step

end Worker

end BleGateway.Settings
