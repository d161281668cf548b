import BleGateway.Settings.Reconcile
import BleGateway.Settings.Actor

set_option autoImplicit false

/-! # Transactions in the actor

The part of `device_settings_transaction.c` that the actor carries out: a transaction begins when it
has got its lease, and goes on with the acknowledgement of each of its commands. A function gives
the new state and what it does outside, in order; the answer of the scheduler to a command
(`submitted`) and whether a timer can be started (`armed`) come with the step.
-/

namespace BleGateway.Settings

/-- What the actor does for a transaction. `finished` stands where `ds_tx_complete` or a
reconciliation stores the result. -/
inductive TxAction
  | effect (e : TxEffect)
  | submit (slot : Tx) (command : TxCommand) (accepted : Bool)
  | cancelSource (slot : Tx) (id : DeviceId) (owner : UInt32)
  | acquire (origin : Nat) (id : DeviceId) (owner : UInt32) (accepted : Bool)
  | begun (slot : Tx) (lease : UInt32)
  | finished (slot : Tx) (id : DeviceId) (result : TxResult)
  deriving DecidableEq

/-- The device records, which the transactions read and mark, and the transactions. -/
structure Transactions where
  protocol : Protocol := {}
  table : TxTable := {}

/-- The outcome of a function: the new state, and what it has done. -/
abbrev TxStep := Transactions × List TxAction

/-- One thing after the other. -/
def TxStep.next (r : TxStep) (f : Transactions → TxStep) : TxStep :=
  let (s, actions) := r
  let (s, more) := f s
  (s, actions ++ more)

namespace Transactions

variable (s : Transactions)

def tx (k : Tx) : Transaction := s.table.txns k

def setTx (k : Tx) (tx : Transaction) : Transactions := { s with table := s.table.setTx k tx }

@[simp] theorem setTx_self (k : Tx) (tx : Transaction) : (s.setTx k tx).tx k = tx := by
  show Function.update s.table.txns k tx k = tx
  rw [Function.update_self]

theorem setTx_of_ne {k k' : Tx} (h : k' ≠ k) (tx : Transaction) :
    (s.setTx k tx).tx k' = s.tx k' := by
  show Function.update s.table.txns k tx k' = s.table.txns k'
  rw [Function.update_of_ne h]

/-- `transition_tx`. -/
def transition (k : Tx) (state : TxState) : TxStep :=
  let (tx, effects) := (s.tx k).transitionTx state
  (s.setTx k tx, effects.map .effect)

/-- `ds_tx_complete`. -/
def complete (k : Tx) (result : TxResult) (configRevision : UInt32) : TxStep :=
  let (table, effects) := s.table.complete k result configRevision
  ({ s with table }, effects.map .effect ++ [.finished k (s.tx k).deviceId result])

/-- A transition in front of `ds_tx_complete`. -/
def conclude (k : Tx) (state : TxState) (result : TxResult) : TxStep :=
  (s.transition k state).next fun s => s.complete k result 0

/-- `release_tx_lease`. -/
def releaseLease (k : Tx) : TxStep :=
  if (s.tx k).leaseId = 0 then (s, [])
  else (s.setTx k { s.tx k with leaseId := 0 }, [.effect (.releaseLease (s.tx k).leaseId)])

/-- `start_reconciliation_timer`. -/
def startTimer (k : Tx) (armed : Bool) : Transactions :=
  if (s.tx k).reconTimer then s else s.setTx k { s.tx k with reconTimer := armed }

/-- `mark_reconciliation_pending`. -/
def markPending (k : Tx) (armed : Bool) : TxStep :=
  let tx := s.tx k
  if !tx.active then (s, [])
  else
    let expected := if tx.newConfigRev ≠ 0 then tx.newConfigRev else tx.expectedConfigRev + 1
    let protocol := s.protocol.setReconciliation tx.deviceId true expected tx.expectedConfigRev
    (({ s with protocol }.transition k .waitingReboot)).next fun s => (s.startTimer k armed, [])

/-- A transition, and the command that goes with it. -/
def send (k : Tx) (state : TxState) (command : TxCommand) (submitted : Bool) : TxStep :=
  (s.transition k state).next fun s =>
    TxStep.next (s, [.submit k command submitted]) fun s =>
      if submitted then (s, []) else s.conclude k .failed .internal

/-- `submit_next_command`. -/
def submitNext (k : Tx) (submitted : Bool) : TxStep :=
  let tx := s.tx k
  if !tx.active then (s, [])
  else if ((s.protocol.recordOf tx.deviceId).bind (·.schema)).isNone then
    s.conclude k .failed .internal
  else if tx.nextChangeIndex < tx.changes.length then
    s.send k .setSent (.set tx.nextChangeIndex) submitted
  else s.send k .commitSent .commit submitted

/-- The completion of a command that may have been carried out: behind the commit the outcome is
left to the reconciliation. -/
def ambiguous (k : Tx) (result : TxResult) (armed : Bool) : TxStep :=
  if (s.tx k).state = .commitSent ∨ (s.tx k).state = .confirmSent then
    (s.markPending k armed).next fun s => s.releaseLease k
  else s.conclude k .failed result

/-- The revision in the answer of the device. -/
def newRevision (tx : Transaction) (result : DeviceCommandResult) : UInt32 :=
  if result.hasIntValue then result.intValue.toUInt32 else tx.newConfigRev

/-- The `DEVICE_CMD_STATUS_OK` of `device_settings_tx_actor_command_complete`. -/
def acknowledged (k : Tx) (result : DeviceCommandResult) (submitted armed : Bool) : TxStep :=
  let tx := s.tx k
  match tx.state with
  | .beginSent => s.submitNext k submitted
  | .setSent =>
      let tx := { tx with nextChangeIndex := tx.nextChangeIndex + 1 }
      TxStep.next (s.setTx k tx, tx.publishTx.map .effect) fun s => s.submitNext k submitted
  | .commitSent =>
      (s.setTx k { tx with newConfigRev := newRevision tx result }).send k .confirmSent .confirm
        submitted
  | .confirmSent => s.markPending k armed
  | _ => (s, [])

/-- `device_settings_tx_actor_command_complete` while the device restarts: only the revision of a
late answer counts. -/
def lateAnswer (k : Tx) (result : DeviceCommandResult) : Transactions :=
  if result.status = .ok ∧ result.hasIntValue then
    let tx := { s.tx k with newConfigRev := result.intValue.toUInt32 }
    let protocol := match s.protocol.findRecord tx.deviceId with
      | some i =>
          s.protocol.setRecord i { s.protocol.records i with
            reconciliationExpectedRev := tx.newConfigRev }
      | none => s.protocol
    { s with protocol }.setTx k tx
  else s

/-- `device_settings_tx_actor_command_complete`. -/
def commandComplete (id : DeviceId) (result : DeviceCommandResult) (submitted armed : Bool) :
    TxStep :=
  match s.table.find id with
  | none => (s, [])
  | some k =>
      if (s.tx k).state = .waitingReboot then (s.lateAnswer k result, [])
      else
        match result.status with
        | .ok => s.acknowledged k result submitted armed
        | .rejected =>
            if (s.tx k).state = .beginSent then s.conclude k .conflict .deviceConflict
            else s.conclude k .failed .deviceRejected
        | .busy => s.conclude k .failed .deviceRejected
        | .timeout => s.ambiguous k .timeout armed
        | .notConnected => s.ambiguous k .disconnected armed
        | .cancelled => s.conclude k .cancelled .cancelled
        | _ => s.conclude k .failed .internal

/-- `device_settings_tx_actor_begin`. -/
def actorBegin (id : DeviceId) (owner lease : UInt32) (submitted : Bool) : TxStep :=
  match s.table.find id with
  | none => (s, if lease = 0 then [] else [.effect (.releaseLease lease)])
  | some k =>
      let s := s.setTx k { s.tx k with ownerToken := owner, leaseId := lease }
      TxStep.next (s, [.begun k lease]) fun s =>
        (s.transition k .beginSent).next fun s =>
          TxStep.next (s, [.submit k .begin submitted]) fun s =>
            if submitted then (s, []) else s.complete k .internal 0

/-- `device_settings_tx_actor_abort`. -/
def actorAbort (id : DeviceId) : TxStep :=
  match s.table.find id with
  | none => (s, [])
  | some k =>
      TxStep.next (s, [.cancelSource k id (s.tx k).ownerToken]) fun s => s.complete k .cancelled 0

/-- A transaction whose commit may have been carried out. -/
def preserved (state : TxState) : Bool :=
  state = .commitSent || state = .confirmSent || state = .waitingReboot

/-- `device_settings_tx_actor_on_disconnect`, and the abort when it does not keep the
transaction. -/
def actorDisconnect (id : DeviceId) (armed : Bool) : TxStep :=
  match s.table.find id with
  | none => s.actorAbort id
  | some k =>
      if !preserved (s.tx k).state then s.actorAbort id
      else
        TxStep.next (if (s.tx k).state = .waitingReboot then (s, []) else s.markPending k armed)
          fun s => s.releaseLease k

/-- `device_settings_tx_actor_timeout`. -/
def actorTimeout (id : DeviceId) : TxStep :=
  match s.table.find id with
  | none => (s, [])
  | some k =>
      if (s.tx k).state ≠ .waitingReboot then s.actorAbort id
      else s.complete k .outcomeUnknown 0

end Transactions

/-! ## Reconciliation in two sections -/

/-- What `device_settings_reconcile` remembers when it gives the mutex back. -/
structure Resolution where
  slot : Tx
  outcome : TxResult
  configRevision : UInt32
  id : DeviceId
  effects : List TxEffect
  completion : Ptr
  context : Ptr
  deriving DecidableEq

namespace Transactions

variable (s : Transactions)

/-- `device_settings_reconcile` under the mutex. -/
def reconcileBegin (id : DeviceId) (locked : Bool) : Transactions × Option Resolution :=
  if id.text = [] ∨ !locked then (s, none)
  else
    match s.protocol.findRecord id with
    | none => (s, none)
    | some i =>
        let r := s.protocol.records i
        if !r.pendingReconciliation then (s, none)
        else
          let settled := { s with
            protocol := s.protocol.setRecord i { r with pendingReconciliation := false } }
          match (s.table.find id).filter fun k => (s.tx k).state = .waitingReboot with
          | none => (settled, none)
          | some k =>
              let tx := s.tx k
              let outcome := reconcileOutcome r tx.changes
              let verifying := r.configRev = r.reconciliationExpectedRev
              let tx := if verifying then { tx with state := .verifying } else tx
              (settled.setTx k tx, some
                { slot := k
                  outcome
                  configRevision := r.configRev
                  id
                  effects := (if verifying then [.publish (tx.event .verifying)] else []) ++
                    [.publish (tx.event (outcomeState outcome))]
                  completion := tx.completion
                  context := tx.context })

/-- The rest of `device_settings_reconcile`, on whatever the slot holds now. -/
def reconcileEnd (res : Resolution) : TxStep :=
  let tx := s.tx res.slot
  let table := s.table.storeResult tx.deviceId res.outcome res.configRevision
  ({ s with table := table.setTx res.slot tx.free },
    res.effects.map .effect ++ [.finished res.slot tx.deviceId res.outcome] ++
      (if res.completion ≠ 0 then [.effect (.completed res.completion res.context res.outcome)]
        else []) ++
      [.effect (.publishChanged res.id res.configRevision)])

end Transactions

end BleGateway.Settings
