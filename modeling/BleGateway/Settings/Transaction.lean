import BleGateway.Settings.Records

set_option autoImplicit false

/-! # Settings transactions

The transaction objects of `device_settings_transaction.c` and the public functions on them. A
transaction carries a list of changes to a device; the gateway takes it when every change fits
the schema of the device.

A function gives the new state and what it does outside, in order. It depends on whether its
memory can be allocated (`alloc`) and whether the queue of the actor takes its event (`posted`).
-/

namespace BleGateway.Settings

def DS_TX_MAX_CHANGES : Nat := 16

/-- The bytes of the union of a `ds_change_request_t`. -/
def DS_CHANGE_UNION_SIZE : Nat := 128

instance : NeZero DS_CHANGE_UNION_SIZE := ⟨by decide⟩

/-- `ds_change_request_t`. The union is its bytes; every member is read from the front. -/
structure ChangeRequest where
  settingId : Text GW_SETTINGS_CBOR_MAX_ID_LEN
  type : UInt8
  union : Vector UInt8 DS_CHANGE_UNION_SIZE
  deriving DecidableEq

namespace ChangeRequest

/-- One byte of the union. -/
def byte (c : ChangeRequest) (k : Fin DS_CHANGE_UNION_SIZE) : UInt8 := c.union[k]

def boolVal (c : ChangeRequest) : Bool := c.byte 0 ≠ 0

/-- The first four bytes, as a little-endian number. -/
def intVal (c : ChangeRequest) : Int32 :=
  ((c.byte 0).toUInt32 ||| (c.byte 1).toUInt32 <<< 8 ||| (c.byte 2).toUInt32 <<< 16 |||
    (c.byte 3).toUInt32 <<< 24).toInt32

/-- `enum_val`, an `int32_t` like `int_val`. -/
def enumVal (c : ChangeRequest) : Int32 := c.intVal

/-- The bytes of `string_val.str` in front of the first NUL; all of them when there is none. -/
def str (c : ChangeRequest) : CString := c.union.toList.takeWhile (· ≠ 0)

end ChangeRequest

inductive TxState
  | idle | prevalidating | beginSent | setSent | commitSent | confirmSent | waitingReboot
  | verifying | succeeded | failed | conflict | cancelled | outcomeUnknown
  deriving DecidableEq

inductive TxResult
  | ok | busy | validationFailed | memoryError | deviceConflict | deviceRejected | timeout
  | disconnected | cancelled | failed | outcomeUnknown | internal
  deriving DecidableEq

/-- `gateway_settings_tx_state_t`. -/
inductive WsTxState
  | queued | validating | starting | applying | committing | confirming | waitingReboot
  | reconnecting | verifying | succeeded | failed | conflict | cancelled | outcomeUnknown
  deriving DecidableEq

/-- `ws_tx_state`. -/
def wsTxState : TxState → WsTxState
  | .idle => .queued
  | .prevalidating => .validating
  | .beginSent => .starting
  | .setSent => .applying
  | .commitSent => .committing
  | .confirmSent => .confirming
  | .waitingReboot => .waitingReboot
  | .verifying => .verifying
  | .succeeded => .succeeded
  | .failed => .failed
  | .conflict => .conflict
  | .cancelled => .cancelled
  | .outcomeUnknown => .outcomeUnknown

/-- `ds_transaction_t`; the default value is the one `memset` leaves. `reconTimer` says that a
reconciliation timer is armed. -/
structure Transaction where
  active : Bool := false
  deviceId : DeviceId := .empty
  state : TxState := .idle
  changes : List ChangeRequest := []
  nextChangeIndex : Nat := 0
  transactionId : UInt64 := 0
  ownerToken : UInt32 := 0
  leaseId : UInt32 := 0
  expectedConfigRev : UInt32 := 0
  newConfigRev : UInt32 := 0
  completion : Ptr := 0
  context : Ptr := 0
  reconTimer : Bool := false
  deriving DecidableEq

/-- `ds_tx_result_record_t`. -/
structure TxResultRecord where
  used : Bool := false
  deviceId : DeviceId := .empty
  result : TxResult := .ok
  configRevision : UInt32 := 0
  deriving DecidableEq

/-- The fields of a `GW_EVENT_SETTINGS_TRANSACTION`. -/
structure TxEvent where
  deviceId : DeviceId
  transactionId : UInt64
  expectedRevision : UInt32
  newRevision : UInt32
  progressCurrent : Nat
  progressTotal : Nat
  state : WsTxState
  deriving DecidableEq

/-- What the functions on transactions do outside their state. -/
inductive TxEffect
  | publish (event : TxEvent)
  | releaseLease (lease : UInt32)
  | completed (completion context : Ptr) (result : TxResult)
  | publishChanged (id : DeviceId) (configRevision : UInt32)
  deriving DecidableEq

/-- An index into the transactions, and into the results. -/
abbrev Tx := Fin DEVICE_SETTINGS_MAX_DEVICES

/-- `s_txns`, `s_tx_results` and `s_next_transaction_id`. -/
structure TxTable where
  txns : Tx → Transaction := fun _ => {}
  results : Tx → TxResultRecord := fun _ => {}
  nextTransactionId : UInt64 := 0

/-- The event of a transaction in the wire state `state`. -/
def Transaction.event (tx : Transaction) (state : WsTxState) : TxEvent where
  deviceId := tx.deviceId
  transactionId := tx.transactionId
  expectedRevision := tx.expectedConfigRev
  newRevision := tx.newConfigRev
  progressCurrent := tx.nextChangeIndex
  progressTotal := tx.changes.length
  state := state

/-- `publish_tx`. -/
def Transaction.publishTx (tx : Transaction) : List TxEffect :=
  if tx.active then [.publish (tx.event (wsTxState tx.state))] else []

/-- `transition_tx`. -/
def Transaction.transitionTx (tx : Transaction) (state : TxState) : Transaction × List TxEffect :=
  if tx.state = state then (tx, [])
  else ({ tx with state := state }, { tx with state := state }.publishTx)

/-- `ds_tx_free`. -/
def Transaction.free (tx : Transaction) : Transaction :=
  { tx with reconTimer := false, changes := [], active := false }

namespace TxTable

def setTx (t : TxTable) (k : Tx) (tx : Transaction) : TxTable :=
  { t with txns := Function.update t.txns k tx }

def setResult (t : TxTable) (k : Tx) (r : TxResultRecord) : TxTable :=
  { t with results := Function.update t.results k r }

/-- `ds_tx_find`. -/
def find (t : TxTable) (id : DeviceId) : Option Tx :=
  if id.text = [] then none
  else Directory.lookup Transaction.active Transaction.deviceId t.txns id

/-- `ds_tx_alloc`. -/
def alloc (t : TxTable) : Option (TxTable × Tx) :=
  (Directory.vacant Transaction.active t.txns).map fun k => (t.setTx k { active := true }, k)

/-- `device_settings_tx_store_result`; a result is lost when there is no place for it. -/
def storeResult (t : TxTable) (id : DeviceId) (result : TxResult) (configRevision : UInt32) :
    TxTable :=
  if id.text = [] then t
  else
    match Directory.lookup TxResultRecord.used TxResultRecord.deviceId t.results id with
    | some k =>
        t.setResult k { t.results k with result := result, configRevision := configRevision }
    | none =>
        match Directory.vacant TxResultRecord.used t.results with
        | some k =>
            t.setResult k { used := true, deviceId := id, result, configRevision }
        | none => t

/-- `ds_tx_complete`. -/
def complete (t : TxTable) (k : Tx) (result : TxResult) (configRevision : UInt32) :
    TxTable × List TxEffect :=
  let state : TxState := match result with
    | .ok => .succeeded
    | .deviceConflict => .conflict
    | .cancelled => .cancelled
    | .outcomeUnknown => .outcomeUnknown
    | _ => .failed
  let (tx, published) := (t.txns k).transitionTx state
  let released := if tx.leaseId ≠ 0 then [.releaseLease tx.leaseId] else []
  let tx := { tx with leaseId := 0 }
  let t := (t.setTx k tx).storeResult tx.deviceId result configRevision
  (t.setTx k tx.free, published ++ released ++
    if tx.completion ≠ 0 then [.completed tx.completion tx.context result] else [])

/-- `next_transaction_id`: zero is reserved. -/
def nextId (t : TxTable) : UInt64 :=
  if t.nextTransactionId + 1 = 0 then t.nextTransactionId + 1 + 1 else t.nextTransactionId + 1

end TxTable

/-! ## Prevalidation -/

/-- The range check of a number. The signed subtraction is taken to wrap; the language leaves its
overflow undefined. -/
def intAllowed (desc : SettingDesc) (v : Int32) : Bool :=
  !(v < desc.minValue || v > desc.maxValue ||
    (desc.step ≠ 0 && (v - desc.minValue).toUInt32 % desc.step ≠ 0))

/-- The value is one of the options of the setting. -/
def enumAllowed (schema : Schema) (desc : SettingDesc) (v : Int32) : Bool :=
  ((schema.enumOptionPool.drop desc.optionIndex).take desc.optionCount).any fun o =>
    o.value.toUInt32.toInt32 = v

/-- The text is terminated, fits a command and the setting. -/
def stringAllowed (desc : SettingDesc) (s : CString) : Bool :=
  !(s.length ≥ DS_CHANGE_UNION_SIZE || s.length ≥ GW_SETTINGS_VALUE_MAX_LEN ||
    (desc.maxLength ≠ 0 && s.length > desc.maxLength.toNat))

/-- `prevalidate_change`. -/
def prevalidateChange (schema : Option Schema) (change : ChangeRequest) : Bool :=
  match schema with
  | none => false
  | some schema =>
      if change.settingId.text = [] then false
      else
        match schema.descriptors.find? fun d => schema.idOf d = change.settingId.text with
        | none => false
        | some desc =>
            if desc.flags &&& DS_FLAG_WRITABLE = 0 then false
            else if desc.type ≠ change.type then false
            else if desc.type = DS_TYPE_FLOAT then false
            else if desc.type = DS_TYPE_INT ∧ !intAllowed desc change.intVal then false
            else if desc.type = DS_TYPE_ENUM ∧ !enumAllowed schema desc change.enumVal then false
            else if desc.type = DS_TYPE_STRING ∧ !stringAllowed desc change.str then false
            else true

/-! ## Save and status -/

/-- What `device_settings_save` gives: its answer, the transaction id it hands out, and the owner
token of the `TRANSACTION_START` event that it has posted. -/
structure SaveResult where
  table : TxTable
  err : EspErr
  transactionId : Option UInt64 := none
  start : Option UInt32 := none
  effects : List TxEffect := []

namespace TxTable

/-- The changes are all valid. -/
def prevalidate (schema : Option Schema) (changes : List ChangeRequest) : Bool :=
  changes.all (prevalidateChange schema)

/-- `device_settings_save`. -/
def save (t : TxTable) (p : Protocol) (id : DeviceId) (changes : List ChangeRequest)
    (expectedConfigRev : UInt32) (completion context : Ptr) (alloc posted : Bool) : SaveResult :=
  if id.text = [] then { table := t, err := .invalidArg }
  else if changes = [] ∨ changes.length > DS_TX_MAX_CHANGES then { table := t, err := .invalidArg }
  else if (t.find id).isSome then { table := t, err := .invalidState }
  else
    match p.recordOf id with
    | none => { table := t, err := .invalidState }
    | some r =>
        if r.schemaState ≠ .ready ∨ r.schema = none then { table := t, err := .invalidState }
        else
          match t.alloc with
          | none => { table := t, err := .noMem }
          | some (t, k) =>
              let txId := t.nextId
              let t := { t with nextTransactionId := txId }
              let tx : Transaction :=
                { active := true
                  deviceId := id
                  transactionId := txId
                  expectedConfigRev := expectedConfigRev }
              if !alloc then
                { table := t.setTx k tx.free, err := .noMem, transactionId := some txId }
              else
                let tx := { tx with changes, completion, context }
                -- published as queued, before validation begins
                let queued := tx.publishTx
                let (tx, validating) := tx.transitionTx .prevalidating
                let (table, err) :=
                  if !prevalidate r.schema changes then (t.setTx k tx.free, .invalidArg)
                  else if !posted then (t.setTx k tx.free, .noMem)
                  else (t.setTx k tx, .ok)
                { table := table
                  err := err
                  transactionId := some txId
                  start := if err = .ok then some txId.toUInt32 else none
                  effects := queued ++ validating }

end TxTable

end BleGateway.Settings
