import BleGateway.Scheduler.System
import BleGateway.DeviceStore.Store

set_option autoImplicit false

/-! # Adding and deleting devices

`device_management.c` over the device store and the scheduler. The callers are the handlers of
one HTTP task, so there is one call at a time; the scheduler goes on while a delete is under
way. A delete is therefore a sequence of steps, one for each call it makes, and between them the
scheduler may take any step of its own. Only this component blocks and unblocks devices.

The answers of the store, of the forget functions and of the BLE central come from the labels.
-/

namespace BleGateway.Management

open DeviceStore (StoreResult Entry BleIdentity)

inductive MgmtStatus
  | ok | invalidArg | notFound | conflict | capacity | busy | degraded | internal
  deriving DecidableEq

/-- `map_store_result`. -/
def mapStoreResult : StoreResult → MgmtStatus
  | .ok => .ok
  | .invalidArg => .invalidArg
  | .notFound => .notFound
  | .duplicateId | .duplicateBleIdentity => .conflict
  | .full | .capacityExceeded => .capacity
  | .busy => .busy
  | _ => .internal

/-- `device_mgmt_add_request_t`. -/
structure AddRequest where
  deviceId : DeviceId
  name : CharBuf DEVICE_NAME_MAX_LEN := .empty
  identity : Option BleIdentity := none

/-- `device_mgmt_add_result_t`. -/
structure AddResult where
  status : MgmtStatus := .invalidArg
  persisted : Bool := false
  connectRequested : Bool := false
  deriving DecidableEq

/-- `device_mgmt_delete_result_t`. -/
structure DeleteResult where
  status : MgmtStatus := .invalidArg
  schedulerQuiesced : Bool := false
  commandCancelRequested : Bool := false
  settingsForgotten : Bool := false
  schemaForgotten : Bool := false
  stateForgotten : Bool := false
  blePeerForgotten : Bool := false
  storeDeleted : Bool := false
  deriving DecidableEq

/-- What the component answers and publishes. -/
inductive Outcome
  | added (id : DeviceId) (result : AddResult)
  | deleted (id : DeviceId) (result : DeleteResult)
  | publishAdded (id : DeviceId)
  | publishChanged (id : DeviceId)
  | publishRemoved (id : DeviceId)
  deriving DecidableEq

/-! ## The store -/

/-- How a call of the store goes: its mutex is not free in time, NVS fails, or neither. -/
inductive StoreAnswer
  | busy | persistence | fine
  deriving DecidableEq

/-- The result of a call and the list of devices after it. When NVS fails the list stays. -/
def StoreAnswer.perform (a : StoreAnswer) (store : List Entry) (op : DeviceStore.Effect) :
    StoreResult × List Entry :=
  match a with
  | .busy => (.busy, store)
  | .persistence => if op.calls = [] then (op.result, op.after) else (.persistence, store)
  | .fine => (op.result, op.after)

/-- `device_store_add`, which checks its texts before it takes the mutex. -/
def storeAdd (a : StoreAnswer) (store : List Entry) (id name : CString) :
    StoreResult × List Entry :=
  match DeviceStore.entryCreate id name with
  | none => (.invalidArg, store)
  | some _ => a.perform store (DeviceStore.add store id name)

/-- `device_store_set_ble_identity`, which checks the address type before it takes the mutex. -/
def storeSetIdentity (a : StoreAnswer) (store : List Entry) (id : CString)
    (identity : BleIdentity) : StoreResult × List Entry :=
  if identity.addrType > DeviceStore.DEVICE_STORE_BLE_ADDR_TYPE_MAX then (.invalidArg, store)
  else a.perform store (DeviceStore.setBleIdentity store id identity)

/-- `device_store_delete`. -/
def storeDelete (a : StoreAnswer) (store : List Entry) (id : CString) :
    StoreResult × List Entry :=
  a.perform store (DeviceStore.delete store id)

/-- `device_store_get`. -/
def storeGet (a : StoreAnswer) (store : List Entry) (id : CString) : Except StoreResult Entry :=
  if a = .busy then .error .busy
  else
    match store.find? fun e => e.deviceId.text = id with
    | some e => .ok e
    | none => .error .notFound

/-! ## Adding -/

/-- How the calls of an add go: the three of the store, and the BLE central. -/
structure AddAnswers where
  add : StoreAnswer := .fine
  identity : StoreAnswer := .fine
  rollback : StoreAnswer := .fine
  connect : Bool := true

/-- `device_management_add`: its result, the devices after it, and whether it has published the
new device. -/
def add (store : List Entry) (request : AddRequest) (a : AddAnswers) :
    AddResult × List Entry × Bool :=
  if request.deviceId.text = [] then ({}, store, false)
  else
    let name := if request.name.text ≠ [] then request.name.text else request.deviceId.text
    match storeAdd a.add store request.deviceId.text name with
    | (.ok, stored) =>
        match request.identity with
        | none => ({ status := .ok, persisted := true }, stored, true)
        | some identity =>
            match storeSetIdentity a.identity stored request.deviceId.text identity with
            | (.ok, stored) =>
                ({ status := .ok, persisted := true, connectRequested := a.connect }, stored, true)
            | (err, _) =>
                match storeDelete a.rollback stored request.deviceId.text with
                | (.ok, stored) => ({ status := mapStoreResult err }, stored, false)
                | (_, stored) => ({ status := .degraded, persisted := true }, stored, false)
    | (err, store) => ({ status := mapStoreResult err }, store, false)

/-! ## Deleting -/

/-- What `device_management_delete` does next. -/
inductive Stage
  | block
  /-- Inside `device_control_scheduler_quiesce_device`: it blocks again, cancels and polls. -/
  | quiesceBlock | quiesceCancel | quiescePoll
  | settingsForget | schemaForget | forgetPeer | storeDelete
  /-- Unblock the device and answer with the status. -/
  | unblock (status : MgmtStatus)
  deriving DecidableEq

/-- A delete that is under way. -/
structure Deletion where
  entry : Entry
  stage : Stage := .block
  result : DeleteResult := {}

/-- The scheduler, the devices of the store, the delete that is under way, and what has been
answered and published. -/
structure Gateway where
  scheduler : Scheduler.Sys
  store : List Entry
  deletion : Option Deletion := none
  outcomes : List Outcome := []

namespace Gateway

/-- Go on with a delete. -/
def at_ (w : Gateway) (del : Deletion) (stage : Stage) : Gateway :=
  { w with deletion := some { del with stage } }

/-- Go on with a delete after a call of the scheduler. -/
def call (w : Gateway) (label : Scheduler.Label) (del : Deletion) (stage : Stage) :
    Option Gateway :=
  (w.scheduler.step label).map fun scheduler => { w with scheduler }.at_ del stage

/-- End a delete. -/
def answer (w : Gateway) (result : DeleteResult) (id : DeviceId) (published : List Outcome) :
    Gateway :=
  { w with deletion := none, outcomes := w.outcomes ++ published ++ [.deleted id result] }

/-- The next step of a delete. `ok` is the answer of the forget functions and of the BLE central,
and says whether there is time left while it polls. -/
def deleteStep (w : Gateway) (del : Deletion) (ok : Bool) (a : StoreAnswer) : Option Gateway :=
  let id := del.entry.deviceId
  let ctrl := w.scheduler.ctrl
  match del.stage with
  | .block =>
      w.call (.blockDevice (some id.text)) del
        (if (Scheduler.blockDevice ctrl (some id.text)).2 = .ok then .quiesceBlock
          else .unblock .busy)
  | .quiesceBlock =>
      w.call (.blockDevice (some id.text)) del
        (if (Scheduler.blockDevice ctrl (some id.text)).2 = .ok then .quiesceCancel
          else .unblock .busy)
  | .quiesceCancel => w.call (.cancelDevice (some id.text)) del .quiescePoll
  | .quiescePoll =>
      if Scheduler.isIdle ctrl id.text then
        some (w.at_ { del with
          result := { del.result with schedulerQuiesced := true, commandCancelRequested := true } }
          .settingsForget)
      else if ok then some w
      else some (w.at_ del (.unblock .busy))
  | .settingsForget =>
      if ok then
        some (w.at_ { del with result := { del.result with settingsForgotten := true } }
          .schemaForget)
      else some (w.at_ del (.unblock .internal))
  | .schemaForget =>
      -- the forget of the state comes next and cannot fail
      if ok then
        some (w.at_ { del with
          result := { del.result with schemaForgotten := true, stateForgotten := true } }
          .forgetPeer)
      else some (w.at_ del (.unblock .internal))
  | .forgetPeer =>
      some (w.at_ { del with result := { del.result with blePeerForgotten := ok } } .storeDelete)
  | .storeDelete =>
      let (result, store) := Management.storeDelete a w.store id.text
      if result = .ok then
        some ({ w with store }.answer
          { del.result with
            storeDeleted := true
            status := if del.result.blePeerForgotten then .ok else .degraded }
          id [.publishRemoved id])
      -- the store deletion failed, so this device remains in the inventory
      else some ({ w with store }.at_ del (.unblock .degraded))
  | .unblock status =>
      (w.scheduler.step (.unblockDevice (some id.text))).map fun scheduler =>
        { w with scheduler }.answer { del.result with status } id [.publishChanged id]

end Gateway

/-! ## Steps -/

inductive Label
  | scheduler (label : Scheduler.Label)
  | add (request : AddRequest) (a : AddAnswers)
  | delete (id : DeviceId) (a : StoreAnswer)
  | deleteStep (ok : Bool) (a : StoreAnswer)

/-- The rest of the gateway calls these functions of the scheduler. -/
def fromOutside : Scheduler.Label → Bool
  | .blockDevice _ => false
  | .unblockDevice _ => false
  | _ => true

def Gateway.step (w : Gateway) : Label → Option Gateway
  | .scheduler label =>
      if fromOutside label then
        (w.scheduler.step label).map fun scheduler => { w with scheduler }
      else none
  | .add request a =>
      if w.deletion.isSome then none
      else
        let (result, store, published) := add w.store request a
        some { w with
          store
          outcomes := w.outcomes ++ (if published then [.publishAdded request.deviceId] else []) ++
            [.added request.deviceId result] }
  | .delete id a =>
      if w.deletion.isSome then none
      else if id.text = [] then some (w.answer {} id [])
      else
        match storeGet a w.store id.text with
        | .error err => some (w.answer { status := mapStoreResult err } id [])
        | .ok entry => some { w with deletion := some { entry } }
  | .deleteStep ok a => w.deletion.bind fun del => w.deleteStep del ok a

/-- The device has been asked to be deleted, and the delete has not ended. -/
def Gateway.deleting (w : Gateway) (id : DeviceId) : Prop :=
  w.deletion.any (·.entry.deviceId = id) = true

/-- The gateway as a machine: it starts with a fresh scheduler, and devices with different
ids. -/
def machine : Machine Gateway Label where
  init w := w.scheduler = Scheduler.boot ∧ w.deletion = none ∧ w.outcomes = [] ∧
    (w.store.map (·.deviceId)).Nodup
  step := Gateway.step

end BleGateway.Management
