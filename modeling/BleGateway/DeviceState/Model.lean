import BleGateway.Types
import BleGateway.Lib.Compaction

set_option autoImplicit false

/-! # The feature states of the devices

`device_state.c`. The component keeps the last value that a device reported for each of its
features. A report comes as a notification or with the acknowledgement of a command, and the
entries of a device go when the device is forgotten. Every function holds the lock from its
first access to the table to its last.

The log lines are left out, and so is the seeding of the table, which asks devices for values
that come back as acknowledgements.
-/

namespace BleGateway.DeviceState

def DEVICE_STATE_MAX_ENTRIES : Nat := 192
def DEVICE_STATE_SNAPSHOT_MAX : Nat := 12

/-- `device_feature_id_t`. -/
abbrev FeatureId := CharBuf DEVICE_FEATURE_ID_MAX_LEN

/-- The fields of `gw_message_t` that the component reads; a value with a `has_` flag is `none`
without it. -/
structure Message where
  type : CString
  command : CString := []
  boolValue : Bool := false
  featureId : Option FeatureId := none
  hasPropertyId : Bool := false
  propertyId : UInt8 := 0
  featureValueBool : Option Bool := none
  featureValueInt : Option Int32 := none
  deriving DecidableEq

/-- `device_state_entry_t`; the default value is the one `memset` leaves. -/
structure StateEntry where
  deviceId : DeviceId := .empty
  featureId : FeatureId := .empty
  propertyId : UInt8 := 0
  valueBool : Bool := false
  valueInt : Int32 := 0
  valid : Bool := false
  updatedAtMs : Int := 0
  deriving DecidableEq

/-- What names an entry. -/
structure Key where
  deviceId : DeviceId
  featureId : FeatureId
  propertyId : UInt8
  deriving DecidableEq

def StateEntry.key (e : StateEntry) : Key := ⟨e.deviceId, e.featureId, e.propertyId⟩

/-- Enter a key. -/
def StateEntry.setKey (e : StateEntry) (key : Key) : StateEntry :=
  { e with deviceId := key.deviceId, featureId := key.featureId, propertyId := key.propertyId }

/-- The values of one report. -/
structure Report where
  bool : Option Bool
  int : Option Int32
  deriving DecidableEq

def Message.report (msg : Message) : Report := ⟨msg.featureValueBool, msg.featureValueInt⟩

/-- The report carries a value. -/
def Report.hasValue (r : Report) : Bool := r.bool.isSome || r.int.isSome

/-- The entry after a report. -/
def StateEntry.enter (e : StateEntry) (r : Report) (nowMs : Int) : StateEntry :=
  { e with
    valueBool := r.bool.getD e.valueBool
    valueInt := r.int.getD e.valueInt
    valid := true
    updatedAtMs := nowMs }

/-- The `value_kind` of a `gateway_event_t`, with the value. -/
inductive EventValue
  | none
  | bool (v : Bool)
  | int (v : Int32)
  deriving DecidableEq

def Report.eventValue : Report → EventValue
  | ⟨some v, _⟩ => .bool v
  | ⟨none, some v⟩ => .int v
  | ⟨none, none⟩ => .none

/-- The fields of the published `gateway_event_t`. -/
structure GatewayEvent where
  key : Key
  updatedAtMs : Int
  value : EventValue
  deriving DecidableEq

/-- `s_entries` and `s_count`. The places from `count` on hold what was there before. -/
structure StateTable where
  cells : Nat → StateEntry := fun _ => {}
  count : Nat := 0
  bounded : count ≤ DEVICE_STATE_MAX_ENTRIES := by decide

namespace StateTable

/-- The entries in use. -/
def entries (t : StateTable) : List StateEntry := Compaction.front t.cells t.count

/-- `find_entry`: the first place with the key. -/
def findEntry (t : StateTable) (key : Key) : Option Nat :=
  (List.range t.count).find? fun i => (t.cells i).key = key

/-- Write one place. -/
def setCell (t : StateTable) (i : Nat) (e : StateEntry) : StateTable :=
  { t with cells := Function.update t.cells i e }

/-- `allocate_entry`: the place behind the last one, as it is. -/
def allocateEntry (t : StateTable) : Option (StateTable × Nat) :=
  if h : t.count < DEVICE_STATE_MAX_ENTRIES then
    some ({ t with count := t.count + 1, bounded := h }, t.count)
  else none

/-- `find_entry`, and the allocation with its copies when there is no entry. -/
def findOrAllocate (t : StateTable) (key : Key) : Option (StateTable × Nat) :=
  match t.findEntry key with
  | some i => some (t, i)
  | none =>
      (t.allocateEntry).map fun (t, i) =>
        (t.setCell i ((t.cells i).setKey key), i)

/-- `apply_feature_state`: the table, and the event it publishes unless the report is dropped. -/
def applyFeatureState (t : StateTable) (key : Key) (r : Report) (nowMs : Int) :
    StateTable × Option GatewayEvent :=
  match t.findOrAllocate key with
  | none => (t, none)
  | some (t, i) => (t.setCell i ((t.cells i).enter r nowMs), some ⟨key, nowMs, r.eventValue⟩)

/-- The key and the values of a message that `device_state_on_notify` consumes. -/
def notifyReport (id : DeviceId) (msg : Message) : Option (Key × Report) :=
  if msg.type ≠ cstr "device_event" ∨ msg.command ≠ cstr "feature_state" then none
  else msg.featureId.map fun featureId => (⟨id, featureId, msg.propertyId⟩, msg.report)

/-- `device_state_on_notify`, with its result. -/
def onNotify (t : StateTable) (id : DeviceId) (msg : Message) (nowMs : Int) :
    (StateTable × Option GatewayEvent) × Bool :=
  match notifyReport id msg with
  | none => ((t, none), false)
  | some (key, r) => (t.applyFeatureState key r nowMs, true)

/-- The key and the values of a message that `device_state_on_command_ack` applies. -/
def ackReport (id : DeviceId) (msg : Message) : Option (Key × Report) :=
  if msg.type ≠ cstr "device_ack" then none
  -- only apply when the command was accepted
  else if !msg.boolValue then none
  else if !msg.hasPropertyId then none
  else if !msg.report.hasValue then none
  else msg.featureId.map fun featureId => (⟨id, featureId, msg.propertyId⟩, msg.report)

/-- `device_state_on_command_ack`. -/
def onCommandAck (t : StateTable) (id : DeviceId) (msg : Message) (nowMs : Int) :
    StateTable × Option GatewayEvent :=
  match ackReport id msg with
  | none => (t, none)
  | some (key, r) => t.applyFeatureState key r nowMs

/-- `device_state_get`. -/
def get (t : StateTable) (key : Key) : Except EspErr StateEntry :=
  match t.findEntry key with
  | some i => if (t.cells i).valid then .ok (t.cells i) else .error .notFound
  | none => .error .notFound

/-- `device_state_snapshot`. -/
def snapshot (t : StateTable) (id : DeviceId) : List StateEntry :=
  (t.entries.filter fun e => e.deviceId = id).take DEVICE_STATE_SNAPSHOT_MAX

/-- `device_state_forget`. -/
def forget (t : StateTable) (id : DeviceId) : StateTable :=
  { cells := (Compaction.compact (fun e => e.deviceId ≠ id) t.cells t.count).1
    count := (Compaction.compact (fun e => e.deviceId ≠ id) t.cells t.count).2
    bounded := (Compaction.compact_spec _ t.cells t.count).2.1.trans t.bounded }

end StateTable

/-! ## Histories -/

/-- What happens to the component. -/
inductive Event
  | notify (id : DeviceId) (msg : Message) (nowMs : Int)
  | commandAck (id : DeviceId) (msg : Message) (nowMs : Int)
  | forget (id : DeviceId)

/-- The table after one event. -/
def StateTable.step (t : StateTable) : Event → StateTable
  | .notify id msg nowMs => (t.onNotify id msg nowMs).1.1
  | .commandAck id msg nowMs => (t.onCommandAck id msg nowMs).1
  | .forget id => t.forget id

/-- The table after a history, whose latest event comes first. `device_state_init` starts with
a table of zeros. -/
def exec : List Event → StateTable
  | [] => {}
  | e :: older => (exec older).step e

end BleGateway.DeviceState
