import BleGateway.Types
import BleGateway.Lib.Directory

set_option autoImplicit false

/-! # The state of the BLE central

The connection slots and callback contexts of `ble_central_state.c` and the device records of
`ble_central_runtime.c`, with the operations that take the state mutex. Each operation is one
critical section.

The mutex is taken within its timeout. Times are the numbers that `ble_now_ms` returns. Metrics,
peer addresses, GATT handles and the MTU are left out, but for the flag that a record has an
address.
-/

namespace BleGateway.BleCentral

/-- `CONFIG_BT_NIMBLE_MAX_CONNECTIONS`. -/
def BLE_CENTRAL_MAX_CONN : Nat := 9

def BLE_HS_CONN_HANDLE_NONE : UInt16 := 0xFFFF

def BLE_RETRY_INITIAL_MS : Int := 2000

def BLE_RETRY_MAX_MS : Int := 30000

/-- An index into the device records. -/
abbrev DeviceIx := Fin DEVICE_STORE_MAX_DEVICES

/-- An index into the connection slots. -/
abbrev SlotIx := Fin BLE_CENTRAL_MAX_CONN

/-- An index into the callback contexts. -/
abbrev CtxIx := Fin BLE_CENTRAL_MAX_CONN

theorem devices_pos : 0 < DEVICE_STORE_MAX_DEVICES := by decide

theorem slots_pos : 0 < BLE_CENTRAL_MAX_CONN := by decide

/-- `ble_device_state_t`. -/
inductive DeviceState
  | offline | connecting | connected | backoff | removing
  deriving DecidableEq

/-- `ble_conn_state_t`. -/
inductive ConnState
  | free | connecting | securing | discovering | ready | disconnecting
  deriving DecidableEq

/-- The results of `ble_connection_start`. -/
inductive Err
  | notFound | noSlot | busy | connectInProgress | stack | noResource | state
  deriving DecidableEq

/-- `ble_conn_ref_t`. -/
structure Ref where
  slotIndex : SlotIx := ⟨0, slots_pos⟩
  generation : UInt32 := 0
  deriving DecidableEq

/-- `ble_device_runtime_t`. No slot is `-1` in the code; the default value is the one `memset`
leaves, with slot 0. -/
structure Device where
  inUse : Bool := false
  deviceId : DeviceId := .empty
  hasPeerAddr : Bool := false
  connectionSlot : Option SlotIx := some ⟨0, slots_pos⟩
  state : DeviceState := .offline
  reconnectEnabled : Bool := false
  retryCount : UInt8 := 0
  lastAttemptMs : Int := 0
  nextRetryMs : Int := 0
  deriving DecidableEq

/-- `ble_conn_slot_t`; the default value is a slot after `ble_conn_reset_to_free_unlocked`. -/
structure Slot where
  state : ConnState := .free
  deviceIndex : Option DeviceIx := none
  generation : UInt32 := 0
  connHandle : UInt16 := BLE_HS_CONN_HANDLE_NONE
  deriving DecidableEq

/-- `ble_callback_ctx_t`. -/
structure Ctx where
  inUse : Bool := false
  ref : Ref := {}
  connHandle : UInt16 := 0
  deriving DecidableEq

/-- The state behind the mutex. -/
structure Central where
  devices : DeviceIx → Device := fun _ => {}
  slots : SlotIx → Slot := fun _ => {}
  ctxs : CtxIx → Ctx := fun _ => {}
  /-- `s_scheduler_cursor`. -/
  cursor : DeviceIx := ⟨0, devices_pos⟩

/-! ## Records -/

/-- The loop of `ble_backoff_delay_ms`. -/
def backoffLoop : Nat → Int → Int
  | 0, delay => delay
  | n + 1, delay => if delay < BLE_RETRY_MAX_MS then backoffLoop n (delay * 2) else delay

def backoffDelayMs (retryCount : UInt8) : Int :=
  min (backoffLoop retryCount.toNat BLE_RETRY_INITIAL_MS) BLE_RETRY_MAX_MS

namespace Device

variable (dev : Device)

/-- A record that `ble_runtime_register_unlocked` fills. -/
def registered (id : DeviceId) (hasPeerAddr : Bool) : Device :=
  { inUse := true
    deviceId := id
    hasPeerAddr := hasPeerAddr
    connectionSlot := none
    reconnectEnabled := true }

/-- `ble_schedule_retry_unlocked`. -/
def scheduleRetry (nowMs : Int) : Device :=
  { dev with
    retryCount := dev.retryCount + 1
    lastAttemptMs := nowMs
    nextRetryMs := nowMs + backoffDelayMs dev.retryCount }

/-- The record has a connection attempt under way in the slot. -/
def reserve (i : SlotIx) (nowMs : Int) : Device :=
  { dev with connectionSlot := some i, state := .connecting, lastAttemptMs := nowMs }

/-- The record after its attempt is rolled back. -/
def rollBack (nowMs : Int) : Device :=
  if dev.state = .connecting then
    { dev with connectionSlot := none, state := .backoff }.scheduleRetry nowMs
  else { dev with connectionSlot := none }

/-- The record after its connection is gone. -/
def disconnect (nowMs : Int) : Device :=
  if dev.state ≠ .removing then
    { dev with connectionSlot := none, state := .backoff }.scheduleRetry nowMs
  else { dev with connectionSlot := none }

/-- The record after `ble_scheduler_note_failure` finds it connecting. -/
def fail (nowMs : Int) : Device :=
  { dev with connectionSlot := none, state := .backoff }.scheduleRetry nowMs

/-- The record after a reset of the host. -/
def hostReset : Device :=
  if !dev.inUse then dev
  else if dev.state = .removing then {}
  else
    { dev with
      connectionSlot := none
      state := if dev.state = .connecting ∨ dev.state = .connected ∨ dev.state = .backoff then
        .offline else dev.state
      lastAttemptMs := 0
      nextRetryMs := 0 }

/-- The record is marked for its removal. -/
def remove : Device :=
  if dev.state ≠ .removing then { dev with reconnectEnabled := false, state := .removing } else dev

end Device

namespace Slot

variable (slot : Slot)

/-- `ble_conn_reset_to_free_unlocked`. -/
def free : Slot := { generation := slot.generation }

/-- `ble_conn_prepare_new_lifetime_unlocked`. -/
def newLifetime (d : DeviceIx) : Slot :=
  { state := .connecting, deviceIndex := some d, generation := slot.generation + 1 }

/-- The slot after a reset of the host. -/
def hostReset : Slot :=
  if slot.state = .free then slot else { slot with generation := slot.generation + 1 }.free

end Slot

namespace Central

variable (c : Central)

/-! ## The tables -/

/-- `ble_runtime_find_unlocked`. -/
def find (id : DeviceId) : Option DeviceIx :=
  Directory.lookup Device.inUse Device.deviceId c.devices id

def setDevice (d : DeviceIx) (dev : Device) : Central :=
  { c with devices := Function.update c.devices d dev }

def setSlot (i : SlotIx) (slot : Slot) : Central :=
  { c with slots := Function.update c.slots i slot }

def setCtx (k : CtxIx) (ctx : Ctx) : Central :=
  { c with ctxs := Function.update c.ctxs k ctx }

/-- `ble_ref_valid_unlocked`. -/
def refValid (ref : Ref) : Bool :=
  (c.slots ref.slotIndex).state ≠ .free && (c.slots ref.slotIndex).generation = ref.generation

/-- The first slot in a state. -/
def firstSlot (state : ConnState) : Option SlotIx :=
  Fin.find? fun i => decide ((c.slots i).state = state)

/-- The first record in use that names the slot. -/
def deviceOf (i : SlotIx) : Option DeviceIx :=
  Fin.find? fun d => (c.devices d).inUse && decide ((c.devices d).connectionSlot = some i)

/-- The first context in use with the reference. -/
def ctxOf (ref : Ref) : Option CtxIx :=
  Fin.find? fun k => (c.ctxs k).inUse && decide ((c.ctxs k).ref = ref)

section Writes

variable (d : DeviceIx) (dev : Device) (i : SlotIx) (slot : Slot) (k : CtxIx) (ctx : Ctx)

@[simp] theorem setDevice_devices :
    (c.setDevice d dev).devices = Function.update c.devices d dev := rfl

@[simp] theorem setDevice_slots : (c.setDevice d dev).slots = c.slots := rfl

@[simp] theorem setDevice_ctxs : (c.setDevice d dev).ctxs = c.ctxs := rfl

@[simp] theorem setSlot_devices : (c.setSlot i slot).devices = c.devices := rfl

@[simp] theorem setSlot_slots : (c.setSlot i slot).slots = Function.update c.slots i slot := rfl

@[simp] theorem setSlot_ctxs : (c.setSlot i slot).ctxs = c.ctxs := rfl

@[simp] theorem setCtx_devices : (c.setCtx k ctx).devices = c.devices := rfl

@[simp] theorem setCtx_slots : (c.setCtx k ctx).slots = c.slots := rfl

@[simp] theorem setCtx_ctxs : (c.setCtx k ctx).ctxs = Function.update c.ctxs k ctx := rfl

end Writes

/-! ## Device records -/

/-- `ble_runtime_find_or_register`, with an address. -/
def findOrRegister (id : DeviceId) : Central × Option DeviceIx :=
  match c.find id with
  | some d => (c.setDevice d { c.devices d with hasPeerAddr := true }, some d)
  | none =>
      match Directory.vacant Device.inUse c.devices with
      | some d => (c.setDevice d (.registered id true), some d)
      | none => (c, none)

/-- `ble_runtime_set_peer_addr`. -/
def setPeerAddr (d : DeviceIx) : Central :=
  if (c.devices d).inUse then c.setDevice d { c.devices d with hasPeerAddr := true } else c

/-- `ble_runtime_finalize_remove`. -/
def finalizeRemove (d : DeviceIx) : Central :=
  if (c.devices d).inUse ∧ (c.devices d).state = .removing then c.setDevice d {} else c

/-- `ble_scheduler_note_success`. -/
def noteSuccess (d : DeviceIx) (nowMs : Int) : Central :=
  if (c.devices d).inUse ∧ (c.devices d).state ≠ .removing then
    c.setDevice d { c.devices d with retryCount := 0, lastAttemptMs := nowMs, nextRetryMs := 0 }
  else c

/-- `ble_scheduler_note_failure`. -/
def noteFailure (d : DeviceIx) (nowMs : Int) : Central :=
  let dev := c.devices d
  if dev.inUse ∧ dev.state = .connecting then
    let freed :=
      match dev.connectionSlot with
      | some i => if (c.slots i).deviceIndex = some d then c.setSlot i (c.slots i).free else c
      | none => c
    freed.setDevice d (dev.fail nowMs)
  else c

/-- The test of `ble_scheduler_next_device`. -/
def eligible (nowMs : Int) (d : DeviceIx) : Bool :=
  let dev := c.devices d
  dev.inUse && dev.reconnectEnabled && (dev.state = .offline || dev.state = .backoff) &&
    dev.connectionSlot = none && dev.hasPeerAddr && !decide (nowMs < dev.nextRetryMs)

/-- The record that comes `n` places after the cursor. -/
def fromCursor (n : DeviceIx) : DeviceIx :=
  ⟨(c.cursor.val + n.val) % DEVICE_STORE_MAX_DEVICES, Nat.mod_lt _ devices_pos⟩

/-- `ble_scheduler_next_device`. -/
def nextDevice (nowMs : Int) : Central × Option DeviceIx :=
  match Fin.find? fun n => c.eligible nowMs (c.fromCursor n) with
  | some n =>
      let d := c.fromCursor n
      ({ c with cursor := ⟨(d.val + 1) % DEVICE_STORE_MAX_DEVICES, Nat.mod_lt _ devices_pos⟩ },
        some d)
  | none => (c, none)

/-! ## Connection slots -/

/-- `ble_state_reserve_connection`. -/
def reserveConnection (d : DeviceIx) (nowMs : Int) : Except Err (Central × Ref) :=
  let dev := c.devices d
  if !dev.inUse then .error .notFound
  else if dev.state ≠ .offline ∧ dev.state ≠ .backoff then .error .busy
  else if dev.connectionSlot ≠ none then .error .state
  else if c.firstSlot .connecting ≠ none then .error .connectInProgress
  else
    match c.firstSlot .free with
    | none => .error .noSlot
    | some i =>
        let slot := (c.slots i).newLifetime d
        .ok ((c.setSlot i slot).setDevice d (dev.reserve i nowMs), ⟨i, slot.generation⟩)

/-- `ble_state_rollback_connection_start`. The loop over the records looks at the slot's index
only. -/
def rollbackConnectionStart (ref : Ref) (nowMs : Int) : Central :=
  let freed :=
    if c.refValid ref ∧ (c.slots ref.slotIndex).deviceIndex ≠ none then
      c.setSlot ref.slotIndex (c.slots ref.slotIndex).free
    else c
  match c.deviceOf ref.slotIndex with
  | some d => freed.setDevice d ((c.devices d).rollBack nowMs)
  | none => freed

/-- `ble_state_on_connect_success`, with the context of the reference. -/
def onConnectSuccess (ref : Ref) (handle : UInt16) : Central × Bool :=
  let slot := c.slots ref.slotIndex
  if c.refValid ref ∧ slot.state = .connecting then
    let c₁ := c.setSlot ref.slotIndex { slot with connHandle := handle, state := .securing }
    match c.ctxOf ref with
    | some k => (c₁.setCtx k { c.ctxs k with connHandle := handle }, true)
    | none => (c₁, true)
  else (c, false)

/-- `ble_state_on_disconnect`: the record whose connection was released, if the reference is not
stale. -/
def onDisconnect (ref : Ref) (handle : UInt16) (nowMs : Int) :
    Central × Option (Option DeviceIx) :=
  let slot := c.slots ref.slotIndex
  if c.refValid ref ∧ slot.connHandle = handle then
    let freed := c.setSlot ref.slotIndex slot.free
    match slot.deviceIndex with
    | some d =>
        if (c.devices d).inUse then
          (freed.setDevice d ((c.devices d).disconnect nowMs), some (some d))
        else (freed, some none)
    | none => (freed, some none)
  else (c, none)

/-- `ble_state_begin_discovery`. -/
def beginDiscovery (ref : Ref) : Central :=
  let slot := c.slots ref.slotIndex
  if c.refValid ref ∧ slot.state = .securing then
    c.setSlot ref.slotIndex { slot with state := .discovering }
  else c

/-- `ble_state_set_ready`. -/
def setReady (ref : Ref) : Central :=
  if c.refValid ref then
    c.setSlot ref.slotIndex { c.slots ref.slotIndex with state := .ready }
  else c

/-- The critical section of `ble_central_disconnect`. -/
def requestDisconnect (d : DeviceIx) : Central :=
  match (c.devices d).connectionSlot with
  | some i =>
      let slot := c.slots i
      if slot.state = .free ∨ slot.connHandle = BLE_HS_CONN_HANDLE_NONE then c
      else c.setSlot i { slot with state := .disconnecting }
  | none => c

/-- The critical section of `ble_central_forget_peer`, for a record that was found; with whether
the record has a link. -/
def requestForget (d : DeviceIx) : Central × Bool :=
  let marked := c.setDevice d (c.devices d).remove
  match (c.devices d).connectionSlot with
  | some i =>
      let slot := c.slots i
      if slot.state = .free then (marked, false)
      else if slot.state = .connecting ∨ slot.connHandle = BLE_HS_CONN_HANDLE_NONE then
        (marked, true)
      else (marked.setSlot i { slot with state := .disconnecting }, true)
  | none => (marked, false)

/-- `ble_state_handle_host_reset`. -/
def handleHostReset : Central :=
  { c with
    devices := fun d => (c.devices d).hostReset
    slots := fun i => (c.slots i).hostReset
    ctxs := fun k => { c.ctxs k with inUse := false } }

/-! ## Callback contexts -/

/-- `ble_state_ctx_acquire`. -/
def ctxAcquire (ref : Ref) : Central × Option CtxIx :=
  if c.refValid ref then
    match Fin.find? fun k => !(c.ctxs k).inUse with
    | some k =>
        let ctx : Ctx :=
          { inUse := true, ref := ref, connHandle := (c.slots ref.slotIndex).connHandle }
        (c.setCtx k ctx, some k)
    | none => (c, none)
  else (c, none)

/-- `ble_state_ctx_release_by_ref`. -/
def ctxReleaseByRef (ref : Ref) : Central :=
  match c.ctxOf ref with
  | some k => c.setCtx k { c.ctxs k with inUse := false }
  | none => c

/-- `ble_state_ctx_snapshot`. -/
def ctxSnapshot (k : CtxIx) : Option Slot :=
  if (c.ctxs k).inUse ∧ c.refValid (c.ctxs k).ref then some (c.slots (c.ctxs k).ref.slotIndex)
  else none

end Central

end BleGateway.BleCentral
