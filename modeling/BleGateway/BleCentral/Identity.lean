import BleGateway.DeviceStore.Store
import BleGateway.Lib.Arrivals
import BleGateway.Lib.Machine

set_option autoImplicit false

/-! # Persisting the identities of peers

`ble_central_identity.c`. A callback of the host only puts the identity of a peer into the slot of
its device. A worker writes the dirty slots to the device store, one after another, and marks them
clean. The functions are cut where they give the spinlock back, so that submissions, the worker and
the other users of the device store may be interleaved in any order.

The log is history: the submissions that were accepted, and what the store answered to the worker.
-/

namespace BleGateway.BleCentral.Identity

open DeviceStore (BleIdentity Entry StoreResult)

/-- `identity_pending_t`. -/
structure Pending where
  deviceId : DeviceId := .empty
  identity : BleIdentity := ⟨Vector.replicate 6 0, 0⟩
  generation : UInt32 := 0
  dirty : Bool := false
  deriving DecidableEq

/-- The slot belongs to a device. -/
def Pending.used (p : Pending) : Bool := p.dirty || decide (0 < p.generation)

/-- The slot has been used before. -/
def Pending.claimed (p : Pending) : Bool := p.generation ≠ 0

/-- An index into `s_pending`. -/
abbrev Slot := Fin DEVICE_STORE_MAX_DEVICES

/-- Where `identity_worker` stands. It holds a snapshot while it writes it to the store, and until
it has marked the slot clean. -/
inductive Phase
  | waiting | taking
  | writing (snapshot : Pending)
  | completing (snapshot : Pending)
  deriving DecidableEq

/-- What is in progress. -/
def Phase.snapshot? : Phase → Option Pending
  | .waiting | .taking => none
  | .writing snapshot | .completing snapshot => some snapshot

/-- An entry of the log. -/
inductive LogEntry
  | accepted (id : DeviceId) (identity : BleIdentity)
  | wrote (id : DeviceId) (identity : BleIdentity) (result : StoreResult)
  deriving DecidableEq

/-- `task` says that `s_task` runs, `retry` that its timeout is the retry delay, `notified` that it
has a notification, and `owed` counts the submissions that have yet to notify it. `entries` is the
cache of the device store. -/
structure Persistence where
  task : Bool := false
  pending : Slot → Pending := fun _ => {}
  phase : Phase := .waiting
  retry : Bool := false
  notified : Bool := false
  owed : Nat := 0
  entries : List Entry := []
  log : List LogEntry := []

/-! ## The device store -/

/-- How the NVS calls of the store end, after `result_from`. -/
inductive NvsOutcome
  | ok | corrupt | persistence
  deriving DecidableEq

def NvsOutcome.result : NvsOutcome → StoreResult
  | .ok => .ok
  | .corrupt => .corrupt
  | .persistence => .persistence

/-- `device_store_set_ble_identity` with its mutex, and the outcome of the NVS calls it makes. -/
def deviceStoreSet (entries : List Entry) (p : Pending) (locked initialized : Bool)
    (nvs : NvsOutcome) : StoreResult × List Entry :=
  if p.identity.addrType > DeviceStore.DEVICE_STORE_BLE_ADDR_TYPE_MAX then (.invalidArg, entries)
  else if !locked then (.busy, entries)
  else if !initialized then (.invalidState, entries)
  else
    let e := DeviceStore.setBleIdentity entries p.deviceId.text p.identity
    if e.calls = [] then (e.result, entries)
    else if nvs = .ok then (e.result, e.after) else (nvs.result, entries)

/-- The results that a retry cannot change. -/
def terminal (result : StoreResult) : Bool :=
  result = .ok || result = .duplicateBleIdentity || result = .notFound

/-! ## The functions -/

namespace Persistence

variable (w : Persistence)

/-- The slot that `ble_central_identity_submit` writes: that of the device, or the first one that
was never used. -/
def slotFor (id : DeviceId) : Option Slot :=
  (Directory.lookup Pending.used Pending.deviceId w.pending id).or
    (Directory.vacant Pending.claimed w.pending)

/-- `ble_central_identity_submit` up to the notification. -/
def submit (id : DeviceId) (identity : BleIdentity) : Persistence :=
  if !w.task then w
  else
    match w.slotFor id with
    | none => w
    | some i =>
        let p := w.pending i
        let p := if p.generation = 0 then { p with deviceId := id } else p
        { w with
          pending := Function.update w.pending i
            { p with identity, generation := p.generation + 1, dirty := true }
          owed := w.owed + 1
          log := w.log ++ [.accepted id identity] }

/-- `identity_take_next`. -/
def takeNext : Option Pending := (Fin.find? fun i => (w.pending i).dirty).map w.pending

/-- `identity_complete`. -/
def complete (snapshot : Pending) (success : Bool) : Persistence :=
  match Fin.find? fun i => (w.pending i).dirty &&
      decide ((w.pending i).generation = snapshot.generation) &&
      decide ((w.pending i).deviceId = snapshot.deviceId) with
  | none => w
  | some i =>
      if success then
        { w with pending := Function.update w.pending i { w.pending i with dirty := false } }
      else w

/-- The store answers the worker. A failure ends the round, and the worker waits for the retry. -/
def wrote (snapshot : Pending) (r : StoreResult × List Entry) : Persistence :=
  let w := { w with
    entries := r.2
    log := w.log ++ [LogEntry.wrote snapshot.deviceId snapshot.identity r.1] }
  if terminal r.1 then { w with phase := .completing snapshot }
  else { w with phase := .waiting, retry := true }

/-! ## Steps -/

inductive Act
  | init (created : Bool)
  | submit (id : DeviceId) (identity : BleIdentity)
  | notify
  | wake (timeout : Bool)
  | take
  | write (locked initialized : Bool) (nvs : NvsOutcome)
  | complete
  | store (entries : List Entry)

def step : Act → Option Persistence
  | .init created => some (if w.task then w else { w with task := created })
  | .submit id identity => some (w.submit id identity)
  | .notify => if w.owed = 0 then none else some { w with owed := w.owed - 1, notified := true }
  -- `ulTaskNotifyTake`
  | .wake timeout =>
      if !w.task || w.phase ≠ .waiting then none
      else if w.notified then some { w with phase := .taking, notified := false }
      else if timeout && w.retry then some { w with phase := .taking }
      else none
  | .take =>
      match w.phase, w.takeNext with
      | .taking, some snapshot => some { w with phase := .writing snapshot }
      | .taking, none => some { w with phase := .waiting, retry := false }
      | _, _ => none
  | .write locked initialized nvs =>
      match w.phase with
      | .writing snapshot =>
          some (w.wrote snapshot (deviceStoreSet w.entries snapshot locked initialized nvs))
      | _ => none
  | .complete =>
      match w.phase with
      | .completing snapshot => some { w.complete snapshot true with phase := .taking }
      | _ => none
  -- another task adds, edits or deletes devices
  | .store entries => some { w with entries }

/-- The worker and its surroundings as a machine. -/
def machine : Machine Persistence Act where
  init w := w = {}
  step := step

end Persistence

end BleGateway.BleCentral.Identity
