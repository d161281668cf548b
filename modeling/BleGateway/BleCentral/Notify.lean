import BleGateway.BleCentral.System
import BleGateway.CborCodec.Decode

set_option autoImplicit false

/-! # Notifications of the BLE central

`ble_central_notify.c` and the NOTIFY_RX event of `ble_central_gap.c`, beside the system of the
connections: the host task takes a notification up and puts it into one queue for all devices,
labelled with the id of the device; the notify worker decodes it and hands it to the application.
The host task itself reports that a connection is gone.

A notification is stale once the disconnected callback has run for its device or the device was
forgotten. A slot whose device is forgotten carries that mark until its next lifetime, so that what
its connection still receives is stale, too. The metrics are left out.
-/

namespace BleGateway.BleCentral

open CborCodec (Qcbor cborCodecDecode GW_MSG_MAX_LEN)

def BLE_NOTIFY_QUEUE_DEPTH : Nat := 8

/-- `ble_notify_event_t`, with its mark. -/
structure NotifyEvent where
  deviceId : DeviceId
  cborBuf : List UInt8
  stale : Bool := false
  deriving DecidableEq

/-- A NOTIFY_RX event after its checks, with the record that the snapshot of the slot names. -/
structure NotifyRx where
  device : Option DeviceIx
  data : List UInt8
  stale : Bool := false
  deriving DecidableEq

/-- The connections, the notification that the host task has taken up, the devices that it has to
report as disconnected, the queue, and the notification that the worker has taken out. `handed`
are those that the application was given. -/
structure Notify where
  ble : Sys := {}
  rx : Option NotifyRx := none
  pending : List DeviceId := []
  queue : List NotifyEvent := []
  worker : Option NotifyEvent := none
  forgotten : SlotIx → Bool := fun _ => false
  handed : List NotifyEvent := []

/-- The labels of the host task. -/
def Label.ofHost : Label → Bool
  | .connectEvent _ | .disconnectEvent _ | .encrypted .. | .subscribed .. | .host .. | .hostReset =>
      true
  | .supervise _ | .request _ | .disconnect _ | .forget _ | .call .. => false

/-- `ble_state_handle_host_reset` has the device reported. -/
def Device.reportedByReset (dev : Device) : Bool :=
  dev.inUse && (dev.connectionSlot.isSome || dev.state = .connected || dev.state = .connecting ||
    dev.state = .removing)

/-- The devices that a step of the host task has reported as disconnected next. -/
def Sys.reports (s : Sys) : Label → List DeviceId
  | .host _ _ =>
      match s.host with
      | .readState _ _ id => [id]
      | _ => []
  | .hostReset =>
      ((List.finRange DEVICE_STORE_MAX_DEVICES).filter fun d =>
        (s.central.devices d).reportedByReset).map fun d => (s.central.devices d).deviceId
  | _ => []

def NotifyEvent.mark (id : DeviceId) (event : NotifyEvent) : NotifyEvent :=
  if event.deviceId = id then { event with stale := true } else event

namespace Notify

variable (n : Notify)

/-- The host task is between two events. -/
def hostFree : Bool := n.rx.isNone && n.pending.isEmpty

/-- A step of the connections. -/
def bleStep (l : Label) : Option Notify :=
  if l.ofHost && !n.hostFree then none
  else (n.ble.step l).map fun s =>
    { n with
      ble := s
      pending := n.pending ++ n.ble.reports l
      forgotten := fun i => n.forgotten i &&
        decide ((s.central.slots i).generation = (n.ble.central.slots i).generation) }

/-- A NOTIFY_RX event up to the copy of its bytes; `status` is whether it is for the STATUS
characteristic and `copied` whether the copy succeeds. -/
def notifyRx (k : CtxIx) (handle : UInt16) (status : Bool) (data : List UInt8) (copied : Bool) :
    Option Notify :=
  if n.ble.host ≠ .idle ∨ n.hostFree = false then none
  else
    match n.ble.gapSnapshot k handle with
    | none => some n
    | some slot =>
        if status ∧ data.length ≠ 0 ∧ data.length ≤ GW_MSG_MAX_LEN ∧ copied then
          some { n with rx := some {
            device := slot.deviceIndex
            data
            stale := n.forgotten (n.ble.central.ctxs k).ref.slotIndex } }
        else some n

/-- The event that `ble_runtime_get_device_id` and `ble_central_notify_enqueue` make. -/
def made (rx : NotifyRx) : Option NotifyEvent :=
  rx.device.bind fun d =>
    if (n.ble.central.devices d).inUse ∧ n.queue.length < BLE_NOTIFY_QUEUE_DEPTH then
      some { deviceId := (n.ble.central.devices d).deviceId, cborBuf := rx.data, stale := rx.stale }
    else none

/-- The rest of a NOTIFY_RX event; a full queue drops it. -/
def enqueue : Option Notify :=
  n.rx.map fun rx => { n with rx := none, queue := n.queue ++ (n.made rx).toList }

/-- The notifications of a device are stale now. -/
def markOver (id : DeviceId) : Notify :=
  { n with queue := n.queue.map (·.mark id), worker := n.worker.map (·.mark id) }

/-- `ble_central_emit_disconnected` for the next device. -/
def emit : Option Notify :=
  match n.pending with
  | [] => none
  | id :: rest =>
      some (if id.text = [] then { n with pending := rest }
        else { n.markOver id with pending := rest })

/-- A slot has a lifetime for the device. -/
def holds (id : DeviceId) (d : Option DeviceIx) : Bool :=
  d.any fun d => (n.ble.central.devices d).inUse && (n.ble.central.devices d).deviceId = id

/-- The application forgets a device. -/
def forget (id : DeviceId) : Notify :=
  { n.markOver id with
    rx := n.rx.map fun rx => { rx with stale := rx.stale || n.holds id rx.device }
    forgotten := fun i => n.forgotten i ||
      ((n.ble.central.slots i).state ≠ .free && n.holds id (n.ble.central.slots i).deviceIndex) }

/-- `xQueueReceive` of `ble_central_notify_worker`. -/
def receive : Option Notify :=
  match n.worker, n.queue with
  | none, event :: queue => some { n with queue, worker := some event }
  | _, _ => none

/-- The rest of a round of the worker. -/
def deliver (q : Qcbor) : Option Notify :=
  n.worker.map fun event =>
    match cborCodecDecode q event.cborBuf with
    | some _ => { n with worker := none, handed := n.handed ++ [event] }
    | none => { n with worker := none }

end Notify

/-- The steps of the connections and those of the notifications. -/
inductive NotifyLabel
  | ble (l : Label)
  | notifyRx (k : CtxIx) (handle : UInt16) (status : Bool) (data : List UInt8) (copied : Bool)
  | enqueue
  | emit
  | forget (id : DeviceId)
  | receive
  | deliver
  deriving DecidableEq

def Notify.step (q : Qcbor) (n : Notify) : NotifyLabel → Option Notify
  | .ble l => n.bleStep l
  | .notifyRx k handle status data copied => n.notifyRx k handle status data copied
  | .enqueue => n.enqueue
  | .emit => n.emit
  | .forget id => some (n.forget id)
  | .receive => n.receive
  | .deliver => n.deliver q

/-- The connections after `ble_central_init`, with an empty queue. -/
def notifyMachine (q : Qcbor) : Machine Notify NotifyLabel where
  init n := n.ble.Initial ∧ n = { ble := n.ble }
  step := Notify.step q

end BleGateway.BleCentral
