import BleGateway.Types
import BleGateway.Lib.Table
import Mathlib.Data.List.MinMax

set_option autoImplicit false

/-! # The state of the device control scheduler

`g_ctrl` of `device_control_scheduler_internal.h`: the pool of job slots, the device table
and the table of lease requests. The critical sections of the component (everything between
`taskENTER_CRITICAL` and `taskEXIT_CRITICAL`) are functions on this state.

Fields that are only written are left out: the statistics, the owner, source and start time
of a device's lease, and the enqueue time of a job (its deadline is kept).
-/

namespace BleGateway.Scheduler

def DEVICE_CTRL_MAX_DEVICES : Nat := 16
def DEVICE_CTRL_MAX_JOBS : Nat := 24
def DEVICE_CTRL_MAX_INFLIGHT : Nat := 4
def DEVICE_CTRL_HIGH_BURST_MAX : UInt32 := 8

/-- An index into the pool of job slots. -/
abbrev SlotIx := Fin DEVICE_CTRL_MAX_JOBS

/-- An index into the device table, and into the lease table, which has the same size. -/
abbrev DevIx := Fin DEVICE_CTRL_MAX_DEVICES

instance : NeZero DEVICE_CTRL_MAX_JOBS := ⟨by decide⟩
instance : NeZero DEVICE_CTRL_MAX_DEVICES := ⟨by decide⟩
instance : NeZero DEVICE_CTRL_MAX_INFLIGHT := ⟨by decide⟩

/-! ## Jobs -/

inductive Priority
  | high | normal | low | background
  deriving DecidableEq

/-- The numeric value of a priority; the smaller one goes first. -/
def Priority.rank : Priority → Nat
  | high => 0
  | normal => 1
  | low => 2
  | background => 3

inductive Source
  | web | mcp | schema | settings | state | internal
  deriving DecidableEq

inductive Dedupe
  | none | dropIfExists | replaceQueued
  deriving DecidableEq

/-- Why a job was completed. -/
inductive Terminal
  | command | cancelled | superseded | deadlineExceeded
  deriving DecidableEq

/-- `device_control_job_t`. -/
structure Job where
  request : DeviceCommandRequest := {}
  priority : Priority := .high
  source : Source := .web
  dedupe : Dedupe := .none
  ownerToken : UInt32 := 0
  leaseId : UInt32 := 0
  maxQueueWaitMs : UInt32 := 0
  dedupeHash : UInt32 := 0
  deriving DecidableEq

/-- `device_control_result_t`. -/
structure Result where
  schedulerJobId : UInt32
  terminal : Terminal
  commandResult : DeviceCommandResult
  deriving DecidableEq

/-! ## Job slots -/

inductive SlotState
  | free | enqueuePending | queued | inflight | completionPending | completing
  deriving DecidableEq

/-- `ctrl_dcs_context_t`: the slot and the generation a dispatched command was issued for. -/
structure DcsContext where
  slot : Nat := 0
  generation : UInt32 := 0
  deriving DecidableEq

/-- `ctrl_slot_t`; the default value is the one `memset` leaves. -/
structure Slot where
  state : SlotState := .free
  generation : UInt32 := 0
  id : UInt32 := 0
  job : Job := {}
  completion : Ptr := 0
  context : Ptr := 0
  deadlineUs : Int := 0
  pendingResult : DeviceCommandResult := {}
  dcsContext : DcsContext := {}
  terminal : Terminal := .command
  completionWritten : Bool := false
  deviceIndex : DevIx := 0

/-- The device a job is for. -/
def Job.deviceId (j : Job) : CString := j.request.deviceId.text

/-- The slot holds an accepted job that has not been dispatched. -/
def Slot.waiting (s : Slot) : Bool := s.state = .enqueuePending || s.state = .queued

/-! ## Devices and leases -/

/-- `ctrl_device_t`. An `inflight_slot` of `-1` is `none`; the zeroed table of a fresh
scheduler has `0` there. -/
structure Device where
  used : Bool := false
  blocked : Bool := false
  transportInflight : Bool := false
  deviceId : DeviceId := .empty
  inflightSlot : Option SlotIx := some 0
  lease : UInt32 := 0

inductive LeaseState
  | free | pending | active | completionPending
  deriving DecidableEq

/-- `ctrl_lease_t`. -/
structure Lease where
  state : LeaseState := .free
  id : UInt32 := 0
  deviceIndex : DevIx := 0
  priority : Priority := .high
  source : Source := .web
  owner : UInt32 := 0
  completion : Ptr := 0
  context : Ptr := 0
  completionStatus : EspErr := .ok

/-- The request of this entry still owes its callback. -/
def Lease.waiting (l : Lease) : Bool := l.state = .pending || l.state = .completionPending

/-- `ctrl_state_t`; `task` says that `g_ctrl.task` is not `NULL`. -/
structure CtrlState where
  task : Bool := false
  running : Bool := false
  stopped : Bool := false
  slots : SlotIx → Slot := fun _ => {}
  devices : DevIx → Device := fun _ => {}
  leases : DevIx → Lease := fun _ => {}
  nextJob : UInt32 := 0
  nextLease : UInt32 := 0
  inflight : Nat := 0
  rrDevice : Nat := 0
  highBurst : UInt32 := 0

namespace CtrlState

def setSlot (g : CtrlState) (i : SlotIx) (s : Slot) : CtrlState :=
  { g with slots := Function.update g.slots i s }

def setDevice (g : CtrlState) (d : DevIx) (e : Device) : CtrlState :=
  { g with devices := Function.update g.devices d e }

def setLease (g : CtrlState) (i : DevIx) (l : Lease) : CtrlState :=
  { g with leases := Function.update g.leases i l }

/-- The device entry a slot points at. -/
def deviceOf (g : CtrlState) (s : Slot) : Device := g.devices s.deviceIndex

variable (g : CtrlState)

@[simp] theorem setSlot_slots (i : SlotIx) (s : Slot) :
    (g.setSlot i s).slots = Function.update g.slots i s := rfl
@[simp] theorem setSlot_devices (i : SlotIx) (s : Slot) : (g.setSlot i s).devices = g.devices := rfl
@[simp] theorem setSlot_leases (i : SlotIx) (s : Slot) : (g.setSlot i s).leases = g.leases := rfl
@[simp] theorem setSlot_inflight (i : SlotIx) (s : Slot) :
    (g.setSlot i s).inflight = g.inflight := rfl
@[simp] theorem setDevice_slots (d : DevIx) (e : Device) : (g.setDevice d e).slots = g.slots := rfl
@[simp] theorem setDevice_devices (d : DevIx) (e : Device) :
    (g.setDevice d e).devices = Function.update g.devices d e := rfl
@[simp] theorem setDevice_leases (d : DevIx) (e : Device) :
    (g.setDevice d e).leases = g.leases := rfl
@[simp] theorem setDevice_inflight (d : DevIx) (e : Device) :
    (g.setDevice d e).inflight = g.inflight := rfl
@[simp] theorem setLease_slots (i : DevIx) (l : Lease) : (g.setLease i l).slots = g.slots := rfl
@[simp] theorem setLease_devices (i : DevIx) (l : Lease) :
    (g.setLease i l).devices = g.devices := rfl
@[simp] theorem setLease_leases (i : DevIx) (l : Lease) :
    (g.setLease i l).leases = Function.update g.leases i l := rfl
@[simp] theorem setLease_inflight (i : DevIx) (l : Lease) :
    (g.setLease i l).inflight = g.inflight := rfl

end CtrlState

/-! ## Counters -/

/-- `++counter`, once more when the counter has wrapped to zero: the id that is issued. -/
def nextId (counter : UInt32) : UInt32 :=
  if counter + 1 = 0 then counter + 1 + 1 else counter + 1

theorem nextId_ne_zero (counter : UInt32) : nextId counter ≠ 0 := by
  unfold nextId
  split
  · rename_i h
    rw [h]; decide
  · assumption

/-! ## The device table -/

/-- `ctrl_find_device_locked(id, false)`. -/
def findDevice (g : CtrlState) (id : CString) : Option DevIx :=
  Fin.find? fun d => (g.devices d).used && decide ((g.devices d).deviceId.text = id)

/-- The first unused entry of the device table. -/
def freeDevice (g : CtrlState) : Option DevIx :=
  Fin.find? fun d => !(g.devices d).used

/-- `ctrl_find_device_locked(id, true)`: the entry of the device, made if there is none. -/
def findOrCreateDevice (g : CtrlState) (id : CString) : CtrlState × Option DevIx :=
  match findDevice g id with
  | some d => (g, some d)
  | none =>
      match freeDevice g with
      | some d =>
          (g.setDevice d { g.devices d with
            used := true, inflightSlot := none, deviceId := strlcpy _ id },
           some d)
      | none => (g, none)

end BleGateway.Scheduler
