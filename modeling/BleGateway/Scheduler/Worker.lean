import BleGateway.Scheduler.Api

set_option autoImplicit false

/-! # The critical sections of the scheduler worker

`device_control_scheduler_worker.c` and `ctrl_process_leases`. The worker task runs these
sections one after the other, calling completion callbacks and the command service in
between; `System.lean` puts them in that order.
-/

namespace BleGateway.Scheduler

/-! ## The first section of `ctrl_process` -/

/-- What the first loop of `ctrl_process` does to one slot: a submitted job is queued, and a
queued job past its deadline is completed. -/
def promoteSlot (now : Int) (s : Slot) : Slot :=
  let s := if s.state = .enqueuePending then { s with state := .queued } else s
  if s.state = .queued ∧ s.deadlineUs ≠ 0 ∧ now ≥ s.deadlineUs then
    { s with terminal := .deadlineExceeded, pendingResult := {}, state := .completionPending }
  else s

def promote (g : CtrlState) (now : Int) : CtrlState :=
  { g with slots := fun i => promoteSlot now (g.slots i) }

/-! ## Leases -/

/-- The callback a critical section leaves to the worker: function, context, status and lease
id. -/
structure LeaseCall where
  completion : Ptr
  context : Ptr
  status : EspErr
  leaseId : UInt32
  deriving DecidableEq

/-- The section of `ctrl_process_leases` for entry `i`. -/
def processLease (g : CtrlState) (i : DevIx) : CtrlState × Option LeaseCall :=
  let l := g.leases i
  let d := g.devices l.deviceIndex
  match l.state with
  | .completionPending =>
      (g.setLease i {}, if l.completion = 0 then none
        else some ⟨l.completion, l.context, l.completionStatus, l.id⟩)
  | .pending =>
      if d.blocked = false ∧ d.transportInflight = false ∧ d.lease = 0 then
        ((g.setDevice l.deviceIndex { d with lease := l.id }).setLease i
            { l with state := .active },
          if l.completion = 0 then none else some ⟨l.completion, l.context, .ok, l.id⟩)
      else (g, none)
  | _ => (g, none)

/-! ## Completions -/

/-- `ctrl_dcs_complete`, called by the command service with the context of slot `k`. The slot
and the generation are read from the context when the call is made. -/
def dcsComplete (g : CtrlState) (k : SlotIx) (result : Option DeviceCommandResult) : CtrlState :=
  let ctx := (g.slots k).dcsContext
  if h : ctx.slot < DEVICE_CTRL_MAX_JOBS then
    let i : SlotIx := ⟨ctx.slot, h⟩
    let s := g.slots i
    if s.state ≠ .inflight ∨ s.generation ≠ ctx.generation ∨ s.completionWritten then g
    else
      g.setSlot i { s with
        pendingResult := result.getD { status := .internal }
        terminal := .command
        completionWritten := true
        state := .completionPending }
  else g

/-- The callback of a completed job. -/
structure JobCall where
  completion : Ptr
  context : Ptr
  result : Result
  deriving DecidableEq

/-- The device loses its command in flight when slot `i` held it. -/
def releaseTransport (g : CtrlState) (i : SlotIx) : CtrlState :=
  let d := (g.slots i).deviceIndex
  if (g.devices d).inflightSlot = some i then
    { g.setDevice d { g.devices d with inflightSlot := none, transportInflight := false }
      with inflight := g.inflight - 1 }
  else g

/-- The first section of `ctrl_complete_slot`. -/
def completeSlot (g : CtrlState) (i : SlotIx) : CtrlState × Option JobCall :=
  let s := g.slots i
  if s.state ≠ .completionPending then (g, none)
  else
    ((releaseTransport g i).setSlot i { s with state := .completing },
      some ⟨s.completion, s.context, ⟨s.id, s.terminal, s.pendingResult⟩⟩)

/-- The second section of `ctrl_complete_slot`: the slot is zeroed but keeps its generation. -/
def clearSlot (g : CtrlState) (i : SlotIx) : CtrlState :=
  g.setSlot i { generation := (g.slots i).generation }

/-! ## Selection -/

/-- Some `NORMAL` job is queued, on whatever device. -/
def normalAvailable (g : CtrlState) : Bool :=
  (List.finRange DEVICE_CTRL_MAX_JOBS).any fun i =>
    (g.slots i).state = .queued && (g.slots i).job.priority = .normal

/-- The devices in the order in which `select_slot_locked` visits them. -/
def deviceOrder (g : CtrlState) : List DevIx :=
  (List.range DEVICE_CTRL_MAX_DEVICES).map fun offset =>
    Fin.ofNat DEVICE_CTRL_MAX_DEVICES (g.rrDevice + offset)

/-- The device may be given a command. -/
def Device.ready (d : Device) : Bool := d.used && !d.blocked && !d.transportInflight

/-- Slot `i` passes the tests of the inner loop of `select_slot_locked` for device `d`. -/
def eligible (g : CtrlState) (d : DevIx) (i : SlotIx) : Bool :=
  let s := g.slots i
  let dev := g.devices d
  s.state = .queued && s.deviceIndex = d && (dev.lease = 0 || s.job.leaseId = dev.lease) &&
    !(g.highBurst ≥ DEVICE_CTRL_HIGH_BURST_MAX && normalAvailable g && s.job.priority = .high)

/-- The priority of the job in slot `i`. -/
def rankAt (g : CtrlState) (i : SlotIx) : Nat := (g.slots i).job.priority.rank

/-- Keep the better one of the best slot so far and slot `i`; the earlier one when equal. -/
def better (g : CtrlState) (best : Option SlotIx) (i : SlotIx) : Option SlotIx :=
  match best with
  | none => some i
  | some b => if rankAt g i < rankAt g b then some i else some b

/-- `select_slot_locked`. -/
def selectSlotLocked (g : CtrlState) : Option SlotIx :=
  (deviceOrder g).foldl (fun best d =>
    if (g.devices d).ready then
      (List.finRange DEVICE_CTRL_MAX_JOBS).foldl (fun best i =>
        if eligible g d i then better g best i else best) best
    else best) none

/-! ## Dispatch -/

/-- The burst counter after dispatching a job of priority `p`. -/
def nextBurst (burst : UInt32) (p : Priority) : UInt32 :=
  match p with
  | .high => burst + 1
  | .normal => 0
  | _ => burst

/-- Slot `i` is handed over: the part of `dispatch_one` after the selection. -/
def startDispatch (g : CtrlState) (i : SlotIx) : CtrlState :=
  let s := g.slots i
  let d := s.deviceIndex
  { (g.setSlot i { s with state := .inflight, dcsContext := ⟨i, s.generation⟩ }).setDevice d
      { g.devices d with transportInflight := true, inflightSlot := some i }
    with
      inflight := g.inflight + 1
      rrDevice := (d.val + 1) % DEVICE_CTRL_MAX_DEVICES
      highBurst := nextBurst g.highBurst s.job.priority }

/-- The first section of `dispatch_one`. -/
def dispatchOne (g : CtrlState) : CtrlState × Option SlotIx :=
  if g.inflight ≥ DEVICE_CTRL_MAX_INFLIGHT then (g, none)
  else
    match selectSlotLocked g with
    | none => (g, none)
    | some i => (startDispatch g i, some i)

/-- The section of `dispatch_one` for a command the command service did not accept. -/
def dispatchFailed (g : CtrlState) (i : SlotIx) (err : EspErr) : CtrlState :=
  let s := g.slots i
  if s.state = .inflight then
    g.setSlot i { s with
      pendingResult := { s.pendingResult with
        status := if err = .noMem then .queueFull else .internal }
      terminal := .command
      completionWritten := true
      state := .completionPending }
  else g

end BleGateway.Scheduler
