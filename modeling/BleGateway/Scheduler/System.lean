import BleGateway.Scheduler.Worker
import BleGateway.Lib.Machine

set_option autoImplicit false

/-! # The scheduler with its worker, its callers and the command service

One label is one critical section, one callback or one call into the command service, so a
run is any interleaving of the interface functions, the worker task and the command service.
The command service is its contract: it holds the contexts of the submits it accepted and
completes each of them once, at any time and with any result.

Beside the program's state the system carries a history that no section reads: the accepted
jobs and lease requests in order (the position of a job in this list is its *ticket*), the
ticket each slot holds, and the log of what became of the tickets.
-/

namespace BleGateway.Scheduler

/-! ## The worker's position -/

/-- The index after `i`, if there is one. -/
def nextFin {n : Nat} (i : Fin n) : Option (Fin n) :=
  if h : i.val + 1 < n then some ⟨i.val + 1, h⟩ else none

/-- A position inside `ctrl_process`, with the local variables that are live there. -/
inductive ProcPc
  | promote
  | lease (i : DevIx)
  | leaseCall (i : DevIx) (call : LeaseCall) (ticket : Nat)
  | complete (i : SlotIx)
  | completeCall (i : SlotIx) (call : JobCall) (ticket : Nat)
  | completeClear (i : SlotIx)
  | dispatch (n : Fin DEVICE_CTRL_MAX_INFLIGHT)
  | submitting (n : Fin DEVICE_CTRL_MAX_INFLIGHT) (i : SlotIx)
  | rejected (n : Fin DEVICE_CTRL_MAX_INFLIGHT) (i : SlotIx) (err : EspErr)
  deriving DecidableEq

/-- `ctrl_worker`: in front of the loop test, in a pass of `ctrl_process` (the one after the
loop is `final`), or done. -/
inductive WorkerPc
  | waiting
  | running (final : Bool) (pc : ProcPc)
  | exited
  deriving DecidableEq

/-- How far `device_control_scheduler_deinit` has come. -/
inductive Shutdown
  | up | marked | stopping | down
  deriving DecidableEq

/-! ## History -/

/-- An accepted submit. -/
structure AcceptedJob where
  job : Job
  completion : Ptr
  context : Ptr

/-- An accepted lease request. -/
structure AcceptedLease where
  request : LeaseRequest
  completion : Ptr
  context : Ptr

inductive Event
  /-- The job left the queue without having been dispatched. -/
  | dropped (ticket : Nat)
  /-- The job was handed to the command service. -/
  | handed (ticket : Nat)
  | jobCalled (ticket : Nat) (call : JobCall)
  | leaseCalled (ticket : Nat) (call : LeaseCall)
  deriving DecidableEq

/-! ## States -/

structure Sys where
  ctrl : CtrlState
  worker : WorkerPc
  shutdown : Shutdown
  /-- The slots whose contexts the command service holds. -/
  dcs : List SlotIx
  jobs : List AcceptedJob
  leaseRequests : List AcceptedLease
  slotTicket : SlotIx → Nat
  leaseTicket : DevIx → Nat
  log : List Event

/-- A fresh scheduler whose worker task has just been created. -/
def boot : Sys where
  ctrl := (init {} true).1
  worker := .waiting
  shutdown := .up
  dcs := []
  jobs := []
  leaseRequests := []
  slotTicket := fun _ => 0
  leaseTicket := fun _ => 0
  log := []

/-- The tickets that a change of the slots takes out of the queue without a dispatch. -/
def droppedTickets (old new : CtrlState) (ticket : SlotIx → Nat) : List Event :=
  (List.finRange DEVICE_CTRL_MAX_JOBS).filterMap fun i =>
    if (old.slots i).waiting ∧ (new.slots i).state = .completionPending then
      some (.dropped (ticket i))
    else none

/-- The state after a critical section that leaves `g`. -/
def Sys.setCtrl (s : Sys) (g : CtrlState) : Sys :=
  { s with ctrl := g, log := s.log ++ droppedTickets s.ctrl g s.slotTicket }

/-- The history of a submit that was answered with `err`. -/
def Sys.recordSubmit (s : Sys) (slot : Option SlotIx) (job : Option Job)
    (completion context : Ptr) (err : EspErr) : Sys :=
  match err, job, slot with
  | .ok, some job, some i =>
      { s with
        jobs := s.jobs ++ [⟨job, completion, context⟩]
        slotTicket := Function.update s.slotTicket i s.jobs.length }
  | _, _, _ => s

/-- The history of a lease request that was answered with `err`. -/
def Sys.recordAcquire (s : Sys) (entry : Option DevIx) (request : Option LeaseRequest)
    (completion context : Ptr) (err : EspErr) : Sys :=
  match err, request, entry with
  | .ok, some r, some i =>
      { s with
        leaseRequests := s.leaseRequests ++ [⟨r, completion, context⟩]
        leaseTicket := Function.update s.leaseTicket i s.leaseRequests.length }
  | _, _, _ => s

/-! ## The worker's steps -/

def afterLease (i : DevIx) : ProcPc :=
  match nextFin i with
  | some j => .lease j
  | none => .complete 0

/-- Where the section of entry `i` leaves the worker: in front of the callback it left. -/
def afterLeaseSection (i : DevIx) (call : Option LeaseCall) (ticket : Nat) : ProcPc :=
  match call with
  | some call => .leaseCall i call ticket
  | none => afterLease i

def afterComplete (i : SlotIx) : ProcPc :=
  match nextFin i with
  | some j => .complete j
  | none => .dispatch 0

/-- Go on to dispatch round `n + 1`, or end the pass. -/
def Sys.afterDispatch (s : Sys) (final : Bool) (n : Fin DEVICE_CTRL_MAX_INFLIGHT) : Sys :=
  match nextFin n with
  | some m => { s with worker := .running final (.dispatch m) }
  | none =>
      if final then { s with worker := .exited, ctrl := { s.ctrl with stopped := true } }
      else { s with worker := .waiting }

/-- One step of `ctrl_process`. `now` is the time it reads, `answer` what the command service
answers to a submit. -/
def Sys.procStep (s : Sys) (final : Bool) (pc : ProcPc) (now : Int) (answer : EspErr) : Sys :=
  match pc with
  | .promote => { s.setCtrl (promote s.ctrl now) with worker := .running final (.lease 0) }
  | .lease i =>
      let r := processLease s.ctrl i
      { s.setCtrl r.1 with
        worker := .running final (afterLeaseSection i r.2 (s.leaseTicket i)) }
  | .leaseCall i call ticket =>
      { s with
        log := s.log ++ [.leaseCalled ticket call]
        worker := .running final (afterLease i) }
  | .complete i =>
      let r := completeSlot s.ctrl i
      { s.setCtrl r.1 with
        worker := .running final
          (match r.2 with
          | some call => .completeCall i call (s.slotTicket i)
          | none => afterComplete i) }
  | .completeCall i call ticket =>
      { s with
        log := s.log ++ [.jobCalled ticket call]
        worker := .running final (.completeClear i) }
  | .completeClear i =>
      { s.setCtrl (clearSlot s.ctrl i) with worker := .running final (afterComplete i) }
  | .dispatch n =>
      let r := dispatchOne s.ctrl
      match r.2 with
      | some i => { s.setCtrl r.1 with worker := .running final (.submitting n i) }
      | none => (s.setCtrl r.1).afterDispatch final n
  | .submitting n i =>
      let s := { s with log := s.log ++ [Event.handed (s.slotTicket i)] }
      if answer = .ok then { s with dcs := i :: s.dcs }.afterDispatch final n
      else { s with worker := .running final (.rejected n i answer) }
  | .rejected n i err => (s.setCtrl (dispatchFailed s.ctrl i err)).afterDispatch final n

/-- One step of the worker task. -/
def Sys.workerStep (s : Sys) (now : Int) (answer : EspErr) : Option Sys :=
  match s.worker with
  | .waiting => some { s with worker := .running (!s.ctrl.running) .promote }
  | .running final pc => some (s.procStep final pc now answer)
  | .exited => none

/-! ## Steps -/

inductive Label
  | submit (job : Option Job) (completion context : Ptr) (now : Int)
  | cancelJob (id : UInt32)
  | cancelSource (id : Option CString) (source : Source) (owner : UInt32)
  | cancelDevice (id : Option CString)
  | blockDevice (id : Option CString)
  | unblockDevice (id : Option CString)
  | acquireLease (request : Option LeaseRequest) (completion context : Ptr)
  | releaseLease (id : UInt32)
  | worker (now : Int) (answer : EspErr)
  | dcsComplete (k : SlotIx) (result : Option DeviceCommandResult)
  | deinitMark
  | deinitStop
  | deinitReturn

def Sys.step (s : Sys) : Label → Option Sys
  | .submit job completion context now =>
      let r := Scheduler.submit s.ctrl job completion context now
      some ((s.setCtrl r.1).recordSubmit (freeSlot s.ctrl) job completion context r.2.1)
  | .cancelJob id => some (s.setCtrl (Scheduler.cancelJob s.ctrl id).1)
  | .cancelSource id source owner =>
      some (s.setCtrl (Scheduler.cancelSource s.ctrl id source owner).1)
  | .cancelDevice id => some (s.setCtrl (Scheduler.cancelDevice s.ctrl id).1)
  | .blockDevice id => some (s.setCtrl (Scheduler.blockDevice s.ctrl id).1)
  | .unblockDevice id => some (s.setCtrl (Scheduler.unblockDevice s.ctrl id).1)
  | .acquireLease request completion context =>
      let r := Scheduler.acquireLease s.ctrl request completion context
      some ((s.setCtrl r.1).recordAcquire (freeLease s.ctrl) request completion context r.2)
  | .releaseLease id => some (s.setCtrl (Scheduler.releaseLease s.ctrl id).1)
  | .worker now answer => s.workerStep now answer
  | .dcsComplete k result =>
      if k ∈ s.dcs then
        some { s.setCtrl (Scheduler.dcsComplete s.ctrl k result) with dcs := s.dcs.erase k }
      else none
  | .deinitMark =>
      if s.ctrl.task ∧ s.shutdown = .up then
        some { s.setCtrl (Scheduler.deinitMark s.ctrl) with shutdown := .marked }
      else none
  | .deinitStop =>
      if s.shutdown = .marked then
        some { s with ctrl := { s.ctrl with running := false }, shutdown := .stopping }
      else none
  | .deinitReturn =>
      if s.shutdown = .stopping then
        some { s with ctrl := { s.ctrl with task := false }, shutdown := .down }
      else none

/-- The scheduler as a machine. -/
def machine : Machine Sys Label where
  init s := s = boot
  step := Sys.step

end BleGateway.Scheduler
