import BleGateway.CommandService.Model
import BleGateway.Scheduler.Completion

set_option autoImplicit false

/-! # The scheduler over the command service

The two components together: the worker of the scheduler submits to the command service, the task
of the command service calls the scheduler back, and a cancel is a critical section of the
scheduler followed, outside of it, by a call of the command service. Between the two any other
task may run.

The contexts the command service holds are slots, its callback is `ctrl_dcs_complete`. Beside the
program's state the system carries a history that no step reads: the selector behind each cancel
event in the urgent queue, in their order, and the jobs that a cancel has completed.
-/

namespace BleGateway.CommandService

open Scheduler (SlotIx Slot Selector CtrlState)

/-- A call of a cancel function between its critical section and its call of the command
service. -/
structure CancelCall where
  selector : Selector
  deviceId : DeviceId

structure Sys where
  sched : Scheduler.Sys
  dcs : Dcs SlotIx
  calls : List CancelCall
  causes : List Selector
  cancelled : List (Selector × Slot)

/-- Both components have just been initialised. -/
def boot : Sys where
  sched := Scheduler.boot
  dcs := {}
  calls := []
  causes := []
  cancelled := []

/-! ## The sections that touch both -/

/-- The public cancel functions. -/
def cancelBy (sel : Selector) (g : CtrlState) : CtrlState × EspErr × Option CString :=
  match sel with
  | .job id => Scheduler.cancelJob g id
  | .source id source owner => Scheduler.cancelSource g (some id) source owner
  | .device id => Scheduler.cancelDevice g (some id)

def cancelLabel : Selector → Scheduler.Label
  | .job id => .cancelJob id
  | .source id source owner => .cancelSource (some id) source owner
  | .device id => .cancelDevice (some id)

/-- The job of the slot is to be completed as cancelled. -/
def isCancelled (s : Slot) : Bool := s.state = .completionPending && s.terminal = .cancelled

/-- The jobs that a section has marked as cancelled. -/
def newlyCancelled (old new : CtrlState) : List Slot :=
  ((List.finRange Scheduler.DEVICE_CTRL_MAX_JOBS).filter fun i =>
    isCancelled (new.slots i) && !isCancelled (old.slots i)).map old.slots

/-- `ctrl_dcs_complete` for a completed command. -/
def callBack (s : Scheduler.Sys) (done : Option (Done SlotIx)) : Scheduler.Sys :=
  match done with
  | none => s
  | some (k, result) =>
      { s.setCtrl (Scheduler.dcsComplete s.ctrl k (some result)) with dcs := s.dcs.erase k }

/-- The slot whose command the worker hands over next. -/
def handing (s : Scheduler.Sys) : Option SlotIx :=
  match s.worker with
  | .running _ (.submitting _ i) => some i
  | _ => none

/-- The cancel event that the task of the command service handles next. -/
def Dcs.nextCancel {κ : Type} (d : Dcs κ) : Option DeviceId :=
  match d.task, d.urgentQueue with
  | .drain _, .cancel deviceId :: _ => some deviceId
  | _, _ => none

/-! ## Steps -/

inductive Label
  | scheduler (label : Scheduler.Label)
  | worker (now : Int)
  | cancel (sel : Selector)
  /-- The `n`-th cancel call goes on with the command service. -/
  | callService (n : Nat)
  | ack (ack : AckEvent)
  | disconnect (deviceId : DeviceId)
  | deinit
  | task (now : Int) (a : Dcs.SubmitAnswers) (timeUp : Bool)

/-- The other functions of the scheduler. -/
def passes : Scheduler.Label → Bool
  | .cancelJob _ | .cancelSource _ _ _ | .cancelDevice _ | .worker _ _ | .dcsComplete _ _ => false
  | _ => true

def Sys.step (σ : Sys) : Label → Option Sys
  | .scheduler label =>
      if passes label then (σ.sched.step label).map fun sched => { σ with sched } else none
  | .worker now =>
      match handing σ.sched with
      | none => (σ.sched.step (.worker now .ok)).map fun sched => { σ with sched }
      | some i =>
          let (dcs, answer) := σ.dcs.submit (σ.sched.ctrl.slots i).job.request i
          (σ.sched.step (.worker now answer)).map fun sched => { σ with sched, dcs }
  | .cancel sel =>
      let (g, _, target) := cancelBy sel σ.sched.ctrl
      (σ.sched.step (cancelLabel sel)).map fun sched =>
        { σ with
          sched
          calls := σ.calls ++ (target.map fun id => ⟨sel, strlcpy _ id⟩).toList
          cancelled := σ.cancelled ++ (newlyCancelled σ.sched.ctrl g).map (sel, ·) }
  | .callService n =>
      σ.calls[n]?.map fun c =>
        let (dcs, answer) := σ.dcs.cancelDevice c.deviceId
        { σ with
          dcs
          calls := σ.calls.eraseIdx n
          causes := if answer = .ok then σ.causes ++ [c.selector] else σ.causes }
  | .ack ack => some { σ with dcs := (σ.dcs.onNotify ack).1 }
  | .disconnect deviceId => some { σ with dcs := σ.dcs.onDisconnect deviceId }
  | .deinit => some { σ with dcs := σ.dcs.deinit }
  | .task now a timeUp =>
      (σ.dcs.taskStep now a timeUp).map fun (dcs, done) =>
        let σ' := { σ with sched := callBack σ.sched done, dcs }
        match σ.dcs.nextCancel, σ.causes with
        | some _, sel :: causes =>
            { σ' with
              causes
              cancelled := σ.cancelled ++
                (done.map fun (k, _) => (sel, σ.sched.ctrl.slots k)).toList }
        | _, _ => σ'

def machine : Machine Sys Label where
  init σ := σ = boot
  step := Sys.step

end BleGateway.CommandService
