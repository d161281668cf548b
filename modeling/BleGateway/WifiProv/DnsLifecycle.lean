import BleGateway.Lib.EventGroup
import BleGateway.Lib.Machine
import BleGateway.WifiProv.DnsPacket
import Mathlib.Data.Fintype.Basic

set_option autoImplicit false

/-! # The life cycle of the captive name server

`dns_hijack.c`: the calls of `dns_hijack_start` and `dns_hijack_stop`, each in a task of its own,
and the DNS tasks that the starts create. What is done under `s_dns_mutex` is one step; entering a
wait, returning from it, setting bits and deleting a task are steps of their own. A call is known by
the task that makes it and a DNS task by its number in the order of creation.

The socket is left out: `shutdown` makes `recvfrom` return early, but with its timeout it may fail
at any time. So is the handle of the task, which nobody reads.
-/

namespace BleGateway.WifiProv.DnsLifecycle

open DnsPacket (Ip4Addr)

/-! ## The state -/

inductive DnsState
  | stopped | starting | running | stopping
  deriving DecidableEq

/-- The bits of `s_dns_events`. -/
inductive DnsEvt
  | running | stopped | startFailed
  deriving DecidableEq

/-- The bits that a start clears. -/
def allBits : Finset DnsEvt := {.running, .stopped, .startFailed}

/-- The bits that `dns_task_cleanup` sets. -/
def cleanupBits (failed : Bool) : Finset DnsEvt :=
  if failed then {.stopped, .startFailed} else {.stopped}

/-- Where a DNS task stands. `leaving` is `dns_task_cleanup` after its mutex section and `exiting`
after it has set its bits; `failed` is its `set_start_failed`. -/
inductive TaskPc
  | unborn
  | created
  | bound
  | publishing
  | serving
  | cleanup (failed : Bool)
  | leaving (failed : Bool)
  | exiting
  | deleted
  deriving DecidableEq

/-- The waits on `s_dns_events`: those of the four cases of `dns_hijack_start`, of which `own` is
for the task that the call has created, and that of `dns_hijack_stop`. -/
inductive Wait
  | restart (ip : Ip4Addr) (attempt : Nat)
  | starting (ip : Ip4Addr) (attempt : Nat)
  | stopping (ip : Ip4Addr) (attempt : Nat)
  | own (ip : Ip4Addr) (task : Nat)
  | stop
  deriving DecidableEq

/-- What a call returned. `startFailed` is the `ESP_ERR_INVALID_STATE` that a start returns because
of START_FAILED; it names the task that the call had created. -/
inductive Return
  | start (error : EspErr)
  | startFailed (task : Nat)
  | stop (error : EspErr)
  deriving DecidableEq

/-- Where a call stands. `provide` is `dns_ensure_sync_primitives` when it found none. -/
inductive Pc
  | idle
  | ensure (ip : Ip4Addr)
  | provide (ip : Ip4Addr)
  | take (ip : Ip4Addr) (attempt : Nat)
  | stopTake
  | wait (w : Wait)
  | returned (r : Return)
  deriving DecidableEq

/-- The variables of `dns_hijack.c`, the DNS tasks and the calls, and three records of the past:
which tasks have set START_FAILED, and for the call of each task, whether the server has been
RUNNING with the address asked for since the call began, and which DNS tasks were alive then. -/
structure Sys (ι : Type) where
  ready : Bool := false
  state : DnsState := .stopped
  redirectIp : Ip4Addr := Vector.replicate 4 0
  events : EventGroup ι DnsEvt := {}
  created : Nat := 0
  task : Nat → TaskPc := fun _ => .unborn
  call : ι → Pc := fun _ => .idle
  failed : Nat → Bool := fun _ => false
  seen : ι → Bool := fun _ => false
  aliveAt : ι → Nat → Bool := fun _ _ => false

/-- From its creation until `vTaskDelete`. -/
def TaskPc.alive : TaskPc → Bool
  | .unborn | .deleted => false
  | _ => true

/-- The task has set the bits that it sets last. -/
def TaskPc.finished : TaskPc → Bool
  | .exiting | .deleted => true
  | _ => false

/-- No call is under way. -/
def Pc.resting : Pc → Bool
  | .idle | .returned _ => true
  | _ => false

/-- The address that a start under way asks for. -/
def Pc.asked : Pc → Option Ip4Addr
  | .ensure ip | .provide ip | .take ip _ => some ip
  | .wait (.restart ip _) | .wait (.starting ip _) | .wait (.stopping ip _)
  | .wait (.own ip _) => some ip
  | _ => none

namespace Sys

variable {ι : Type} [DecidableEq ι]

def goto (σ : Sys ι) (c : ι) (pc : Pc) : Sys ι :=
  { σ with call := Function.update σ.call c pc }

def move (σ : Sys ι) (k : Nat) (pc : TaskPc) : Sys ι :=
  { σ with task := Function.update σ.task k pc }

@[simp] theorem call_goto_self (σ : Sys ι) (c : ι) (pc : Pc) : (σ.goto c pc).call c = pc :=
  Function.update_self ..

theorem call_goto_of_ne (σ : Sys ι) {c d : ι} (h : d ≠ c) (pc : Pc) :
    (σ.goto c pc).call d = σ.call d :=
  Function.update_of_ne h ..

omit [DecidableEq ι] in
@[simp] theorem task_move_self (σ : Sys ι) (k : Nat) (pc : TaskPc) : (σ.move k pc).task k = pc :=
  Function.update_self ..

omit [DecidableEq ι] in
theorem task_move_of_ne (σ : Sys ι) {i k : Nat} (h : i ≠ k) (pc : TaskPc) :
    (σ.move k pc).task i = σ.task i :=
  Function.update_of_ne h ..

/-! ## The calls -/

/-- A call begins. -/
def begin (σ : Sys ι) (c : ι) (pc : Pc) : Option (Sys ι) :=
  if (σ.call c).resting then
    some ({ σ with
      seen := Function.update σ.seen c false
      aliveAt := Function.update σ.aliveAt c fun k => (σ.task k).alive }.goto c pc)
  else none

/-- `dns_hijack_start` up to its first look at the primitives; `none` is `NULL`. -/
def start (σ : Sys ι) (c : ι) : Option Ip4Addr → Option (Sys ι)
  | none => σ.begin c (.returned (.start .invalidArg))
  | some ip =>
      if ip = Vector.replicate 4 0 then σ.begin c (.returned (.start .invalidArg))
      else σ.begin c (.ensure ip)

/-- `dns_hijack_stop` up to the mutex. -/
def stop (σ : Sys ι) (c : ι) : Option (Sys ι) :=
  σ.begin c (if σ.ready then .stopTake else .returned (.stop .ok))

/-- `dns_ensure_sync_primitives` up to the answer it may find. -/
def ensure (σ : Sys ι) (c : ι) : Option (Sys ι) :=
  match σ.call c with
  | .ensure ip => some (σ.goto c (if σ.ready then .take ip 0 else .provide ip))
  | _ => none

/-- The rest of `dns_ensure_sync_primitives`; who comes second deletes what it has made. -/
def provide (σ : Sys ι) (c : ι) (ok : Bool) : Option (Sys ι) :=
  match σ.call c with
  | .provide ip =>
      some (if ok then { σ with ready := true }.goto c (.take ip 0)
        else σ.goto c (.returned (.start .noMem)))
  | _ => none

/-- The mutex section of one attempt of `dns_hijack_start`; `created` is whether `xTaskCreate`
succeeds. -/
def startSection (σ : Sys ι) (c : ι) (ip : Ip4Addr) (attempt : Nat) (created : Bool) : Sys ι :=
  match σ.state with
  | .running =>
      if σ.redirectIp = ip then σ.goto c (.returned (.start .ok))
      else { σ with state := .stopping }.goto c (.wait (.restart ip attempt))
  | .starting => σ.goto c (.wait (.starting ip attempt))
  | .stopping => σ.goto c (.wait (.stopping ip attempt))
  | .stopped =>
      let σ := { σ with
        redirectIp := ip
        events := σ.events.clear allBits }
      if created then
        { σ with
          state := .starting
          created := σ.created + 1
          task := Function.update σ.task σ.created .created }.goto c (.wait (.own ip σ.created))
      else σ.goto c (.returned (.start .noMem))

/-- The mutex section of `dns_hijack_stop`. -/
def stopSection (σ : Sys ι) (c : ι) : Sys ι :=
  if σ.state = .stopped then σ.goto c (.returned (.stop .ok))
  else { σ with state := .stopping }.goto c (.wait .stop)

def take (σ : Sys ι) (c : ι) (created : Bool) : Option (Sys ι) :=
  match σ.call c with
  | .take ip attempt => some (σ.startSection c ip attempt created)
  | .stopTake => some (σ.stopSection c)
  | _ => none

end Sys

/-! ## Waiting -/

/-- The bits that a call waits for. -/
def Wait.mask : Wait → Finset DnsEvt
  | .restart _ _ | .stopping _ _ | .stop => {.stopped}
  | .starting _ _ => {.running, .startFailed, .stopped}
  | .own _ _ => {.running, .startFailed}

/-- The next of the ten attempts of `dns_hijack_start`. -/
def nextAttempt (ip : Ip4Addr) (attempt : Nat) : Pc :=
  if attempt + 1 < 10 then .take ip (attempt + 1) else .returned (.start .invalidState)

/-- Where a call goes on with the bits that its wait has returned. -/
def Wait.after (bits : Finset DnsEvt) : Wait → Pc
  | .restart ip attempt | .starting ip attempt => nextAttempt ip attempt
  | .stopping ip attempt =>
      if .stopped ∈ bits then nextAttempt ip attempt else .returned (.start .invalidState)
  | .own _ task =>
      if .running ∈ bits then .returned (.start .ok)
      else if .startFailed ∈ bits then .returned (.startFailed task)
      else .returned (.start .timeout)
  | .stop => .returned (.stop (if .stopped ∈ bits then .ok else .timeout))

namespace Sys

variable {ι : Type} [DecidableEq ι]

/-- A call finds none of its bits set. -/
def block (σ : Sys ι) (c : ι) : Option (Sys ι) :=
  match σ.call c with
  | .wait w => (σ.events.block c w.mask).map fun events => { σ with events }
  | _ => none

/-- The time of a waiting call is over. -/
def expire (σ : Sys ι) (c : ι) : Option (Sys ι) :=
  (σ.events.expire c).map fun events => { σ with events }

/-- `xEventGroupWaitBits` returns to a call. -/
def resume (σ : Sys ι) (c : ι) : Option (Sys ι) :=
  match σ.call c with
  | .wait w =>
      (σ.events.read c w.mask).map fun bits =>
        { σ with events := σ.events.leave c }.goto c (w.after bits)
  | _ => none

end Sys

/-! ## The DNS tasks -/

/-- The steps of a DNS task. `bind` is the socket with its result, `publish` the mutex section
behind it, `announce` the RUNNING bit, `receive` a `recvfrom` that returns nothing with the look at
the state after it, and the last three are `dns_task_cleanup`. -/
inductive TaskStep
  | bind (ok : Bool)
  | publish
  | announce
  | receive
  | close
  | signal
  | delete
  deriving DecidableEq

namespace Sys

variable {ι : Type} [DecidableEq ι]

/-- `dns_task` from one point to the next. -/
def work (σ : Sys ι) (k : Nat) : TaskStep → Option (Sys ι)
  | .bind ok =>
      if σ.task k = .created then some (σ.move k (if ok then .bound else .cleanup true)) else none
  | .publish =>
      if σ.task k = .bound then
        some (if σ.state = .starting then { σ with state := .running }.move k .publishing
          else σ.move k (.cleanup false))
      else none
  | .announce =>
      if σ.task k = .publishing then
        some ({ σ with events := σ.events.set {DnsEvt.running} }.move k .serving)
      else none
  | .receive =>
      if σ.task k = .serving then
        some (if σ.state = .stopping then σ.move k (.cleanup false) else σ)
      else none
  | .close =>
      match σ.task k with
      | .cleanup failed => some ({ σ with state := .stopped }.move k (.leaving failed))
      | _ => none
  | .signal =>
      match σ.task k with
      | .leaving failed =>
          some ({ σ with
            events := σ.events.set (cleanupBits failed)
            failed := Function.update σ.failed k (σ.failed k || failed) }.move k .exiting)
      | _ => none
  | .delete => if σ.task k = .exiting then some (σ.move k .deleted) else none

/-! ## The machine -/

/-- The server is RUNNING with an address. -/
def serves (σ : Sys ι) (ip : Ip4Addr) : Bool := σ.state = .running && σ.redirectIp = ip

/-- The starts under way that ask for what the server has got take note of it. -/
def observe (σ : Sys ι) : Sys ι :=
  { σ with seen := fun c => σ.seen c || (σ.call c).asked.any σ.serves }

end Sys

/-- The steps of the calls and of the DNS tasks. -/
inductive Label (ι : Type)
  | start (c : ι) (redirectIp : Option Ip4Addr)
  | stop (c : ι)
  | ensure (c : ι)
  | provide (c : ι) (ok : Bool)
  | take (c : ι) (created : Bool)
  | block (c : ι)
  | expire (c : ι)
  | resume (c : ι)
  | work (k : Nat) (step : TaskStep)

variable {ι : Type} [DecidableEq ι]

def Sys.step (σ : Sys ι) : Label ι → Option (Sys ι)
  | .start c redirectIp => σ.start c redirectIp
  | .stop c => σ.stop c
  | .ensure c => σ.ensure c
  | .provide c ok => σ.provide c ok
  | .take c created => σ.take c created
  | .block c => σ.block c
  | .expire c => σ.expire c
  | .resume c => σ.resume c
  | .work k step => σ.work k step

/-- The captive name server from boot on. -/
def machine (ι : Type) [DecidableEq ι] : Machine (Sys ι) (Label ι) where
  init σ := σ = {}
  step σ l := (σ.step l).map Sys.observe

/-! ## What the life cycle promises -/

/-- At most one DNS task is alive; a start returns `ESP_OK` only if the server has been RUNNING with
its address since it began, and fails because of START_FAILED only if its own task has set it; a
stop returns `ESP_OK` only when no DNS task is alive that was when it began. -/
structure Sys.Clean (σ : Sys ι) : Prop where
  exclusive : ∀ i j, (σ.task i).alive → (σ.task j).alive → i = j
  started : ∀ c, σ.call c = .returned (.start .ok) → σ.seen c
  ownFailure : ∀ c k, σ.call c = .returned (.startFailed k) → σ.failed k
  stopped : ∀ c, σ.call c = .returned (.stop .ok) → ∀ k, σ.aliveAt c k → ¬ (σ.task k).alive

/-- No DNS task is alive. -/
def Sys.Vacant (σ : Sys ι) : Prop := ∀ k < σ.created, ¬ (σ.task k).alive

/-- A start that has created a task is not given its bits yet. -/
def Sys.awaitsOwn (σ : Sys ι) (c : ι) : Bool :=
  match σ.call c with
  | .wait (.own _ _) => !σ.events.woken c
  | _ => false

/-- The steps that come in order: no start creates a task while one is alive or another start waits
for its own; no stop finds STOPPED or is told so while a task has that still to leave. -/
def Orderly (σ : Sys ι) : Label ι → Prop
  | .take c created =>
      σ.state = .stopped →
        if σ.call c = .stopTake then σ.Vacant
        else created = true → σ.Vacant ∧ ∀ d, σ.awaitsOwn d = false
  | .resume c =>
      σ.call c = .wait .stop → .stopped ∈ σ.events.view c →
        ∀ k < σ.created, σ.task k ≠ .exiting
  | _ => True

instance [Fintype ι] (σ : Sys ι) : (l : Label ι) → Decidable (Orderly σ l)
  | .take c created => inferInstanceAs (Decidable (σ.state = .stopped →
      if σ.call c = .stopTake then ∀ k < σ.created, ¬ (σ.task k).alive
      else created = true → (∀ k < σ.created, ¬ (σ.task k).alive) ∧ ∀ d, σ.awaitsOwn d = false))
  | .resume c => inferInstanceAs (Decidable (σ.call c = .wait .stop →
      .stopped ∈ σ.events.view c → ∀ k < σ.created, σ.task k ≠ .exiting))
  | .start _ _ | .stop _ | .ensure _ | .provide _ _ | .block _ | .expire _ | .work _ _ =>
      inferInstanceAs (Decidable True)

end BleGateway.WifiProv.DnsLifecycle
