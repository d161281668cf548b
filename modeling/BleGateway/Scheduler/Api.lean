import BleGateway.Scheduler.State

set_option autoImplicit false

/-! # The scheduler's interface functions

`device_control_scheduler.c` and the first half of `device_control_scheduler_lease.c`. Each
function runs in one critical section and returns the new state with what it hands back.
The range checks on `priority` and `source` are in their types; a `NULL` argument is `none`.
-/

namespace BleGateway.Scheduler

/-- Leave the job to the worker's next completion pass, which reports the terminal `t`. -/
def Slot.finish (s : Slot) (t : Terminal) : Slot :=
  { s with terminal := t, state := .completionPending }

/-! ## Start and stop -/

/-- `device_control_scheduler_init`; `created` is what `xTaskCreate` answers. -/
def init (g : CtrlState) (created : Bool) : CtrlState × EspErr :=
  if g.task then (g, .invalidState)
  else
    let g' : CtrlState := { running := true }
    if created then ({ g' with task := true }, .ok) else ({ g' with running := false }, .noMem)

/-- The critical section of `device_control_scheduler_deinit`: every job the worker still
owns is to be completed as cancelled. Leases are left as they are. -/
def deinitMark (g : CtrlState) : CtrlState :=
  { g with slots := fun i =>
      let s := g.slots i
      if s.state ≠ .free ∧ s.state ≠ .inflight then s.finish .cancelled else s }

/-! ## Submit -/

/-- `ctrl_job_equal`. -/
def jobEqual (a b : Job) : Bool :=
  a.dedupeHash = b.dedupeHash && a.source = b.source && a.ownerToken = b.ownerToken &&
    a.request.origin = b.request.origin && a.request = b.request

/-- The queued job of slot `i` is a duplicate of `job`. -/
def duplicateAt (g : CtrlState) (job : Job) (i : SlotIx) : Bool :=
  (g.slots i).state = .queued && jobEqual (g.slots i).job job

/-- The duplicates that `REPLACE_QUEUED` withdraws. -/
def supersede (g : CtrlState) (job : Job) : CtrlState :=
  { g with slots := fun i =>
      if duplicateAt g job i then (g.slots i).finish .superseded else g.slots i }

def freeSlot (g : CtrlState) : Option SlotIx := Fin.find? fun i => (g.slots i).state = .free

/-- The slot contents of a job accepted at time `now` into a slot of generation `gen`. -/
def acceptedSlot (gen : UInt32) (id : UInt32) (job : Job) (completion context : Ptr)
    (device : DevIx) (now : Int) : Slot :=
  { state := .enqueuePending
    generation := if gen + 1 = 0 then 1 else gen + 1
    id := id
    job := job
    completion := completion
    context := context
    deviceIndex := device
    deadlineUs := if job.maxQueueWaitMs ≠ 0 then now + job.maxQueueWaitMs.toNat * 1000 else 0 }

/-- Put the job into the lowest free slot, the last part of
`device_control_scheduler_submit`. -/
def enqueue (g : CtrlState) (job : Job) (completion context : Ptr) (device : DevIx)
    (now : Int) : CtrlState × EspErr × Option UInt32 :=
  match freeSlot g with
  | none => (g, .noMem, none)
  | some i =>
      let id := nextId g.nextJob
      ({ g.setSlot i (acceptedSlot (g.slots i).generation id job completion context device now)
         with nextJob := id }, .ok, some id)

/-- `device_control_scheduler_submit`: the new state, the answer and what is written to
`*out`. -/
def submit (g : CtrlState) (job : Option Job) (completion context : Ptr) (now : Int) :
    CtrlState × EspErr × Option UInt32 :=
  match job with
  | none => (g, .invalidArg, none)
  | some job =>
      if completion = 0 ∨ job.deviceId = [] then (g, .invalidArg, none)
      else if job.dedupe ≠ .none ∧ job.priority ≠ .background then (g, .invalidArg, none)
      else if g.running = false then (g, .invalidState, none)
      else
        match findOrCreateDevice g job.deviceId with
        | (g, none) => (g, .noMem, none)
        | (g, some device) =>
            match job.dedupe with
            | .none => enqueue g job completion context device now
            | .dropIfExists =>
                match Fin.find? (duplicateAt g job) with
                | some i => (g, .invalidState, some (g.slots i).id)
                | none => enqueue g job completion context device now
            | .replaceQueued => enqueue (supersede g job) job completion context device now

/-! ## Cancel -/

/-- What `ctrl_cancel_match` is asked to cancel: one job, the jobs and leases of one owner on
a device, or everything on a device. -/
inductive Selector
  | job (id : UInt32)
  | source (deviceId : CString) (source : Source) (owner : UInt32)
  | device (deviceId : CString)

def Selector.matchesSlot (sel : Selector) (s : Slot) : Bool :=
  s.state ≠ .free &&
    match sel with
    | .job id => s.id = id
    | .source deviceId src owner =>
        s.job.deviceId = deviceId && s.job.source = src && s.job.ownerToken = owner
    | .device deviceId => s.job.deviceId = deviceId

/-- A job id selects no lease. -/
def Selector.matchesLease (sel : Selector) (g : CtrlState) (l : Lease) : Bool :=
  l.state ≠ .free &&
    match sel with
    | .job _ => false
    | .source deviceId src owner =>
        (g.devices l.deviceIndex).deviceId.text = deviceId && l.source = src && l.owner = owner
    | .device deviceId => (g.devices l.deviceIndex).deviceId.text = deviceId

/-- The job loop of `ctrl_cancel_match`: a dispatched job is left to the command service. -/
def cancelSlots (sel : Selector) (g : CtrlState) : CtrlState :=
  { g with slots := fun i =>
      let s := g.slots i
      if sel.matchesSlot s ∧ s.state ≠ .inflight then s.finish .cancelled else s }

/-- The body of the lease loop of `ctrl_cancel_match`. An accepted request owns one callback,
also when it is cancelled; an active lease has had it. -/
def cancelLease (g : CtrlState) (i : DevIx) : CtrlState :=
  let l := g.leases i
  if l.state = .active then
    (g.setDevice l.deviceIndex { g.devices l.deviceIndex with lease := 0 }).setLease i
      { l with state := .free }
  else g.setLease i { l with completionStatus := .invalidState, state := .completionPending }

def cancelLeases (sel : Selector) (g : CtrlState) : CtrlState :=
  (List.finRange DEVICE_CTRL_MAX_DEVICES).foldl
    (fun g i => if sel.matchesLease g (g.leases i) then cancelLease g i else g) g

/-- The device whose dispatched command `ctrl_cancel_match` asks the command service to
cancel: the one of the last matching `INFLIGHT` slot. -/
def inflightMatch (sel : Selector) (g : CtrlState) : Option CString :=
  ((List.finRange DEVICE_CTRL_MAX_JOBS).filter fun i =>
      sel.matchesSlot (g.slots i) && (g.slots i).state = .inflight).getLast?.map
    fun i => (g.slots i).job.deviceId

/-- `ctrl_cancel_match`: the new state, the answer and the device handed to
`device_command_service_cancel_device`. -/
def cancelMatch (sel : Selector) (g : CtrlState) : CtrlState × EspErr × Option CString :=
  let found := (List.finRange DEVICE_CTRL_MAX_JOBS).any (fun i => sel.matchesSlot (g.slots i)) ||
    (List.finRange DEVICE_CTRL_MAX_DEVICES).any (fun i => sel.matchesLease g (g.leases i))
  (cancelLeases sel (cancelSlots sel g), if found then .ok else .notFound, inflightMatch sel g)

/-- `device_control_scheduler_cancel_job`. -/
def cancelJob (g : CtrlState) (id : UInt32) : CtrlState × EspErr × Option CString :=
  if id = 0 then (g, .invalidArg, none) else cancelMatch (.job id) g

/-- `device_control_scheduler_cancel_source`. -/
def cancelSource (g : CtrlState) (id : Option CString) (source : Source) (owner : UInt32) :
    CtrlState × EspErr × Option CString :=
  match id with
  | none => (g, .invalidArg, none)
  | some id => cancelMatch (.source id source owner) g

/-- `device_control_scheduler_cancel_device`. -/
def cancelDevice (g : CtrlState) (id : Option CString) : CtrlState × EspErr × Option CString :=
  match id with
  | none => (g, .invalidArg, none)
  | some id => cancelMatch (.device id) g

/-! ## Blocking -/

/-- `device_control_scheduler_block_device`. -/
def blockDevice (g : CtrlState) (id : Option CString) : CtrlState × EspErr :=
  match id with
  | none => (g, .invalidArg)
  | some [] => (g, .invalidArg)
  | some id =>
      match findOrCreateDevice g id with
      | (g, some d) => (g.setDevice d { g.devices d with blocked := true }, .ok)
      | (g, none) => (g, .noMem)

/-- `device_control_scheduler_unblock_device`. -/
def unblockDevice (g : CtrlState) (id : Option CString) : CtrlState × EspErr :=
  match id with
  | none => (g, .invalidArg)
  | some id =>
      match findDevice g id with
      | some d => (g.setDevice d { g.devices d with blocked := false }, .ok)
      | none => (g, .notFound)

/-- `device_control_scheduler_is_idle`. -/
def isIdle (g : CtrlState) (id : CString) : Bool :=
  match findDevice g id with
  | none => true
  | some d =>
      !(g.devices d).transportInflight && (g.devices d).lease = 0 &&
        (List.finRange DEVICE_CTRL_MAX_JOBS).all fun i =>
          (g.slots i).state = .free || (g.slots i).deviceIndex ≠ d

/-! ## Leases -/

/-- `device_control_lease_request_t`. -/
structure LeaseRequest where
  deviceId : Option CString
  priority : Priority
  source : Source
  ownerToken : UInt32

def freeLease (g : CtrlState) : Option DevIx := Fin.find? fun i => (g.leases i).state = .free

/-- The entry of a lease request that has just been accepted. -/
def acceptedLease (id : UInt32) (r : LeaseRequest) (completion context : Ptr) (device : DevIx) :
    Lease :=
  { state := .pending
    id := id
    deviceIndex := device
    priority := r.priority
    source := r.source
    owner := r.ownerToken
    completion := completion
    context := context }

/-- `device_control_scheduler_acquire_lease`. The device entry is made before the search for
a free lease entry, and stays when there is none. -/
def acquireLease (g : CtrlState) (request : Option LeaseRequest) (completion context : Ptr) :
    CtrlState × EspErr :=
  match request with
  | none => (g, .invalidArg)
  | some r =>
      match r.deviceId with
      | none => (g, .invalidArg)
      | some id =>
          if completion = 0 ∨ id = [] then (g, .invalidArg)
          else if g.running = false then (g, .invalidState)
          else
            match findOrCreateDevice g id with
            | (g, none) => (g, .noMem)
            | (g, some d) =>
                match freeLease g with
                | none => (g, .noMem)
                | some i =>
                    let lid := nextId g.nextLease
                    ({ g.setLease i (acceptedLease lid r completion context d)
                       with nextLease := lid }, .ok)

/-- The first active lease with this id. -/
def activeLease (g : CtrlState) (id : UInt32) : Option DevIx :=
  Fin.find? fun i => (g.leases i).state = .active && (g.leases i).id = id

/-- `device_control_scheduler_release_lease`. -/
def releaseLease (g : CtrlState) (id : UInt32) : CtrlState × EspErr :=
  if id = 0 then (g, .invalidArg)
  else
    match activeLease g id with
    | none => (g, .notFound)
    | some i =>
        let d := (g.leases i).deviceIndex
        if (g.devices d).lease ≠ id then (g, .invalidState)
        else
          ((g.setDevice d { g.devices d with lease := 0 }).setLease i
            { g.leases i with state := .free }, .ok)

end BleGateway.Scheduler
