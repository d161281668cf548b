import BleGateway.Scheduler.System
import BleGateway.Scheduler.Moves

/-! # What a step of the system can do

`SlotStep` says what a step does to the slots, their tickets and the accepted jobs,
`LeaseStep` the same for the lease table. Invariants are proved by cases on these two, never
by unfolding `Sys.step`.
-/

namespace BleGateway.Scheduler

/-! ## Slots -/

/-- The job bookkeeping of a step that accepts no job. -/
structure JobsKept (s s' : Sys) : Prop where
  jobs : s'.jobs = s.jobs
  ticket : s'.slotTicket = s.slotTicket

/-- The worker is about to call a job's completion, or has called it and not yet freed the
slot. -/
def WorkerPc.inCall : WorkerPc → Bool
  | .running _ (.completeCall _ _ _) => true
  | .running _ (.completeClear _) => true
  | _ => false

def Label.isWorker : Label → Bool
  | .worker _ _ => true
  | _ => false

/-- The step is not one of the worker's around a completion callback. -/
def OutsideCall (s : Sys) (l : Label) (s' : Sys) : Prop :=
  (l.isWorker = false ∧ s'.worker = s.worker) ∨
    (s.worker.inCall = false ∧ s'.worker.inCall = false)

inductive SlotStep (s : Sys) (l : Label) (s' : Sys) : Prop
  | quiet : Quiet s.ctrl s'.ctrl → JobsKept s s' → OutsideCall s l s' → SlotStep s l s'
  | called {final : Bool} {i : SlotIx} {call : JobCall} {ticket : Nat} :
      s.worker = .running final (.completeCall i call ticket) →
      s'.ctrl = s.ctrl → JobsKept s s' →
      s'.worker = .running final (.completeClear i) → l.isWorker = true → SlotStep s l s'
  | accepted {job : Job} {completion context : Ptr} {now : Int} {i : SlotIx} :
      l = .submit (some job) completion context now →
      (Scheduler.submit s.ctrl (some job) completion context now).2.1 = .ok →
      Accepted s.ctrl s'.ctrl job completion context now i →
      s'.jobs = s.jobs ++ [⟨job, completion, context⟩] →
      s'.slotTicket = Function.update s.slotTicket i s.jobs.length →
      s'.worker = s.worker → SlotStep s l s'
  | completed {i : SlotIx} : Completes s.ctrl s'.ctrl i → JobsKept s s' → OutsideCall s l s' →
      SlotStep s l s'
  | dispatched {final : Bool} {n : Fin DEVICE_CTRL_MAX_INFLIGHT} {i : SlotIx} :
      s.worker = .running final (.dispatch n) →
      s.ctrl.inflight < DEVICE_CTRL_MAX_INFLIGHT →
      selectSlotLocked s.ctrl = some i →
      s'.ctrl = startDispatch s.ctrl i → JobsKept s s' →
      s'.worker = .running final (.submitting n i) → SlotStep s l s'
  | reported {final : Bool} {i : SlotIx} {call : JobCall} :
      s.worker = .running final (.complete i) →
      (s.ctrl.slots i).state = .completionPending →
      s'.ctrl = (releaseTransport s.ctrl i).setSlot i
        { s.ctrl.slots i with state := .completing } →
      JobsKept s s' →
      call = ⟨(s.ctrl.slots i).completion, (s.ctrl.slots i).context,
        ⟨(s.ctrl.slots i).id, (s.ctrl.slots i).terminal, (s.ctrl.slots i).pendingResult⟩⟩ →
      s'.worker = .running final (.completeCall i call (s.slotTicket i)) → SlotStep s l s'
  | cleared {final : Bool} {i : SlotIx} :
      s.worker = .running final (.completeClear i) →
      s'.ctrl = clearSlot s.ctrl i → JobsKept s s' →
      s'.worker = .running final (afterComplete i) → SlotStep s l s'

/-! Recording an answer changes the history it is about and nothing else. -/

theorem recordSubmit_of_ne_ok {s : Sys} {slot : Option SlotIx} {job : Option Job}
    {completion context : Ptr} {err : EspErr} (h : err ≠ .ok) :
    s.recordSubmit slot job completion context err = s := by
  unfold Sys.recordSubmit
  split
  · exact absurd rfl h
  · rfl

theorem recordAcquire_of_ne_ok {s : Sys} {entry : Option DevIx} {request : Option LeaseRequest}
    {completion context : Ptr} {err : EspErr} (h : err ≠ .ok) :
    s.recordAcquire entry request completion context err = s := by
  unfold Sys.recordAcquire
  split
  · exact absurd rfl h
  · rfl

theorem recordSubmit_eq (s : Sys) (slot : Option SlotIx) (job : Option Job)
    (completion context : Ptr) (err : EspErr) : ∃ jobs ticket,
      s.recordSubmit slot job completion context err =
        { s with jobs := jobs, slotTicket := ticket } := by
  unfold Sys.recordSubmit
  split <;> exact ⟨_, _, rfl⟩

theorem recordAcquire_eq (s : Sys) (entry : Option DevIx) (request : Option LeaseRequest)
    (completion context : Ptr) (err : EspErr) : ∃ requests ticket,
      s.recordAcquire entry request completion context err =
        { s with leaseRequests := requests, leaseTicket := ticket } := by
  unfold Sys.recordAcquire
  split <;> exact ⟨_, _, rfl⟩

variable {g new old : CtrlState}

/-! The steps by their labels. -/

theorem step_submit {s s' : Sys} {job : Option Job} {completion context : Ptr} {now : Int}
    (h : s.step (.submit job completion context now) = some s') : ∃ jobs ticket,
      s' = { s.setCtrl (submit s.ctrl job completion context now).1 with
        jobs := jobs, slotTicket := ticket } := by
  cases h
  exact recordSubmit_eq ..

theorem step_acquire {s s' : Sys} {request : Option LeaseRequest} {completion context : Ptr}
    (h : s.step (.acquireLease request completion context) = some s') : ∃ requests ticket,
      s' = { s.setCtrl (acquireLease s.ctrl request completion context).1 with
        leaseRequests := requests, leaseTicket := ticket } := by
  cases h
  exact recordAcquire_eq ..

def Label.cancels : Label → Bool
  | .cancelJob _ | .cancelSource _ _ _ | .cancelDevice _ => true
  | _ => false

theorem step_cancels {s s' : Sys} {l : Label} (h : s.step l = some s') (hl : l.cancels = true) :
    ∃ g, s' = s.setCtrl g ∧ Cancels s.ctrl g := by
  cases l with
  | cancelJob id => exact ⟨_, (Option.some.inj h).symm, cancelJob_cancels s.ctrl id⟩
  | cancelSource id source owner =>
      exact ⟨_, (Option.some.inj h).symm, cancelSource_cancels s.ctrl id source owner⟩
  | cancelDevice id => exact ⟨_, (Option.some.inj h).symm, cancelDevice_cancels s.ctrl id⟩
  | _ => cases hl

/-- The calls that have no answer to record. -/
def Label.isCall : Label → Bool
  | .cancelJob _ | .cancelSource _ _ _ | .cancelDevice _ | .blockDevice _ | .unblockDevice _
  | .releaseLease _ => true
  | _ => false

theorem step_call {s s' : Sys} {l : Label} (h : s.step l = some s') (hl : l.isCall = true) :
    ∃ g, s' = s.setCtrl g ∧ Quiet s.ctrl g ∧ (Cancels s.ctrl g ∨ LeasesKept s.ctrl g ∨
      ∃ i, (s.ctrl.leases i).state = .active ∧ g = dropLease s.ctrl i) := by
  cases l with
  | cancelJob | cancelSource | cancelDevice =>
      obtain ⟨g, hg, hc⟩ := step_cancels h rfl
      exact ⟨g, hg, hc.quiet, .inl hc⟩
  | blockDevice id =>
      have hb := blockDevice_spec s.ctrl id
      exact ⟨_, (Option.some.inj h).symm, hb.1, .inr (.inl hb.2)⟩
  | unblockDevice id =>
      have hb := unblockDevice_spec s.ctrl id
      exact ⟨_, (Option.some.inj h).symm, hb.1, .inr (.inl hb.2)⟩
  | releaseLease id =>
      refine ⟨_, (Option.some.inj h).symm, releaseLease_quiet s.ctrl id, .inr ?_⟩
      rcases releaseLease_cases s.ctrl id with hr | hr
      · rw [hr]
        exact .inl (.refl _)
      · exact .inr hr
  | _ => cases hl

theorem step_worker {s s' : Sys} {now : Int} {answer : EspErr}
    (h : s.step (.worker now answer) = some s') :
    (s.worker = .waiting ∧ s' = { s with worker := .running (!s.ctrl.running) .promote }) ∨
      ∃ final pc, s.worker = .running final pc ∧ s' = s.procStep final pc now answer := by
  simp only [Sys.step, Sys.workerStep] at h
  split at h
  · rename_i hw
    cases h
    exact .inl ⟨hw, rfl⟩
  · rename_i final pc hw
    cases h
    exact .inr ⟨final, pc, hw, rfl⟩
  · cases h

theorem Quiet.flags {task running stopped : Bool} (h : running = true → g.running = true) :
    Quiet g { g with task := task, running := running, stopped := stopped } :=
  ⟨fun _ => .stay, ⟨fun _ => .refl _, fun _ h h' => by simp [h] at h'⟩, rfl, h, Or.inr fun _ => id⟩

/-- The end of a dispatch round changes at most the flag `stopped`. -/
theorem afterDispatch_quiet {s : Sys} (s' : Sys) (final : Bool)
    (n : Fin DEVICE_CTRL_MAX_INFLIGHT) (hq : Quiet s.ctrl s'.ctrl) (hk : JobsKept s s') :
    Quiet s.ctrl (s'.afterDispatch final n).ctrl ∧ JobsKept s (s'.afterDispatch final n) ∧
      (s'.afterDispatch final n).worker.inCall = false := by
  unfold Sys.afterDispatch
  split
  · exact ⟨hq, ⟨hk.jobs, hk.ticket⟩, rfl⟩
  · split
    · exact ⟨⟨hq.slots, ⟨hq.devices.entry, hq.devices.order⟩, hq.inflight, hq.running,
        hq.queues⟩, ⟨hk.jobs, hk.ticket⟩, rfl⟩
    · exact ⟨hq, ⟨hk.jobs, hk.ticket⟩, rfl⟩

variable {final : Bool} {answer : EspErr} {pc : ProcPc} {now : Int} {s' : Sys} {l : Label}

theorem afterDispatch_completes {s : Sys} {i : SlotIx} {n : Fin DEVICE_CTRL_MAX_INFLIGHT}
    (h : Completes g s.ctrl i) :
    Completes g (s.afterDispatch final n).ctrl i := by
  unfold Sys.afterDispatch
  split
  · exact h
  · split
    · exact ⟨h.inflight, h.slots, h.devices, h.count, h.running⟩
    · exact h

theorem afterLease_inCall (final : Bool) (i : DevIx) :
    (WorkerPc.running final (afterLease i)).inCall = false := by
  unfold afterLease
  split <;> rfl

theorem afterComplete_inCall (final : Bool) (i : SlotIx) :
    (WorkerPc.running final (afterComplete i)).inCall = false := by
  unfold afterComplete
  split <;> rfl

theorem afterLeaseSection_inCall (final : Bool) (i : DevIx) (call : Option LeaseCall)
    (ticket : Nat) : (WorkerPc.running final (afterLeaseSection i call ticket)).inCall = false := by
  unfold afterLeaseSection
  split
  · rfl
  · exact afterLease_inCall final i

theorem procStep_slots {s : Sys} (hpc : s.worker = .running final pc) :
    SlotStep s (.worker now answer) (s.procStep final pc now answer) := by
  have outside {s' : Sys} (hp : (WorkerPc.running final pc).inCall = false)
      (hp' : s'.worker.inCall = false) : OutsideCall s (.worker now answer) s' :=
    Or.inr ⟨hpc ▸ hp, hp'⟩
  cases pc with
  | promote => exact .quiet (promote_quiet s.ctrl now) ⟨rfl, rfl⟩ (outside rfl rfl)
  | lease i =>
      refine .quiet ?_ ⟨rfl, rfl⟩ (outside rfl (afterLeaseSection_inCall _ _ _ _))
      show Quiet s.ctrl (processLease s.ctrl i).1
      rcases processLease_cases s.ctrl i with ⟨-, hp⟩ | ⟨-, -, hp⟩ | ⟨-, -, hp⟩
      · rw [hp]
        exact (Quiet.refl _).setLease _ _
      · rw [hp]
        exact grantLease_quiet _ _
      · rw [hp]
        exact .refl _
  | leaseCall i call ticket =>
      exact .quiet (.refl _) ⟨rfl, rfl⟩ (outside rfl (afterLease_inCall _ _))
  | complete i =>
      rcases completeSlot_cases s.ctrl i with ⟨-, hc⟩ | ⟨hs, hc⟩
      · refine .quiet ?_ ⟨rfl, rfl⟩ (outside rfl ?_)
        · show Quiet s.ctrl (completeSlot s.ctrl i).1
          rw [hc]
          exact .refl _
        · simp only [Sys.procStep, hc]
          exact afterComplete_inCall _ _
      · refine .reported hpc hs ?_ ⟨rfl, rfl⟩ rfl ?_
        · show (completeSlot s.ctrl i).1 = _
          rw [hc]
        · simp only [Sys.procStep, hc]
  | completeCall i call ticket => exact .called hpc rfl ⟨rfl, rfl⟩ rfl rfl
  | completeClear i => exact .cleared hpc rfl ⟨rfl, rfl⟩ rfl
  | dispatch n =>
      simp only [Sys.procStep]
      rcases dispatchOne_cases s.ctrl with hd | ⟨i, hlt, hsel, hd⟩
      · rw [hd]
        obtain ⟨hq, hk, hw⟩ := afterDispatch_quiet (s := s)
          (s.setCtrl s.ctrl) final n (.refl _) ⟨rfl, rfl⟩
        exact .quiet hq hk (outside rfl hw)
      · rw [hd]
        exact .dispatched hpc hlt hsel rfl ⟨rfl, rfl⟩ rfl
  | submitting n i =>
      simp only [Sys.procStep]
      split
      · obtain ⟨hq, hk, hw⟩ := afterDispatch_quiet (s := s)
          ({ s with
            log := s.log ++ [Event.handed (s.slotTicket i)], dcs := i :: s.dcs }) final n
          (.refl _) ⟨rfl, rfl⟩
        exact .quiet hq hk (outside rfl hw)
      · exact .quiet (.refl _) ⟨rfl, rfl⟩ (outside rfl rfl)
  | rejected n i err =>
      rcases dispatchFailed_cases s.ctrl i err with ⟨-, he⟩ | hc
      · obtain ⟨hq, hk, hw⟩ := afterDispatch_quiet (s := s)
          (s.setCtrl (dispatchFailed s.ctrl i err)) final n (by rw [he]; exact .refl _) ⟨rfl, rfl⟩
        exact .quiet hq hk (outside rfl hw)
      · obtain ⟨-, hk, hw⟩ := afterDispatch_quiet (s := s.setCtrl (dispatchFailed s.ctrl i err))
          (s.setCtrl (dispatchFailed s.ctrl i err)) final n (.refl _) ⟨rfl, rfl⟩
        refine .completed (i := i) ?_ ⟨hk.jobs, hk.ticket⟩ (outside rfl hw)
        exact afterDispatch_completes hc

/-- **What a step does to the slots.** -/
theorem step_slots {s : Sys} (h : s.step l = some s') : SlotStep s l s' := by
  cases l with
  | submit job completion context now =>
      cases h
      rcases submit_spec s.ctrl job completion context now with ⟨he, hq⟩ | ⟨he, j, i, rfl, ha⟩
      · rw [recordSubmit_of_ne_ok he]
        exact .quiet hq ⟨rfl, rfl⟩ (Or.inl ⟨rfl, rfl⟩)
      · rw [he, ha.free]
        exact .accepted rfl he ha rfl rfl rfl
  | cancelJob | cancelSource | cancelDevice | blockDevice | unblockDevice | releaseLease =>
      obtain ⟨g, rfl, hq, -⟩ := step_call h rfl
      exact .quiet hq ⟨rfl, rfl⟩ (Or.inl ⟨rfl, rfl⟩)
  | acquireLease request completion context =>
      obtain ⟨requests, ticket, rfl⟩ := step_acquire h
      exact .quiet (acquireLease_spec s.ctrl request completion context).1 ⟨rfl, rfl⟩
        (Or.inl ⟨rfl, rfl⟩)
  | worker now answer =>
      rcases step_worker h with ⟨hw, rfl⟩ | ⟨final, pc, hw, rfl⟩
      · exact .quiet (.refl _) ⟨rfl, rfl⟩ (Or.inr ⟨by rw [hw]; rfl, rfl⟩)
      · exact procStep_slots hw
  | dcsComplete k result =>
      obtain ⟨-, ⟨⟩⟩ := Option.ite_none_right_eq_some.mp h
      rcases dcsComplete_cases s.ctrl k result with he | ⟨i, hc⟩
      · refine .quiet ?_ ⟨rfl, rfl⟩ (Or.inl ⟨rfl, rfl⟩)
        show Quiet s.ctrl (dcsComplete s.ctrl k result)
        rw [he]
        exact .refl _
      · exact .completed hc ⟨rfl, rfl⟩ (Or.inl ⟨rfl, rfl⟩)
  | deinitMark =>
      obtain ⟨-, ⟨⟩⟩ := Option.ite_none_right_eq_some.mp h
      exact .quiet (deinitMark_quiet _) ⟨rfl, rfl⟩ (Or.inl ⟨rfl, rfl⟩)
  | deinitStop =>
      obtain ⟨-, ⟨⟩⟩ := Option.ite_none_right_eq_some.mp h
      exact .quiet (.flags fun h => absurd h (by decide)) ⟨rfl, rfl⟩ (Or.inl ⟨rfl, rfl⟩)
  | deinitReturn =>
      obtain ⟨-, ⟨⟩⟩ := Option.ite_none_right_eq_some.mp h
      exact .quiet (.flags id) ⟨rfl, rfl⟩ (Or.inl ⟨rfl, rfl⟩)

/-- Only the worker's own steps move it. -/
theorem step_worker_eq {s : Sys} (h : s.step l = some s') (hl : l.isWorker = false) :
    s'.worker = s.worker := by
  cases l with
  | submit => obtain ⟨jobs, ticket, rfl⟩ := step_submit h; rfl
  | acquireLease => obtain ⟨requests, ticket, rfl⟩ := step_acquire h; rfl
  | cancelJob | cancelSource | cancelDevice | blockDevice | unblockDevice | releaseLease =>
      obtain rfl := Option.some.inj h; rfl
  | worker now answer => exact absurd hl (by simp [Label.isWorker])
  | dcsComplete | deinitMark | deinitStop | deinitReturn =>
      obtain ⟨-, ⟨⟩⟩ := Option.ite_none_right_eq_some.mp h
      rfl

/-! ## Leases -/

/-- The bookkeeping of a step that accepts no lease request. -/
structure RequestsKept (s s' : Sys) : Prop where
  requests : s'.leaseRequests = s.leaseRequests
  ticket : s'.leaseTicket = s.leaseTicket

/-- The ticket of the lease request whose callback the worker is about to call. -/
def WorkerPc.calling : WorkerPc → Option Nat
  | .running _ (.leaseCall _ _ ticket) => some ticket
  | _ => none

/-- The step is not one of the worker's around a lease callback. -/
def OutsideLeaseCall (s : Sys) (l : Label) (s' : Sys) : Prop :=
  (l.isWorker = false ∧ s'.worker = s.worker) ∨
    (s.worker.calling = none ∧ s'.worker.calling = none)

inductive LeaseStep (s : Sys) (l : Label) (s' : Sys) : Prop
  | kept : LeasesKept s.ctrl s'.ctrl → RequestsKept s s' → OutsideLeaseCall s l s' →
      LeaseStep s l s'
  | called {final : Bool} {i : DevIx} {call : LeaseCall} {ticket : Nat} :
      s.worker = .running final (.leaseCall i call ticket) →
      s'.ctrl = s.ctrl → RequestsKept s s' →
      s'.worker = .running final (afterLease i) → l.isWorker = true → LeaseStep s l s'
  | cancelled : Cancels s.ctrl s'.ctrl → RequestsKept s s' → s'.worker = s.worker →
      l.isWorker = false → LeaseStep s l s'
  | dropped {i : DevIx} : (s.ctrl.leases i).state = .active → s'.ctrl = dropLease s.ctrl i →
      RequestsKept s s' → s'.worker = s.worker → l.isWorker = false → LeaseStep s l s'
  | accepted {q : LeaseRequest} {completion context : Ptr} {i : DevIx} :
      l = .acquireLease (some q) completion context →
      LeaseAccepted s.ctrl s'.ctrl q completion context i →
      s'.leaseRequests = s.leaseRequests ++ [⟨q, completion, context⟩] →
      s'.leaseTicket = Function.update s.leaseTicket i s.leaseRequests.length →
      s'.worker = s.worker → LeaseStep s l s'
  | granted {final : Bool} {i : DevIx} :
      s.worker = .running final (.lease i) →
      (s.ctrl.leases i).state = .pending →
      (s.ctrl.devices (s.ctrl.leases i).deviceIndex).leasable = true →
      s'.ctrl = grantLease s.ctrl i → RequestsKept s s' →
      s'.worker = .running final (afterLeaseSection i ((s.ctrl.leases i).call .ok)
        (s.leaseTicket i)) → LeaseStep s l s'
  | reset {final : Bool} {i : DevIx} :
      s.worker = .running final (.lease i) →
      (s.ctrl.leases i).state = .completionPending →
      s'.ctrl = s.ctrl.setLease i {} → RequestsKept s s' →
      s'.worker = .running final (afterLeaseSection i
        ((s.ctrl.leases i).call (s.ctrl.leases i).completionStatus) (s.leaseTicket i)) →
      LeaseStep s l s'

theorem afterDispatch_leases {s : Sys} (s' : Sys) (final : Bool)
    (n : Fin DEVICE_CTRL_MAX_INFLIGHT) (hl : LeasesKept s.ctrl s'.ctrl) (hk : RequestsKept s s') :
    LeasesKept s.ctrl (s'.afterDispatch final n).ctrl ∧
      RequestsKept s (s'.afterDispatch final n) ∧
      (s'.afterDispatch final n).worker.calling = none := by
  unfold Sys.afterDispatch
  split
  · exact ⟨hl, ⟨hk.requests, hk.ticket⟩, rfl⟩
  · split
    · exact ⟨⟨hl.leases, hl.device⟩, ⟨hk.requests, hk.ticket⟩, rfl⟩
    · exact ⟨hl, ⟨hk.requests, hk.ticket⟩, rfl⟩

theorem afterLease_calling (final : Bool) (i : DevIx) :
    (WorkerPc.running final (afterLease i)).calling = none := by
  unfold afterLease
  split <;> rfl

theorem afterComplete_calling (final : Bool) (i : SlotIx) :
    (WorkerPc.running final (afterComplete i)).calling = none := by
  unfold afterComplete
  split <;> rfl

/-- Writing a device entry that keeps its lease. -/
theorem LeasesKept.setDevice {g' : CtrlState} {d : DevIx} {e : Device}
    (he : e.lease = (g.devices d).lease) (hl : g'.leases = g.leases)
    (hd : g'.devices = Function.update g.devices d e) : LeasesKept g g' := by
  refine ⟨hl, fun d' => ?_⟩
  rw [hd]
  by_cases hdd : d' = d
  · subst hdd
    simpa using he
  · simp [hdd]

theorem releaseTransport_slots (g : CtrlState) (i : SlotIx) :
    (releaseTransport g i).slots = g.slots := by
  unfold releaseTransport
  dsimp only
  split <;> rfl

theorem releaseTransport_leases (g : CtrlState) (i : SlotIx) :
    LeasesKept g (releaseTransport g i) := by
  unfold releaseTransport
  dsimp only
  split
  · exact .setDevice (d := (g.slots i).deviceIndex) (e := { g.devices (g.slots i).deviceIndex with
      inflightSlot := none, transportInflight := false }) rfl rfl rfl
  · exact .refl g

theorem dcsComplete_leases (g : CtrlState) (k : SlotIx) (result : Option DeviceCommandResult) :
    LeasesKept g (dcsComplete g k result) := by
  simp only [dcsComplete]
  split
  · split
    · exact .refl g
    · exact ⟨rfl, fun _ => rfl⟩
  · exact .refl g

theorem procStep_leases {s : Sys} (hpc : s.worker = .running final pc) :
    LeaseStep s (.worker now answer) (s.procStep final pc now answer) := by
  have outside {s' : Sys} (hp : (WorkerPc.running final pc).calling = none)
      (hp' : s'.worker.calling = none) : OutsideLeaseCall s (.worker now answer) s' :=
    Or.inr ⟨hpc ▸ hp, hp'⟩
  have kept {g : CtrlState} (h : g = s.ctrl) : LeasesKept s.ctrl g := h ▸ .refl _
  cases pc with
  | promote => exact .kept ⟨rfl, fun _ => rfl⟩ ⟨rfl, rfl⟩ (outside rfl rfl)
  | lease i =>
      rcases processLease_cases s.ctrl i with ⟨hs, hp⟩ | ⟨hs, hd, hp⟩ | ⟨-, -, hp⟩
      · refine .reset hpc hs ?_ ⟨rfl, rfl⟩ ?_
        · show (processLease s.ctrl i).1 = _
          rw [hp]
        · simp only [Sys.procStep, hp]
      · refine .granted hpc hs hd ?_ ⟨rfl, rfl⟩ ?_
        · show (processLease s.ctrl i).1 = _
          rw [hp]
        · simp only [Sys.procStep, hp]
      · refine .kept (kept ?_) ⟨rfl, rfl⟩ (outside rfl ?_)
        · show (processLease s.ctrl i).1 = _
          rw [hp]
        · simp only [Sys.procStep, hp]
          exact afterLease_calling _ _
  | leaseCall i call ticket => exact .called hpc rfl ⟨rfl, rfl⟩ rfl rfl
  | complete i =>
      rcases completeSlot_cases s.ctrl i with ⟨-, hc⟩ | ⟨-, hc⟩
      · refine .kept (kept ?_) ⟨rfl, rfl⟩ (outside rfl ?_)
        · show (completeSlot s.ctrl i).1 = _
          rw [hc]
        · simp only [Sys.procStep, hc]
          exact afterComplete_calling _ _
      · have hl := releaseTransport_leases s.ctrl i
        refine .kept ?_ ⟨rfl, rfl⟩ (outside rfl ?_)
        · show LeasesKept s.ctrl (completeSlot s.ctrl i).1
          rw [hc]
          exact ⟨hl.leases, hl.device⟩
        · simp only [Sys.procStep, hc]
          rfl
  | completeCall i call ticket => exact .kept (.refl _) ⟨rfl, rfl⟩ (outside rfl rfl)
  | completeClear i =>
      exact .kept ⟨rfl, fun _ => rfl⟩ ⟨rfl, rfl⟩ (outside rfl (afterComplete_calling _ _))
  | dispatch n =>
      simp only [Sys.procStep]
      rcases dispatchOne_cases s.ctrl with hd | ⟨i, -, -, hd⟩
      · rw [hd]
        obtain ⟨hl, hk, hw⟩ := afterDispatch_leases (s := s)
          (s.setCtrl s.ctrl) final n (.refl _) ⟨rfl, rfl⟩
        exact .kept hl hk (outside rfl hw)
      · rw [hd]
        refine .kept (.setDevice (d := (s.ctrl.slots i).deviceIndex)
          (e := { s.ctrl.devices (s.ctrl.slots i).deviceIndex with
            transportInflight := true, inflightSlot := some i }) rfl rfl rfl) ⟨rfl, rfl⟩
          (outside rfl rfl)
  | submitting n i =>
      simp only [Sys.procStep]
      split
      · obtain ⟨hl, hk, hw⟩ := afterDispatch_leases (s := s)
          ({ s with
            log := s.log ++ [Event.handed (s.slotTicket i)], dcs := i :: s.dcs }) final n
          (.refl _) ⟨rfl, rfl⟩
        exact .kept hl hk (outside rfl hw)
      · exact .kept (.refl _) ⟨rfl, rfl⟩ (outside rfl rfl)
  | rejected n i err =>
      have hl : LeasesKept s.ctrl (dispatchFailed s.ctrl i err) := by
        simp only [dispatchFailed]
        split
        · exact ⟨rfl, fun _ => rfl⟩
        · exact .refl _
      obtain ⟨hl', hk, hw⟩ := afterDispatch_leases (s := s)
        (s.setCtrl (dispatchFailed s.ctrl i err)) final n hl ⟨rfl, rfl⟩
      exact .kept hl' hk (outside rfl hw)

/-- **What a step does to the lease table.** -/
theorem step_leases {s : Sys} (h : s.step l = some s') : LeaseStep s l s' := by
  cases l with
  | submit job completion context now =>
      obtain ⟨jobs, ticket, rfl⟩ := step_submit h
      exact .kept (submit_leases s.ctrl job completion context now) ⟨rfl, rfl⟩ (Or.inl ⟨rfl, rfl⟩)
  | cancelJob | cancelSource | cancelDevice | blockDevice | unblockDevice | releaseLease =>
      obtain ⟨g, rfl, -, hc | hk | ⟨i, hi, hg⟩⟩ := step_call h rfl
      · exact .cancelled hc ⟨rfl, rfl⟩ rfl rfl
      · exact .kept hk ⟨rfl, rfl⟩ (Or.inl ⟨rfl, rfl⟩)
      · exact .dropped hi hg ⟨rfl, rfl⟩ rfl rfl
  | acquireLease request completion context =>
      cases h
      rcases (acquireLease_spec s.ctrl request completion context).2 with
        ⟨he, hl⟩ | ⟨he, q, i, rfl, ha⟩
      · rw [recordAcquire_of_ne_ok he]
        exact .kept hl ⟨rfl, rfl⟩ (Or.inl ⟨rfl, rfl⟩)
      · rw [he, ha.free]
        exact .accepted rfl ha rfl rfl rfl
  | worker now answer =>
      rcases step_worker h with ⟨hw, rfl⟩ | ⟨final, pc, hw, rfl⟩
      · exact .kept (.refl _) ⟨rfl, rfl⟩ (Or.inr ⟨by rw [hw]; rfl, rfl⟩)
      · exact procStep_leases hw
  | dcsComplete k result =>
      obtain ⟨-, ⟨⟩⟩ := Option.ite_none_right_eq_some.mp h
      exact .kept (dcsComplete_leases _ _ _) ⟨rfl, rfl⟩ (Or.inl ⟨rfl, rfl⟩)
  | deinitMark | deinitStop | deinitReturn =>
      obtain ⟨-, ⟨⟩⟩ := Option.ite_none_right_eq_some.mp h
      exact .kept ⟨rfl, fun _ => rfl⟩ ⟨rfl, rfl⟩ (Or.inl ⟨rfl, rfl⟩)

/-! ## The command service -/

/-- The slot whose command the worker has dispatched and not yet handed over or withdrawn. -/
def WorkerPc.submits : WorkerPc → Option SlotIx
  | .running _ (.submitting _ i) => some i
  | .running _ (.rejected _ i _) => some i
  | _ => none

/-- What a step does to the contexts the command service holds. -/
inductive DcsStep (s : Sys) (l : Label) (s' : Sys) : Prop
  | kept : s'.dcs = s.dcs → s'.worker.submits = s.worker.submits →
      (∀ i, (s.ctrl.slots i).state = .inflight → s'.ctrl.slots i = s.ctrl.slots i) →
      (∀ i, (s'.ctrl.slots i).state = .inflight → (s.ctrl.slots i).state = .inflight) →
      DcsStep s l s'
  | dispatched {i : SlotIx} : s.worker.submits = none → (s.ctrl.slots i).state = .queued →
      s'.ctrl = startDispatch s.ctrl i → s'.dcs = s.dcs → s'.worker.submits = some i →
      DcsStep s l s'
  | handed {i : SlotIx} : s.worker.submits = some i → s'.ctrl.slots = s.ctrl.slots →
      s'.dcs = i :: s.dcs → s'.worker.submits = none → DcsStep s l s'
  | failed {i : SlotIx} (err : EspErr) : s.worker.submits = some i →
      s'.ctrl.slots = (dispatchFailed s.ctrl i err).slots → s'.dcs = s.dcs →
      s'.worker.submits = none → DcsStep s l s'
  | rejected {i : SlotIx} : s.worker.submits = some i → s'.ctrl.slots = s.ctrl.slots →
      s'.dcs = s.dcs → s'.worker.submits = some i → DcsStep s l s'
  | completed {k : SlotIx} {result : Option DeviceCommandResult} : k ∈ s.dcs →
      s'.ctrl = dcsComplete s.ctrl k result → s'.dcs = s.dcs.erase k →
      s'.worker.submits = s.worker.submits → DcsStep s l s'

theorem DcsStep.quiet {s : Sys} (hq : Quiet s.ctrl s'.ctrl) (hdcs : s'.dcs = s.dcs)
    (hw : s'.worker.submits = s.worker.submits) : DcsStep s l s' :=
  .kept hdcs hw (fun i hi => (hq.slots i).of_inflight hi) fun i hi => by
    rwa [(hq.slots i).inflight hi] at hi

theorem DcsStep.same {s : Sys} (hslots : s'.ctrl.slots = s.ctrl.slots) (hdcs : s'.dcs = s.dcs)
    (hw : s'.worker.submits = s.worker.submits) : DcsStep s l s' :=
  .kept hdcs hw (fun i _ => by rw [hslots]) fun i hi => by rwa [hslots] at hi

/-- Behind a dispatch round only the worker and the flag `stopped` have changed. -/
theorem afterDispatch_eq (s : Sys) (final : Bool) (n : Fin DEVICE_CTRL_MAX_INFLIGHT) :
    ∃ w stopped, s.afterDispatch final n =
      { s with worker := w, ctrl := { s.ctrl with stopped := stopped } } ∧ w.submits = none := by
  unfold Sys.afterDispatch
  split
  · exact ⟨_, s.ctrl.stopped, rfl, rfl⟩
  · split
    · exact ⟨_, _, rfl, rfl⟩
    · exact ⟨_, s.ctrl.stopped, rfl, rfl⟩

theorem afterDispatch_submits (s : Sys) (final : Bool) (n : Fin DEVICE_CTRL_MAX_INFLIGHT) :
    (s.afterDispatch final n).worker.submits = none := by
  obtain ⟨w, stopped, he, hw⟩ := afterDispatch_eq s final n
  rw [he]
  exact hw

theorem afterDispatch_dcs (s : Sys) (final : Bool) (n : Fin DEVICE_CTRL_MAX_INFLIGHT) :
    (s.afterDispatch final n).dcs = s.dcs := by
  obtain ⟨w, stopped, he, -⟩ := afterDispatch_eq s final n
  rw [he]

theorem afterDispatch_slots (s : Sys) (final : Bool) (n : Fin DEVICE_CTRL_MAX_INFLIGHT) :
    (s.afterDispatch final n).ctrl.slots = s.ctrl.slots := by
  obtain ⟨w, stopped, he, -⟩ := afterDispatch_eq s final n
  rw [he]

theorem afterLeaseSection_submits (final : Bool) (i : DevIx) (call : Option LeaseCall)
    (ticket : Nat) : (WorkerPc.running final (afterLeaseSection i call ticket)).submits = none := by
  unfold afterLeaseSection afterLease
  split
  · rfl
  · split <;> rfl

theorem afterLease_submits (final : Bool) (i : DevIx) :
    (WorkerPc.running final (afterLease i)).submits = none := by
  unfold afterLease
  split <;> rfl

theorem afterComplete_submits (final : Bool) (i : SlotIx) :
    (WorkerPc.running final (afterComplete i)).submits = none := by
  unfold afterComplete
  split <;> rfl

theorem procStep_dcs {s : Sys} (hpc : s.worker = .running final pc)
    (hclear : ∀ i, pc = .completeClear i → (s.ctrl.slots i).state ≠ .inflight) :
    DcsStep s l (s.procStep final pc now answer) := by
  have away {w : WorkerPc} (hp : (WorkerPc.running final pc).submits = none)
      (hw : w.submits = none) : w.submits = s.worker.submits := by
    rw [hpc, hp, hw]
  cases pc with
  | promote => exact .quiet (promote_quiet s.ctrl now) rfl (away rfl rfl)
  | lease i =>
      refine .same ?_ rfl (away rfl (afterLeaseSection_submits _ _ _ _))
      show (processLease s.ctrl i).1.slots = _
      rcases processLease_cases s.ctrl i with ⟨-, hp⟩ | ⟨-, -, hp⟩ | ⟨-, -, hp⟩ <;>
        simp [hp, grantLease]
  | leaseCall i call ticket => exact .same rfl rfl (away rfl (afterLease_submits _ _))
  | complete i =>
      rcases completeSlot_cases s.ctrl i with ⟨-, hc⟩ | ⟨hst, hc⟩
      · refine .same ?_ rfl (away rfl ?_)
        · show (completeSlot s.ctrl i).1.slots = _
          rw [hc]
        · simp only [Sys.procStep, hc]
          exact afterComplete_submits _ _
      · have hslots : (s.procStep final (.complete i) now answer).ctrl.slots =
            Function.update s.ctrl.slots i { s.ctrl.slots i with state := .completing } := by
          show (completeSlot s.ctrl i).1.slots = _
          rw [hc, CtrlState.setSlot_slots, releaseTransport_slots]
        refine .kept rfl (away rfl ?_) (fun j hj => ?_) fun j hj => ?_
        · simp only [Sys.procStep, hc]
          rfl
        · have hji : j ≠ i := by
            rintro rfl
            exact absurd (hst.symm.trans hj) (by decide)
          rw [hslots, Function.update_of_ne hji]
        · by_cases hji : j = i
          · subst hji
            rw [hslots] at hj
            simp at hj
          · rwa [hslots, Function.update_of_ne hji] at hj
  | completeCall i call ticket => exact .same rfl rfl (away rfl rfl)
  | completeClear i =>
      have hslots : (s.procStep final (.completeClear i) now answer).ctrl.slots =
          Function.update s.ctrl.slots i { generation := (s.ctrl.slots i).generation } := rfl
      refine .kept rfl (away rfl (afterComplete_submits _ _)) (fun j hj => ?_) fun j hj => ?_
      · have hji : j ≠ i := by
          rintro rfl
          exact hclear j rfl hj
        rw [hslots, Function.update_of_ne hji]
      · by_cases hji : j = i
        · subst hji
          rw [hslots] at hj
          simp at hj
        · rwa [hslots, Function.update_of_ne hji] at hj
  | dispatch n =>
      simp only [Sys.procStep]
      rcases dispatchOne_cases s.ctrl with hd | ⟨i, -, hsel, hd⟩
      · rw [hd]
        refine .same ?_ ?_ (away rfl (afterDispatch_submits _ _ _))
        · rw [afterDispatch_slots]
          rfl
        · rw [afterDispatch_dcs]
          rfl
      · rw [hd]
        exact .dispatched (by rw [hpc]; rfl) (selectSlotLocked_spec hsel).1 rfl rfl rfl
  | submitting n i =>
      have hsub : s.worker.submits = some i := by
        rw [hpc]
        rfl
      simp only [Sys.procStep]
      split
      · refine .handed hsub ?_ ?_ (afterDispatch_submits _ _ _)
        · rw [afterDispatch_slots]
        · rw [afterDispatch_dcs]
      · exact .rejected hsub rfl rfl rfl
  | rejected n i err =>
      refine .failed (i := i) err (by rw [hpc]; rfl) ?_ ?_ (afterDispatch_submits _ _ _)
      · simp only [Sys.procStep, afterDispatch_slots]
        rfl
      · simp only [Sys.procStep, afterDispatch_dcs]
        rfl

/-- **What a step does to the commands in flight.** A slot that is being given back is not in
flight. -/
theorem step_dcs {s : Sys} (h : s.step l = some s')
    (hclear : ∀ final i, s.worker = .running final (.completeClear i) →
      (s.ctrl.slots i).state ≠ .inflight) :
    DcsStep s l s' := by
  cases l with
  | submit job completion context now =>
      cases h
      rcases submit_spec s.ctrl job completion context now with ⟨he, hq⟩ | ⟨he, j, i, rfl, ha⟩
      · rw [recordSubmit_of_ne_ok he]
        exact .quiet hq rfl rfl
      · rw [he, ha.free]
        obtain ⟨id, d, hslot, -⟩ := ha.slot
        refine .kept rfl rfl (fun k hk => ?_) fun k hk => ?_
        · have hki : k ≠ i := by
            rintro rfl
            exact absurd ((freeSlot_spec ha.free).symm.trans hk) (by decide)
          exact (ha.move hki).of_inflight hk
        · by_cases hki : k = i
          · subst hki
            replace hk : ((submit s.ctrl (some j) completion context now).1.slots k).state =
              .inflight := hk
            rw [hslot] at hk
            simp [acceptedSlot] at hk
          · rw [← (ha.move hki).inflight hk]
            exact hk
  | acquireLease request completion context =>
      obtain ⟨requests, ticket, rfl⟩ := step_acquire h
      exact .quiet (acquireLease_spec s.ctrl request completion context).1 rfl rfl
  | cancelJob | cancelSource | cancelDevice | blockDevice | unblockDevice | releaseLease =>
      obtain ⟨g, rfl, hq, -⟩ := step_call h rfl
      exact .quiet hq rfl rfl
  | worker now answer =>
      rcases step_worker h with ⟨hw, rfl⟩ | ⟨final, pc, hw, rfl⟩
      · exact .same rfl rfl (by rw [hw]; rfl)
      · exact procStep_dcs hw fun i hi => hclear _ i (hi ▸ hw)
  | dcsComplete k result =>
      obtain ⟨hk, ⟨⟩⟩ := Option.ite_none_right_eq_some.mp h
      exact .completed hk rfl rfl rfl
  | deinitMark =>
      obtain ⟨-, ⟨⟩⟩ := Option.ite_none_right_eq_some.mp h
      exact .quiet (deinitMark_quiet _) rfl rfl
  | deinitStop | deinitReturn =>
      obtain ⟨-, ⟨⟩⟩ := Option.ite_none_right_eq_some.mp h
      exact .same rfl rfl rfl

/-! ## The log -/

/-- What the worker's step at this position logs. -/
def WorkerPc.events (ticket : SlotIx → Nat) : WorkerPc → List Event
  | .running _ (.leaseCall _ call t) => [.leaseCalled t call]
  | .running _ (.completeCall _ call t) => [.jobCalled t call]
  | .running _ (.submitting _ i) => [.handed (ticket i)]
  | _ => []

/-- What a step logs beside the jobs it drops. -/
def stepEvents (s : Sys) (l : Label) : List Event :=
  if l.isWorker then s.worker.events s.slotTicket else []

theorem mem_droppedTickets {ticket : SlotIx → Nat} {e : Event} :
    e ∈ droppedTickets old new ticket ↔ ∃ i, (old.slots i).waiting = true ∧
      (new.slots i).state = .completionPending ∧ e = .dropped (ticket i) := by
  simp only [droppedTickets, List.mem_filterMap, List.mem_finRange, true_and]
  refine exists_congr fun i => ?_
  by_cases h : (old.slots i).waiting = true ∧ (new.slots i).state = .completionPending
  · simp [h, eq_comm]
  · simp only [if_neg h]
    constructor
    · intro h'
      cases h'
    · rintro ⟨hw, hc, -⟩
      exact absurd ⟨hw, hc⟩ h

theorem droppedTickets_same (h : new.slots = old.slots) (ticket : SlotIx → Nat) :
    droppedTickets old new ticket = [] := by
  refine List.eq_nil_iff_forall_not_mem.mpr fun e he => ?_
  obtain ⟨i, hw, hc, -⟩ := mem_droppedTickets.mp he
  rw [h] at hc
  simp [Slot.waiting, hc] at hw

theorem afterDispatch_log (s : Sys) (final : Bool) (n : Fin DEVICE_CTRL_MAX_INFLIGHT) :
    (s.afterDispatch final n).log = s.log := by
  obtain ⟨w, stopped, he, -⟩ := afterDispatch_eq s final n
  rw [he]

theorem droppedTickets_congr {new' : CtrlState} (h : new.slots = new'.slots)
    (ticket : SlotIx → Nat) :
    droppedTickets old new ticket = droppedTickets old new' ticket := by
  simp only [droppedTickets, h]

/-- A step that leaves the slots alone drops nothing. -/
theorem log_of_slots {s : Sys} {es : List Event} (hl : s'.log = s.log ++ es)
    (hc : s'.ctrl.slots = s.ctrl.slots) :
    s'.log = s.log ++ droppedTickets s.ctrl s'.ctrl s.slotTicket ++ es := by
  rw [hl, droppedTickets_same hc, List.append_nil]

theorem procStep_log {s : Sys} :
    (s.procStep final pc now answer).log = s.log ++
      droppedTickets s.ctrl (s.procStep final pc now answer).ctrl s.slotTicket ++
      (WorkerPc.running final pc).events s.slotTicket := by
  cases pc with
  | promote | lease | complete | completeClear => exact (List.append_nil _).symm
  | leaseCall | completeCall => exact log_of_slots rfl rfl
  | dispatch n =>
      simp only [Sys.procStep]
      rcases dispatchOne_cases s.ctrl with hd | ⟨i, -, -, hd⟩
      · rw [hd]
        simp only [afterDispatch_log, droppedTickets_congr (afterDispatch_slots _ final n)]
        exact (List.append_nil _).symm
      · rw [hd]
        exact (List.append_nil _).symm
  | submitting n i =>
      simp only [Sys.procStep]
      split
      · rw [afterDispatch_log, droppedTickets_congr (afterDispatch_slots _ final n),
          droppedTickets_same rfl, List.append_nil]
        rfl
      · rw [droppedTickets_same rfl, List.append_nil]
        rfl
  | rejected n i err =>
      simp only [Sys.procStep, afterDispatch_log,
        droppedTickets_congr (afterDispatch_slots _ final n)]
      exact (List.append_nil _).symm

/-- **What a step logs**: the jobs it takes out of the queue, and the call it makes. -/
theorem step_log {s : Sys} (h : s.step l = some s') :
    s'.log = s.log ++ droppedTickets s.ctrl s'.ctrl s.slotTicket ++ stepEvents s l := by
  have plain {g : CtrlState} {t : Sys} (hl : t.log = (s.setCtrl g).log)
      (hc : t.ctrl.slots = g.slots) :
      t.log = s.log ++ droppedTickets s.ctrl t.ctrl s.slotTicket ++ [] := by
    rw [hl, droppedTickets_congr hc, List.append_nil]
    rfl
  cases l with
  | submit => obtain ⟨jobs, ticket, rfl⟩ := step_submit h; exact plain rfl rfl
  | acquireLease => obtain ⟨requests, ticket, rfl⟩ := step_acquire h; exact plain rfl rfl
  | cancelJob | cancelSource | cancelDevice | blockDevice | unblockDevice | releaseLease =>
      obtain rfl := Option.some.inj h; exact plain rfl rfl
  | worker now answer =>
      rcases step_worker h with ⟨hw, rfl⟩ | ⟨final, pc, hw, rfl⟩
      · rw [droppedTickets_same rfl, List.append_nil]
        simp only [stepEvents, hw, Label.isWorker, if_true]
        exact (List.append_nil _).symm
      · simp only [stepEvents, hw, Label.isWorker, if_true]
        exact procStep_log
  | dcsComplete | deinitMark =>
      obtain ⟨-, ⟨⟩⟩ := Option.ite_none_right_eq_some.mp h
      exact plain rfl rfl
  | deinitStop | deinitReturn =>
      obtain ⟨-, ⟨⟩⟩ := Option.ite_none_right_eq_some.mp h
      exact log_of_slots (List.append_nil _).symm rfl

end BleGateway.Scheduler
