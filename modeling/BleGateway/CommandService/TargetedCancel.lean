import BleGateway.CommandService.Steps

/-! # A cancel cancels the jobs it selects

A cancel decides about a command in flight in its critical section, and has the command service
cancel whatever is pending for the device later. At that time it is still the selected job, if no
command of another job became pending while the cancel was on its way.
-/

namespace BleGateway.CommandService

open Scheduler (SlotIx Slot Selector CtrlState TablesInv DispatchInv)

/-! ## The property -/

/-- Every job that a cancel has completed is one that its selector matches. -/
def Sys.Precise (σ : Sys) : Prop := ∀ x ∈ σ.cancelled, x.1.matchesSlot x.2 = true

/-- The cancels on their way: between their critical section and their call of the command
service, or in its urgent queue. -/
def Sys.underWay (σ : Sys) : List CancelCall :=
  σ.calls ++ List.zipWith CancelCall.mk σ.causes (Dcs.cancelEvents σ.dcs.urgentQueue)

/-- A command that becomes pending for a device belongs to a job that every cancel on its way to
the device matches. -/
def Fits (σ : Sys) : Label → Prop
  | .task _ a _ => σ.dcs.task = .receive → a.passes = true →
      ∀ e ∈ σ.dcs.normalQueue.head?, ∀ c ∈ σ.underWay, c.deviceId = e.request.deviceId →
        c.selector.matchesSlot (σ.sched.ctrl.slots e.callback) = true
  | _ => True

/-! ## The slots of the commands that the service holds -/

section Held

variable {s s' : Scheduler.Sys} {l : Scheduler.Label} {k : SlotIx}

/-- The scheduler leaves the slot of a command alone while the service holds it. -/
theorem held_slot (hs : Scheduler.machine.Reachable s) (h : s.step l = some s') (hk : k ∈ s.dcs)
    (hk' : k ∈ s'.dcs) : s'.ctrl.slots k = s.ctrl.slots k := by
  have hd := Scheduler.dispatch_inv hs
  have hclear (final : Bool) (i : SlotIx) (hw : s.worker = .running final (.completeClear i)) :
      (s.ctrl.slots i).state ≠ .inflight := by
    intro hcon
    have hrep := (Scheduler.job_inv hs).atClear final i hw
    simp [Slot.reporting, hcon] at hrep
  cases Scheduler.step_dcs h hclear with
  | kept _ _ hin _ => exact hin k (hd.held k hk).state
  | @dispatched i _ hq hctrl _ _ =>
      have hki : k ≠ i := by
        rintro rfl
        exact absurd ((hd.held k hk).state.symm.trans hq) (by decide)
      rw [hctrl]
      simp [Scheduler.startDispatch, hki]
  | handed _ hslots | rejected _ hslots => rw [hslots]
  | @failed i err hsub hslots _ _ =>
      obtain ⟨hopen, hnot⟩ := hd.submitting i hsub
      have hki : k ≠ i := by
        rintro rfl
        exact hnot hk
      rw [hslots]
      simp [Scheduler.dispatchFailed, hopen.state, hki]
  | @completed i result hi hctrl hdcs _ =>
      have hopen := hd.held i hi
      rw [hdcs, hd.nodup.mem_erase_iff] at hk'
      rw [Scheduler.dcsComplete_eq hopen.state hopen.unwritten hopen.own] at hctrl
      rw [hctrl]
      simp [hk'.1]

/-- Two commands in flight are for different devices. -/
theorem inflight_device {g : CtrlState} (h : TablesInv g) {i j : SlotIx}
    (hi : (g.slots i).state = .inflight) (hj : (g.slots j).state = .inflight)
    (hdev : (g.slots i).job.deviceId = (g.slots j).job.deviceId) : i = j := by
  have hfi := h.device.found i (by simp [hi])
  have hfj := h.device.found j (by simp [hj])
  rw [hdev, hfj] at hfi
  have hhi := h.transport.holder i hi
  have hhj := h.transport.holder j hj
  rw [CtrlState.deviceOf, ← Option.some.inj hfi] at hhi
  rw [CtrlState.deviceOf, hhi] at hhj
  exact Option.some.inj hhj

end Held

/-- The service holds the command of slot `k`, which is for this device. -/
def Carries (s : Scheduler.Sys) (k : SlotIx) (id : DeviceId) : Prop :=
  k ∈ s.dcs ∧ (s.ctrl.slots k).job.request.deviceId = id

/-- The submitted and the pending commands are different ones that the service holds. -/
structure Held (s : Scheduler.Sys) (d : Dcs SlotIx) : Prop where
  queued : ∀ e ∈ d.normalQueue, Carries s e.callback e.request.deviceId
  pending : ∀ i p, d.pending i = some p → Carries s p.callback p.deviceId
  distinct : (d.normalQueue.map (·.callback)).Nodup
  apart : ∀ i p, d.pending i = some p → p.callback ∉ d.normalQueue.map (·.callback)
  single : ∀ i j p q, d.pending i = some p → d.pending j = some q → p.callback = q.callback →
    i = j

namespace Held

variable {s s' : Scheduler.Sys} {d d' : Dcs SlotIx} {k : SlotIx} {a : Dcs.SubmitAnswers}
  {done : Option (Done SlotIx)}

theorem carries_step (hs : Scheduler.machine.Reachable s) {l : Scheduler.Label}
    (hl : s.step l = some s') {id : DeviceId} (h : Carries s k id) (hk : k ∈ s'.dcs) :
    Carries s' k id :=
  ⟨hk, by rw [held_slot hs hl h.1 hk]; exact h.2⟩

/-- A step of the scheduler that takes nothing back from the service. -/
theorem sched (h : Held s d) (hs : Scheduler.machine.Reachable s) {l : Scheduler.Label}
    (hl : s.step l = some s') (hdcs : ∀ k ∈ s.dcs, k ∈ s'.dcs) : Held s' d where
  queued e he := carries_step hs hl (h.queued e he) (hdcs _ (h.queued e he).1)
  pending i p hp := carries_step hs hl (h.pending i p hp) (hdcs _ (h.pending i p hp).1)
  distinct := h.distinct
  apart := h.apart
  single := h.single

/-- The queues of the service are read by nobody else. -/
theorem congr (h : Held s d) (hq : d'.normalQueue = d.normalQueue)
    (hp : d'.pending = d.pending) : Held s d' := by
  constructor
  · rw [hq]
    exact h.queued
  · rw [hp]
    exact h.pending
  · rw [hq]
    exact h.distinct
  · rw [hq, hp]
    exact h.apart
  · rw [hp]
    exact h.single

/-- A command that the service did not hold is submitted. -/
theorem push (h : Held s d) {request : DeviceCommandRequest} (hk : Carries s k request.deviceId)
    (hqueue : k ∉ d.normalQueue.map (·.callback))
    (hpending : ∀ i p, d.pending i = some p → p.callback ≠ k)
    (hq : d'.normalQueue = d.normalQueue ++ [⟨request, k⟩]) (hp : d'.pending = d.pending) :
    Held s d' where
  queued e he := by
    rw [hq, List.mem_append, List.mem_singleton] at he
    rcases he with he | rfl
    · exact h.queued e he
    · exact hk
  pending i p hi := h.pending i p (hp ▸ hi)
  distinct := by
    rw [hq, List.map_append, List.nodup_append]
    refine ⟨h.distinct, by simp, fun x hx y hy => ?_⟩
    obtain rfl := List.mem_singleton.mp hy
    exact ne_of_mem_of_not_mem hx hqueue
  apart i p hi := by
    rw [hp] at hi
    rw [hq, List.map_append, List.mem_append, not_or]
    exact ⟨h.apart i p hi, by simpa using hpending i p hi⟩
  single i j p q hi hj := h.single i j p q (hp ▸ hi) (hp ▸ hj)

/-- Calling back about a command that the service holds is a step of the scheduler. -/
theorem callBack_step (hk : k ∈ s.dcs) (result : DeviceCommandResult) :
    s.step (.dcsComplete k (some result)) = some (callBack s (some (k, result))) := by
  simp [Scheduler.Sys.step, callBack, hk]

/-- The task calls back about a command that the service holds. -/
theorem done_mem {result : DeviceCommandResult} (h : Held s d)
    (hm : TaskMove d a d' (some (k, result))) : k ∈ s.dcs := by
  cases hm with
  | completed _ hp _ _ => exact (h.pending _ _ hp).1
  | @refused e _ hq _ => exact (h.queued e (by rw [hq]; exact List.mem_cons_self)).1

/-- The commands that stay with the service while another one is completed. -/
theorem carries_callBack (hs : Scheduler.machine.Reachable s) {j : SlotIx} (hk : k ∈ s.dcs)
    (result : DeviceCommandResult) {id : DeviceId} (h : Carries s j id) (hjk : j ≠ k) :
    Carries (callBack s (some (k, result))) j id :=
  carries_step hs (callBack_step hk result) h ((List.mem_erase_of_ne hjk).mpr h.1)

/-- **A step of the task keeps the commands apart.** -/
theorem task (h : Held s d) (hs : Scheduler.machine.Reachable s) (hm : TaskMove d a d' done) :
    Held (callBack s done) d' := by
  cases hm with
  | same hq hp => exact h.congr hq hp
  | @completed i p result hi hq hp =>
      have hk := (h.pending i p hi).1
      have hother {j : PendingIx} {q : Pending SlotIx} (hj : d'.pending j = some q) :
          j ≠ i ∧ d.pending j = some q := by
        rw [hp] at hj
        by_cases hji : j = i
        · subst hji
          simp at hj
        · exact ⟨hji, by rwa [Function.update_of_ne hji] at hj⟩
      refine ⟨fun e he => ?_, fun j q hj => ?_, hq ▸ h.distinct, fun j q hj => ?_,
        fun j j' q q' hj hj' => ?_⟩
      · rw [hq] at he
        refine carries_callBack hs hk result (h.queued e he) ?_
        rintro heq
        exact h.apart i p hi (heq ▸ List.mem_map_of_mem he)
      · obtain ⟨hji, hj⟩ := hother hj
        refine carries_callBack hs hk result (h.pending j q hj) fun heq => ?_
        exact hji (h.single j i q p hj hi heq)
      · rw [hq]
        exact h.apart j q (hother hj).2
      · exact h.single j j' q q' (hother hj).2 (hother hj').2
  | @refused e result hq hp =>
      have hk := (h.queued e (by rw [hq]; exact List.mem_cons_self)).1
      have hdistinct := h.distinct
      rw [hq, List.map_cons, List.nodup_cons] at hdistinct
      refine ⟨fun e' he' => ?_, fun j q hj => ?_, hdistinct.2, fun j q hj => ?_,
        fun j j' q q' hj hj' => ?_⟩
      · refine carries_callBack hs hk result (h.queued e' ?_) fun heq => ?_
        · rw [hq]
          exact List.mem_cons_of_mem _ he'
        · exact hdistinct.1 (heq ▸ List.mem_map_of_mem he')
      · rw [hp] at hj
        refine carries_callBack hs hk result (h.pending j q hj) fun heq => ?_
        exact h.apart j q hj (by rw [heq, hq]; exact List.mem_cons_self)
      · rw [hp] at hj
        have hnot := h.apart j q hj
        rw [hq, List.map_cons, List.mem_cons, not_or] at hnot
        exact hnot.2
      · exact h.single j j' q q' (hp ▸ hj) (hp ▸ hj')
  | @admitted e i p _ _ hq hi hcall hdev hp =>
      have hcarries := h.queued e (by rw [hq]; exact List.mem_cons_self)
      have hdistinct := h.distinct
      rw [hq, List.map_cons, List.nodup_cons] at hdistinct
      have hapart {j : PendingIx} {q : Pending SlotIx} (hj : d.pending j = some q) :
          q.callback ≠ e.callback ∧ q.callback ∉ d'.normalQueue.map (·.callback) := by
        have hnot := h.apart j q hj
        rwa [hq, List.map_cons, List.mem_cons, not_or] at hnot
      -- the slot that was free holds the first submitted command now
      have hcases {j : PendingIx} {q : Pending SlotIx} (hj : d'.pending j = some q) :
          j = i ∧ q = p ∨ j ≠ i ∧ d.pending j = some q := by
        rw [hp] at hj
        by_cases hji : j = i
        · subst hji
          rw [Function.update_self] at hj
          exact Or.inl ⟨rfl, (Option.some.inj hj).symm⟩
        · exact Or.inr ⟨hji, by rwa [Function.update_of_ne hji] at hj⟩
      refine ⟨fun e' he' => ?_, fun j q hj => ?_, hdistinct.2, fun j q hj => ?_,
        fun j j' q q' hj hj' heq => ?_⟩
      · refine h.queued e' ?_
        rw [hq]
        exact List.mem_cons_of_mem _ he'
      · rcases hcases hj with ⟨rfl, rfl⟩ | ⟨-, hj⟩
        · rw [hcall, hdev]
          exact hcarries
        · exact h.pending j q hj
      · rcases hcases hj with ⟨rfl, rfl⟩ | ⟨-, hj⟩
        · rw [hcall]
          exact hdistinct.1
        · exact (hapart hj).2
      · rcases hcases hj with ⟨rfl, rfl⟩ | ⟨-, hj⟩ <;> rcases hcases hj' with ⟨rfl, rfl⟩ | ⟨-, hj'⟩
        · rfl
        · exact absurd (heq.symm.trans hcall) (hapart hj').1
        · exact absurd (heq.trans hcall) (hapart hj).1
        · exact h.single j j' q q' hj hj' heq

end Held

variable {a : Dcs.SubmitAnswers} {i : PendingIx} {sel : Selector}

/-- A pending command was pending before the step, or is the one that has just been submitted. -/
theorem TaskMove.pending_old {κ : Type} {d d' : Dcs κ} {done : Option (Done κ)}
    (hm : TaskMove d a d' done) {p : Pending κ} (hi : d'.pending i = some p) :
    d.pending i = some p ∨ d.task = .receive ∧ a.passes = true ∧
      ∃ e ∈ d.normalQueue.head?, p.callback = e.callback ∧ p.deviceId = e.request.deviceId := by
  cases hm with
  | same _ hp | refused _ _ hp => exact Or.inl (hp ▸ hi)
  | @completed j _ _ _ _ hp =>
      rw [hp] at hi
      by_cases hij : i = j
      · subst hij
        simp at hi
      · exact Or.inl (by rwa [Function.update_of_ne hij] at hi)
  | @admitted e j q ht ha hq _ hcall hdev hp =>
      rw [hp] at hi
      by_cases hij : i = j
      · subst hij
        rw [Function.update_self] at hi
        cases hi
        exact Or.inr ⟨ht, ha, e, by rw [hq]; rfl, hcall, hdev⟩
      · exact Or.inl (by rwa [Function.update_of_ne hij] at hi)

/-! ## What the scheduler's steps hand over -/

section Handing

variable {s s' : Scheduler.Sys}

theorem passes_dcs {l : Scheduler.Label} (hl : passes l = true) (h : s.step l = some s') :
    s'.dcs = s.dcs := by
  cases l with
  | submit => obtain ⟨jobs, ticket, rfl⟩ := Scheduler.step_submit h; rfl
  | acquireLease => obtain ⟨requests, ticket, rfl⟩ := Scheduler.step_acquire h; rfl
  | blockDevice id | unblockDevice id | releaseLease id =>
      cases h
      rfl
  | deinitMark | deinitStop | deinitReturn =>
      obtain ⟨-, ⟨⟩⟩ := Option.ite_none_right_eq_some.mp h
      rfl
  | cancelJob | cancelSource | cancelDevice | worker | dcsComplete => cases hl

variable {sel : Selector} {answer : EspErr} {now : Int}

theorem cancel_dcs (h : s.step (cancelLabel sel) = some s') :
    s'.dcs = s.dcs ∧ s'.ctrl = (cancelBy sel s.ctrl).1 := by
  have hset (g : CtrlState) (hg : s' = s.setCtrl g) : s'.dcs = s.dcs ∧ s'.ctrl = g := by
    rw [hg]
    exact ⟨rfl, rfl⟩
  cases sel with
  | job | source | device => exact hset _ (Option.some.inj h).symm

/-- The worker hands nothing over where it does not submit. -/
theorem worker_dcs (hnone : handing s = none) (h : s.step (.worker now answer) = some s') :
    s'.dcs = s.dcs := by
  rcases Scheduler.step_worker h with ⟨-, rfl⟩ | ⟨final, pc, hw, rfl⟩
  · rfl
  · cases pc with
    | submitting n i => simp [handing, hw] at hnone
    | dispatch n =>
        simp only [Scheduler.Sys.procStep]
        split
        · rfl
        · exact Scheduler.afterDispatch_dcs _ _ _
    | rejected n i err => exact Scheduler.afterDispatch_dcs _ _ _
    | _ => rfl

/-- The worker hands a command over, and the slots stay as they are. -/
theorem worker_handing {i : SlotIx} (hi : handing s = some i)
    (h : s.step (.worker now answer) = some s') :
    s.worker.submits = some i ∧ s'.ctrl.slots = s.ctrl.slots ∧
      s'.dcs = if answer = .ok then i :: s.dcs else s.dcs := by
  unfold handing at hi
  split at hi
  · rename_i final n j hw
    cases hi
    simp only [Scheduler.Sys.step, Scheduler.Sys.workerStep, hw, Scheduler.Sys.procStep] at h
    refine ⟨by rw [hw]; rfl, ?_⟩
    split at h <;> rename_i ha <;> cases h
    · refine ⟨Scheduler.afterDispatch_slots _ _ _, ?_⟩
      rw [if_pos ha]
      exact Scheduler.afterDispatch_dcs _ _ _
    · exact ⟨rfl, (if_neg ha).symm⟩
  · cases hi

/-- The worker hands a command over, which the service takes or refuses. -/
theorem Held.submit {d d' : Dcs SlotIx} {k : SlotIx} (h : Held s d)
    (hreach : Scheduler.machine.Reachable s) (hk : handing s = some k)
    (hsubmit : d.submit (s.ctrl.slots k).job.request k = (d', answer))
    (hs : s.step (.worker now answer) = some s') : Held s' d' := by
  obtain ⟨hsub, hslots, hdcs⟩ := worker_handing hk hs
  rcases Dcs.submit_cases d (s.ctrl.slots k).job.request k with ⟨err, herr, heq⟩ | heq <;>
    rw [hsubmit] at heq <;> cases heq
  · rw [if_neg herr] at hdcs
    exact h.sched hreach hs fun j hj => hdcs ▸ hj
  · rw [if_pos rfl] at hdcs
    have hnot : k ∉ s.dcs := ((Scheduler.dispatch_inv hreach).submitting k hsub).2
    have hheld := h.sched hreach hs fun j hj => hdcs ▸ List.mem_cons_of_mem _ hj
    refine hheld.push (k := k) ⟨hdcs ▸ List.mem_cons_self, by rw [hslots]⟩ (fun hmem => ?_)
      (fun i p hi heq => hnot (heq ▸ (h.pending i p hi).1)) rfl rfl
    obtain ⟨e, he, rfl⟩ := List.mem_map.mp hmem
    exact hnot (h.queued e he).1

end Handing

/-! ## What the cancel section selects -/

/-- The section of a cancel marks jobs that its selector matches. -/
theorem newlyCancelled_matches (sel : Selector) (g : CtrlState) {s : Slot}
    (hs : s ∈ newlyCancelled g (cancelBy sel g).1) : sel.matchesSlot s = true := by
  obtain ⟨i, hi, rfl⟩ := List.mem_map.mp hs
  simp only [List.mem_filter, List.mem_finRange, true_and, Bool.and_eq_true,
    Bool.not_eq_true'] at hi
  obtain ⟨hnew, hold⟩ := hi
  have hsection (sel : Selector)
      (hnew : isCancelled ((Scheduler.cancelMatch sel g).1.slots i) = true) :
      sel.matchesSlot (g.slots i) = true := by
    have hslots : (Scheduler.cancelMatch sel g).1.slots = (Scheduler.cancelSlots sel g).slots := by
      rw [Scheduler.cancelMatch_fst]
      exact Scheduler.cancelLeases_induction
        (P := fun g' => g'.slots = (Scheduler.cancelSlots sel g).slots) sel
        (fun g' j _ hg' => (Scheduler.cancelLease_slots g' j).trans hg') rfl
    rw [hslots] at hnew
    simp only [Scheduler.cancelSlots] at hnew
    split at hnew
    · rename_i hm
      exact hm.1
    · cases hold.symm.trans hnew
  cases sel with
  | job id =>
      simp only [cancelBy, Scheduler.cancelJob] at hnew
      split at hnew
      · cases hold.symm.trans hnew
      · exact hsection _ hnew
  | source id source owner =>
      simp only [cancelBy, Scheduler.cancelSource] at hnew
      exact hsection _ hnew
  | device id =>
      simp only [cancelBy, Scheduler.cancelDevice] at hnew
      exact hsection _ hnew

/-- The device that a cancel goes on with is the one of a command in flight it matches. -/
theorem target_matches {g : CtrlState} {id : CString} (h : (cancelBy sel g).2.2 = some id) :
    ∃ i, sel.matchesSlot (g.slots i) = true ∧ (g.slots i).state = .inflight ∧
      (g.slots i).job.deviceId = id := by
  have hinflight (sel : Selector) (h : Scheduler.inflightMatch sel g = some id) :
      ∃ i, sel.matchesSlot (g.slots i) = true ∧ (g.slots i).state = .inflight ∧
        (g.slots i).job.deviceId = id := by
    obtain ⟨i, hi, rfl⟩ := Option.map_eq_some_iff.mp h
    have hmem := List.mem_of_getLast? hi
    simp only [List.mem_filter, List.mem_finRange, true_and, Bool.and_eq_true,
      decide_eq_true_eq] at hmem
    exact ⟨i, hmem.1, hmem.2, rfl⟩
  cases sel with
  | job jid =>
      simp only [cancelBy, Scheduler.cancelJob] at h
      split at h
      · cases h
      · exact hinflight _ h
  | source | device => exact hinflight _ h

/-! ## The invariant -/

/-- The command that is pending for the device of the cancel, if any, is one it matches. -/
def Hits (σ : Sys) (c : CancelCall) : Prop :=
  ∀ i p, σ.dcs.pending i = some p → p.deviceId = c.deviceId →
    c.selector.matchesSlot (σ.sched.ctrl.slots p.callback) = true

structure Inv (σ : Sys) : Prop where
  sched : Scheduler.machine.Reachable σ.sched
  held : Held σ.sched σ.dcs
  causes : σ.causes.length = (Dcs.cancelEvents σ.dcs.urgentQueue).length
  hits : ∀ c ∈ σ.underWay, Hits σ c
  precise : σ.Precise

namespace Inv

variable {σ : Sys} {sched : Scheduler.Sys} {dcs : Dcs SlotIx} {c : CancelCall} {answer : EspErr}
  {k : SlotIx} {now : Int} {done : Option (Done SlotIx)}

/-- A step of the scheduler leaves the slots of the pending commands alone. -/
theorem hits_sched (h : Inv σ) {l : Scheduler.Label} (hs : σ.sched.step l = some sched)
    (hheld : Held sched dcs) (hp : ∀ i p, dcs.pending i = some p → σ.dcs.pending i = some p)
    (hc : Hits σ c) {p : Pending SlotIx} (hi : dcs.pending i = some p)
    (hdev : p.deviceId = c.deviceId) :
    c.selector.matchesSlot (sched.ctrl.slots p.callback) = true := by
  have hold := (h.held.pending i p (hp i p hi)).1
  rw [held_slot h.sched hs hold (hheld.pending i p hi).1]
  exact hc i p (hp i p hi) hdev

/-- A step of the scheduler that leaves the contexts of the service alone. -/
theorem schedStep (h : Inv σ) {l : Scheduler.Label} (hs : σ.sched.step l = some sched)
    (hdcs : sched.dcs = σ.sched.dcs) : Inv { σ with sched } := by
  have hheld : Held sched σ.dcs := h.held.sched h.sched hs fun k hk => hdcs ▸ hk
  exact ⟨h.sched.step hs, hheld, h.causes,
    fun c hc i p hi hdev => h.hits_sched hs hheld (fun _ _ => id) (h.hits c hc) hi hdev, h.precise⟩

/-- The worker hands a command to the service. -/
theorem submit (h : Inv σ) (hk : handing σ.sched = some k)
    (hsubmit : σ.dcs.submit (σ.sched.ctrl.slots k).job.request k = (dcs, answer))
    (hs : σ.sched.step (.worker now answer) = some sched) : Inv { σ with sched, dcs } := by
  have hheld := h.held.submit h.sched hk hsubmit hs
  have hdcs : dcs.pending = σ.dcs.pending ∧ dcs.urgentQueue = σ.dcs.urgentQueue := by
    rcases Dcs.submit_cases σ.dcs (σ.sched.ctrl.slots k).job.request k with ⟨_, -, heq⟩ | heq <;>
      rw [hsubmit] at heq <;> obtain ⟨rfl, -⟩ := Prod.mk.inj heq <;> exact ⟨rfl, rfl⟩
  refine ⟨Machine.Reachable.step (l := .worker now answer) h.sched hs, hheld, ?_,
    fun c hc i p hi hdev => ?_, h.precise⟩
  · rw [hdcs.2]
    exact h.causes
  · unfold Sys.underWay at hc
    rw [hdcs.2] at hc
    exact h.hits_sched hs hheld (fun _ _ hp => hdcs.1 ▸ hp) (h.hits c hc) hi hdev

/-- The critical section of a cancel. -/
theorem cancel (h : Inv σ) (hs : σ.sched.step (cancelLabel sel) = some sched) :
    Inv { σ with
      sched
      calls := σ.calls ++ ((cancelBy sel σ.sched.ctrl).2.2.map fun id => ⟨sel, strlcpy _ id⟩).toList
      cancelled := σ.cancelled ++
        (newlyCancelled σ.sched.ctrl (cancelBy sel σ.sched.ctrl).1).map (sel, ·) } := by
  have hdcs := (cancel_dcs hs).1
  have hheld : Held sched σ.dcs := h.held.sched h.sched hs fun k hk => hdcs ▸ hk
  have hkept {c : CancelCall} (hc : Hits σ c) : ∀ i p, σ.dcs.pending i = some p →
      p.deviceId = c.deviceId → c.selector.matchesSlot (sched.ctrl.slots p.callback) = true :=
    fun i p hi hdev => h.hits_sched hs hheld (fun _ _ => id) hc hi hdev
  refine ⟨h.sched.step hs, hheld, h.causes, fun c hc => ?_, fun x hx => ?_⟩
  · rw [Sys.underWay, List.append_assoc, List.mem_append, List.mem_append] at hc
    rcases hc with hc | hc | hc
    · exact hkept (h.hits c (List.mem_append_left _ hc))
    · obtain ⟨id, hid, rfl⟩ := Option.map_eq_some_iff.mp (Option.mem_toList.mp hc)
      refine hkept fun i p hi hdev => ?_
      obtain ⟨k, hmatch, hflight, rfl⟩ := target_matches hid
      -- the device has one command in flight, so the pending one is the selected one
      have hcarries := h.held.pending i p hi
      have hopen := (Scheduler.dispatch_inv h.sched).held _ hcarries.1
      have hdevice : p.deviceId = (σ.sched.ctrl.slots k).job.request.deviceId := by
        rw [hdev]
        exact CharBuf.ext (strlcpy_text (σ.sched.ctrl.slots k).job.request.deviceId.bounded)
      have hpk := inflight_device (Scheduler.tables_inv h.sched) hopen.state hflight
        (congrArg CharBuf.text (hcarries.2.trans hdevice))
      rw [hpk]
      exact hmatch
    · exact hkept (h.hits c (List.mem_append_right _ hc))
  · rcases List.mem_append.mp hx with hx | hx
    · exact h.precise x hx
    · obtain ⟨s, hs', rfl⟩ := List.mem_map.mp hx
      exact newlyCancelled_matches sel _ hs'

/-- A change of the service that concerns neither the commands nor the cancel events. -/
theorem service (h : Inv σ) (hq : dcs.normalQueue = σ.dcs.normalQueue)
    (hp : dcs.pending = σ.dcs.pending)
    (hu : Dcs.cancelEvents dcs.urgentQueue = Dcs.cancelEvents σ.dcs.urgentQueue) :
    Inv { σ with dcs } := by
  refine ⟨h.sched, h.held.congr hq hp, hu ▸ h.causes, fun c hc i p hi hdev => ?_, h.precise⟩
  have hc' : c ∈ σ.underWay := by
    unfold Sys.underWay at hc ⊢
    rwa [hu] at hc
  exact h.hits c hc' i p (hp ▸ hi) hdev

/-- Another event enters the urgent queue, or finds it full. -/
theorem urgent (h : Inv σ) {e : UrgentEvent} (he : Dcs.cancelEvents [e] = []) :
    Inv { σ with dcs := (σ.dcs.urgentEnqueue e).1 } := by
  rcases Dcs.urgentEnqueue_cases σ.dcs e with heq | heq <;> rw [heq]
  · exact h
  · refine h.service rfl rfl ?_
    unfold Dcs.cancelEvents at he ⊢
    rw [List.filterMap_append, he, List.append_nil]

/-- A cancel reaches the urgent queue, or is refused. -/
theorem callService (h : Inv σ) {n : Nat} (hc : σ.calls[n]? = some c) :
    Inv { σ with
      dcs := (σ.dcs.cancelDevice c.deviceId).1
      calls := σ.calls.eraseIdx n
      causes := if (σ.dcs.cancelDevice c.deviceId).2 = .ok then σ.causes ++ [c.selector]
        else σ.causes } := by
  have hmem : c ∈ σ.calls := List.mem_of_getElem? hc
  have hcalls : ∀ c' ∈ σ.calls.eraseIdx n, c' ∈ σ.calls :=
    fun c' hc' => List.mem_of_mem_eraseIdx hc'
  rcases Dcs.cancelDevice_cases σ.dcs c.deviceId with ⟨err, herr, heq⟩ | heq <;> rw [heq]
  · simp only [herr, if_false]
    refine ⟨h.sched, h.held, h.causes, fun c' hc' => h.hits c' ?_, h.precise⟩
    rcases List.mem_append.mp hc' with hc' | hc'
    · exact List.mem_append_left _ (hcalls c' hc')
    · exact List.mem_append_right _ hc'
  · simp only [if_true]
    have hevents : Dcs.cancelEvents (σ.dcs.urgentQueue ++ [.cancel c.deviceId]) =
        Dcs.cancelEvents σ.dcs.urgentQueue ++ [c.deviceId] := List.filterMap_append
    refine ⟨h.sched, h.held.congr rfl rfl, ?_, fun c' hc' => h.hits c' ?_, h.precise⟩
    · rw [hevents, List.length_append, List.length_append, h.causes]
      rfl
    · -- the call moves from the tasks to the end of the queue
      rw [Sys.underWay, hevents, List.zipWith_append h.causes] at hc'
      rcases List.mem_append.mp hc' with hc' | hc'
      · exact List.mem_append_left _ (hcalls c' hc')
      · rcases List.mem_append.mp hc' with hc' | hc'
        · exact List.mem_append_right _ hc'
        · obtain rfl : c' = c := by simpa using hc'
          exact List.mem_append_left _ hmem

/-- What the task of the service leaves when it has called back. -/
theorem hits_task (h : Inv σ) {timeUp : Bool} (hfits : Fits σ (.task now a timeUp))
    (hm : TaskMove σ.dcs a dcs done) (hc : c ∈ σ.underWay) {p : Pending SlotIx}
    (hi : dcs.pending i = some p) (hdev : p.deviceId = c.deviceId) :
    c.selector.matchesSlot ((callBack σ.sched done).ctrl.slots p.callback) = true := by
  have hheld := h.held.task h.sched hm
  have hcarried := (hheld.pending i p hi).1
  -- the slot is the one the cancel matched, or the one the condition is about
  have hbefore : p.callback ∈ σ.sched.dcs ∧
      c.selector.matchesSlot (σ.sched.ctrl.slots p.callback) = true := by
    rcases hm.pending_old hi with hold | ⟨htask, ha, e, he, hcall, hdev'⟩
    · exact ⟨(h.held.pending i p hold).1, h.hits c hc i p hold hdev⟩
    · have hmem : e ∈ σ.dcs.normalQueue := List.mem_of_mem_head? he
      rw [hcall]
      exact ⟨(h.held.queued e hmem).1, hfits htask ha e he c hc (hdev.symm.trans hdev')⟩
  cases done with
  | none => exact hbefore.2
  | some kr =>
      obtain ⟨k, result⟩ := kr
      have hk := h.held.done_mem hm
      rw [held_slot h.sched (Held.callBack_step hk result) hbefore.1 hcarried]
      exact hbefore.2

theorem reachable_callBack (h : Inv σ) (hm : TaskMove σ.dcs a dcs done) :
    Scheduler.machine.Reachable (callBack σ.sched done) := by
  cases done with
  | none => exact h.sched
  | some kr =>
      exact Machine.Reachable.step (l := .dcsComplete _ (some kr.2)) h.sched
        (Held.callBack_step (h.held.done_mem hm) kr.2)

/-- **A step of the task keeps the invariant.** -/
theorem task (h : Inv σ) {timeUp : Bool} (hfits : Fits σ (.task now a timeUp)) {σ' : Sys}
    (hs : σ.step (.task now a timeUp) = some σ') : Inv σ' := by
  obtain ⟨⟨dcs, done⟩, hstep, hσ'⟩ := Option.map_eq_some_iff.mp hs
  have hm := Dcs.taskStep_move hstep
  have hevents := Dcs.taskStep_cancelEvents hstep
  have hreach := h.reachable_callBack hm
  have hheld := h.held.task h.sched hm
  have hlen := h.causes
  rw [hevents] at hlen
  dsimp only at hσ'
  split at hσ'
  · rename_i id sel causes hnext hcauses
    subst hσ'
    rw [hnext] at hevents
    -- the event that is handled is the one of the first cause
    have hunder : σ.underWay = σ.calls ++ ⟨sel, id⟩ ::
        List.zipWith CancelCall.mk causes (Dcs.cancelEvents dcs.urgentQueue) := by
      rw [Sys.underWay, hevents, hcauses]
      rfl
    refine ⟨hreach, hheld, ?_, fun c hc i p hi hdev => ?_, fun x hx => ?_⟩
    · simpa [hcauses, hnext] using hlen
    · refine h.hits_task hfits hm ?_ hi hdev
      rw [hunder]
      rcases List.mem_append.mp hc with hc | hc
      · exact List.mem_append_left _ hc
      · exact List.mem_append_right _ (List.mem_cons_of_mem _ hc)
    · rcases List.mem_append.mp hx with hx | hx
      · exact h.precise x hx
      · obtain ⟨⟨k, result⟩, hdone, rfl⟩ := Option.map_eq_some_iff.mp (Option.mem_toList.mp hx)
        subst hdone
        obtain ⟨i, p, hi, hdev, rfl⟩ := Dcs.taskStep_cancelled hstep hnext
        refine h.hits ⟨sel, id⟩ ?_ i p hi hdev
        rw [hunder]
        exact List.mem_append_right _ List.mem_cons_self
  · rename_i hno
    subst hσ'
    have hnext : σ.dcs.nextCancel = none := by
      cases hnext : σ.dcs.nextCancel with
      | none => rfl
      | some id =>
          rw [hnext] at hlen
          cases hcauses : σ.causes with
          | nil => simp [hcauses] at hlen
          | cons sel causes => exact absurd hcauses (hno id sel causes hnext)
    rw [hnext] at hevents
    refine ⟨hreach, hheld, ?_, fun c hc i p hi hdev => ?_, h.precise⟩
    · rw [hnext] at hlen
      exact hlen
    · refine h.hits_task hfits hm ?_ hi hdev
      rw [Sys.underWay, hevents]
      exact hc

/-- **Every step that fits keeps the invariant.** -/
theorem step (h : Inv σ) {l : Label} (hfits : Fits σ l) {σ' : Sys}
    (hs : σ.step l = some σ') : Inv σ' := by
  cases l with
  | scheduler label =>
      obtain ⟨hpass, hs⟩ := Option.ite_none_right_eq_some.mp hs
      obtain ⟨sched, hsched, rfl⟩ := Option.map_eq_some_iff.mp hs
      exact h.schedStep hsched (passes_dcs hpass hsched)
  | worker now =>
      simp only [Sys.step] at hs
      split at hs
      · rename_i hnone
        obtain ⟨sched, hsched, rfl⟩ := Option.map_eq_some_iff.mp hs
        exact h.schedStep hsched (worker_dcs hnone hsched)
      · rename_i k hk
        obtain ⟨sched, hsched, rfl⟩ := Option.map_eq_some_iff.mp hs
        exact h.submit hk rfl hsched
  | cancel sel =>
      obtain ⟨sched, hsched, rfl⟩ := Option.map_eq_some_iff.mp hs
      exact h.cancel hsched
  | callService n =>
      obtain ⟨c, hc, rfl⟩ := Option.map_eq_some_iff.mp hs
      exact h.callService hc
  | ack ack =>
      cases hs
      unfold Dcs.onNotify
      split
      · exact h
      · exact h.urgent rfl
  | disconnect id =>
      cases hs
      unfold Dcs.onDisconnect
      split
      · exact h
      · exact h.urgent rfl
  | deinit =>
      cases hs
      have hu := h.urgent (e := .shutdown) rfl
      unfold Dcs.deinit
      rcases Dcs.urgentEnqueue_cases σ.dcs .shutdown with heq | heq
      · simp only [heq]
        exact h.service rfl rfl rfl
      · rw [heq] at hu
        simp only [heq]
        exact hu
  | task now a timeUp => exact h.task hfits hs

theorem boot : Inv boot where
  sched := .init rfl
  held :=
    { queued := fun _ he => by cases he
      pending := fun _ _ hp => by cases hp
      distinct := List.nodup_nil
      apart := fun _ _ hp => by cases hp
      single := fun _ _ _ _ hp => by cases hp }
  causes := rfl
  hits := fun _ hc => by cases hc
  precise := fun _ hx => by cases hx

end Inv

/-- **A cancel completes only jobs it selects**, in every run in which no command of another job
becomes pending for a device while a cancel for the device is on its way. -/
theorem cancels_precise {σ : Sys} (hσ : machine.ReachableWhen Fits σ) : σ.Precise := by
  have hinv : Inv σ := hσ.invariant (fun _ h => h ▸ Inv.boot) fun _ _ _ h hfits hs =>
    h.step hfits hs
  exact hinv.precise

/-! ## A command that becomes pending too early -/

def request : DeviceCommandRequest := { deviceId := strlcpy _ [1] }

/-- A job of the web server, or of the state component. -/
def jobOf (source : Scheduler.Source) (owner : UInt32) : Scheduler.Job :=
  { request := request, source := source, ownerToken := owner }

def submitJob (source : Scheduler.Source) (owner : UInt32) : Label :=
  .scheduler (.submit (some (jobOf source owner)) 1 0 0)

def workerSteps (n : Nat) : List Label := List.replicate n (.worker 0)

def taskSteps (n : Nat) : List Label := List.replicate n (.task 0 {} true)

/-- The job of the web server is pending; the one of the state component is queued. -/
def pendingRun : List Label :=
  [submitJob .web 1, submitJob .state 2] ++ workerSteps 47 ++ taskSteps 12

/-- The jobs of the web server are cancelled. -/
def cancelWeb : Label := .cancel (.source [1] .web 1)

/-- The device acknowledges the first command. -/
def acknowledge : Label :=
  .ack { deviceId := strlcpy _ [1], requestId := 1, command := .empty, accepted := true }

/-- The command in flight ends between the two parts of the cancel, and the next one takes its
place. -/
def overtakenRun : List Label :=
  pendingRun ++ [cancelWeb, acknowledge] ++ taskSteps 3 ++ workerSteps 49 ++ taskSteps 6 ++
    [.callService 0] ++ taskSteps 1

set_option maxRecDepth 100000 in
/-- A job of the state component is cancelled with the jobs of the web server. -/
theorem cancels_another : ¬ ∀ σ, machine.Reachable σ → σ.Precise := by
  intro h
  have hrun : (machine.run boot overtakenRun).map (fun σ =>
      σ.cancelled.any fun x => !x.1.matchesSlot x.2) = some true := by
    decide
  obtain ⟨σ, hσ, hp⟩ := Machine.exists_reachable_of_run rfl hrun
  obtain ⟨x, hx, hno⟩ := List.any_eq_true.mp hp
  rw [h σ hσ x hx] at hno
  cases hno

instance (σ : Sys) (l : Label) : Decidable (Fits σ l) := by
  unfold Fits
  cases l <;> infer_instance

/-- The cancel reaches the command it is about. -/
def cancelRun : List Label := pendingRun ++ [cancelWeb, .callService 0] ++ taskSteps 3

set_option maxRecDepth 100000 in
theorem cancels_precise_cancelRun : ∃ σ : Sys, σ.cancelled.length = 1 ∧ σ.Precise := by
  have hrun : (machine.runWhen Fits boot cancelRun).map (fun σ =>
      decide (σ.cancelled.length = 1)) = some true := by
    decide
  obtain ⟨σ, hσ, hp⟩ := Machine.exists_reachableWhen_of_run rfl hrun
  exact ⟨σ, of_decide_eq_true hp, cancels_precise hσ⟩

end BleGateway.CommandService
