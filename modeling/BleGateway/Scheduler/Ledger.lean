import BleGateway.Scheduler.Invariant

/-! # Who owes a callback

Every accepted job has one ticket. Until its callback has been called the ticket is held by
exactly one slot, and the slot holds the job's own function and context. Lease requests are
accounted for in the same way; between the section that grants or fails a request and the
callback, the worker holds the ticket.
-/

namespace BleGateway.Scheduler

/-! ## Jobs -/

/-- The slot whose callback the worker has just called. -/
def WorkerPc.clearing : WorkerPc → Option SlotIx
  | .running _ (.completeClear i) => some i
  | _ => none

/-- Slot `i` holds a job that has not had its callback. -/
def Sys.holds (s : Sys) (i : SlotIx) : Bool :=
  decide ((s.ctrl.slots i).state ≠ .free) && decide (s.worker.clearing ≠ some i)

def Sys.jobLedger (s : Sys) (i : SlotIx) : Bool × Nat := (s.holds i, s.slotTicket i)

def Event.callsJob (t : Nat) : Event → Bool
  | .jobCalled u _ => u = t
  | _ => false

/-- How often the callback of job `t` has been called. -/
def Sys.jobCalls (s : Sys) (t : Nat) : Nat := s.log.countP (Event.callsJob t)

/-- The slot is on its way out: its job is complete and being reported. -/
def Slot.reporting (s : Slot) : Bool := s.state = .completionPending || s.state = .completing

/-- The slot holds the accepted job `a`. -/
structure Slot.Holds (s : Slot) (a : AcceptedJob) : Prop where
  job : s.job = a.job
  completion : s.completion = a.completion
  context : s.context = a.context

structure JobInv (s : Sys) : Prop where
  record : ∀ i, (s.ctrl.slots i).state ≠ .free →
    ∃ a, s.jobs[s.slotTicket i]? = some a ∧ (s.ctrl.slots i).Holds a
  balance : ∀ t, s.jobCalls t + Table.holders t s.jobLedger =
    if t < s.jobs.length then 1 else 0
  called : ∀ t call, .jobCalled t call ∈ s.log →
    ∃ a, s.jobs[t]? = some a ∧ call.completion = a.completion ∧ call.context = a.context
  atCall : ∀ final i call t, s.worker = .running final (.completeCall i call t) →
    (s.ctrl.slots i).reporting = true ∧ t = s.slotTicket i ∧
      call.completion = (s.ctrl.slots i).completion ∧ call.context = (s.ctrl.slots i).context
  atClear : ∀ final i, s.worker = .running final (.completeClear i) →
    (s.ctrl.slots i).reporting = true

theorem Slot.reporting_not_free {s : Slot} (h : s.reporting = true) : s.state ≠ .free := by
  intro hf
  simp [reporting, hf] at h

/-- The slot holds the same job afterwards, and does not go back into the queue. -/
structure SlotKept (s s' : Slot) : Prop where
  free_iff : s'.state = .free ↔ s.state = .free
  job : s'.job = s.job
  completion : s'.completion = s.completion
  context : s'.context = s.context
  reporting : s.reporting = true → s'.reporting = true

theorem SlotMove.kept {s s' : Slot} (h : SlotMove s s') : SlotKept s s' := by
  refine ⟨h.free_iff, h.job, h.completion, h.context, fun hs => ?_⟩
  cases h with
  | stay => exact hs
  | queue h => simp [Slot.reporting, h] at hs
  | expire h => rfl
  | _ => simp [Slot.reporting, Slot.finish]

theorem SlotKept.holds {s s' : Slot} (h : SlotKept s s') {a : AcceptedJob} (hs : s.Holds a) :
    s'.Holds a :=
  ⟨h.job.trans hs.job, h.completion.trans hs.completion, h.context.trans hs.context⟩

variable {i : SlotIx}

theorem Completes.kept {g g' : CtrlState} (hc : Completes g g' i) (j : SlotIx) :
    SlotKept (g.slots j) (g'.slots j) := by
  obtain ⟨r, hslots⟩ := hc.slots
  rw [hslots]
  by_cases hj : j = i
  · subst hj
    constructor <;> simp [hc.inflight, Slot.complete, Slot.reporting]
  · simpa [hj] using SlotMove.stay.kept

theorem startDispatch_kept {g : CtrlState} (hi : (g.slots i).state = .queued) (j : SlotIx) :
    SlotKept (g.slots j) ((startDispatch g i).slots j) := by
  by_cases hj : j = i
  · subst hj
    constructor <;> simp [startDispatch, hi, Slot.reporting]
  · have hsame : (startDispatch g i).slots j = g.slots j := by simp [startDispatch, hj]
    rw [hsame]
    exact SlotMove.stay.kept

/-! ### What a step calls -/

theorem droppedTickets_calls (old new : CtrlState) (ticket : SlotIx → Nat) (t : Nat) :
    (droppedTickets old new ticket).countP (Event.callsJob t) = 0 := by
  refine List.countP_eq_zero.mpr fun e he => ?_
  obtain ⟨i, -, -, rfl⟩ := mem_droppedTickets.mp he
  simp [Event.callsJob]

theorem jobCalls_step {s s' : Sys} {l : Label} (h : s.step l = some s') (t : Nat) :
    s'.jobCalls t = s.jobCalls t + (stepEvents s l).countP (Event.callsJob t) := by
  rw [Sys.jobCalls, step_log h, List.countP_append, List.countP_append, droppedTickets_calls]
  rfl

/-- A job callback is called by the worker only, in front of its slot's clearing. -/
theorem mem_stepEvents_jobCalled {s : Sys} {l : Label} {t : Nat} {call : JobCall}
    (h : .jobCalled t call ∈ stepEvents s l) :
    l.isWorker = true ∧ ∃ final i, s.worker = .running final (.completeCall i call t) := by
  unfold stepEvents at h
  split at h
  · rename_i hl
    refine ⟨hl, ?_⟩
    unfold WorkerPc.events at h
    split at h
    · simp at h
    · rename_i hw
      obtain ⟨rfl, rfl⟩ : t = _ ∧ call = _ := by simpa using h
      exact ⟨_, _, hw⟩
    · simp at h
    · simp at h
  · simp at h

theorem stepEvents_calls_zero {s : Sys} {l : Label}
    (h : ∀ final i call t, s.worker = .running final (.completeCall i call t) →
      l.isWorker = false) (t : Nat) : (stepEvents s l).countP (Event.callsJob t) = 0 := by
  refine List.countP_eq_zero.mpr fun e he hc => ?_
  cases e with
  | jobCalled u call =>
      obtain ⟨hl, final, i, hw⟩ := mem_stepEvents_jobCalled he
      rw [h final i call u hw] at hl
      exact absurd hl (by decide)
  | _ => simp [Event.callsJob] at hc

theorem OutsideCall.calls_zero {s s' : Sys} {l : Label} (h : OutsideCall s l s') (t : Nat) :
    (stepEvents s l).countP (Event.callsJob t) = 0 := by
  refine stepEvents_calls_zero (fun final i call u hw => ?_) t
  rcases h with ⟨hl, -⟩ | ⟨hin, -⟩
  · exact hl
  · rw [hw] at hin
    exact absurd hin (by simp [WorkerPc.inCall])

theorem OutsideCall.clearing {s s' : Sys} {l : Label} (h : OutsideCall s l s') :
    s'.worker.clearing = s.worker.clearing := by
  have none_of {w : WorkerPc} (hw : w.inCall = false) : w.clearing = none := by
    unfold WorkerPc.clearing
    split
    · simp [WorkerPc.inCall] at hw
    · rfl
  rcases h with ⟨-, hw⟩ | ⟨hin, hin'⟩
  · rw [hw]
  · rw [none_of hin, none_of hin']

/-! ### The invariant over a step -/

namespace JobInv

variable {s s' : Sys} {l : Label}

/-- What the log of a step says about callbacks is right when the accepted jobs stay. -/
theorem called_step (h : JobInv s) (hs : s.step l = some s')
    (hjobs : ∀ (t : Nat) (a : AcceptedJob), s.jobs[t]? = some a → s'.jobs[t]? = some a)
    (t : Nat) (call : JobCall) (hmem : .jobCalled t call ∈ s'.log) :
    ∃ a, s'.jobs[t]? = some a ∧ call.completion = a.completion ∧ call.context = a.context := by
  rw [step_log hs, List.mem_append, List.mem_append] at hmem
  rcases hmem with (hmem | hmem) | hmem
  · obtain ⟨a, ha, hc⟩ := h.called t call hmem
    exact ⟨a, hjobs t a ha, hc⟩
  · obtain ⟨i, -, -, hcon⟩ := mem_droppedTickets.mp hmem
    cases hcon
  · obtain ⟨-, final, i, hw⟩ := mem_stepEvents_jobCalled hmem
    obtain ⟨hrep, rfl, hcomp, hctx⟩ := h.atCall final i call t hw
    obtain ⟨a, ha, hholds⟩ := h.record i (Slot.reporting_not_free hrep)
    exact ⟨a, hjobs _ a ha, hcomp.trans hholds.completion, hctx.trans hholds.context⟩

/-- A step away from the callbacks in which every slot keeps its job. -/
theorem kept (h : JobInv s) (hs : s.step l = some s')
    (hm : ∀ i, SlotKept (s.ctrl.slots i) (s'.ctrl.slots i)) (hk : JobsKept s s')
    (ho : OutsideCall s l s') : JobInv s' := by
  have hledger : s'.jobLedger = s.jobLedger := by
    funext i
    simp only [Sys.jobLedger, Sys.holds, hk.ticket, ho.clearing, ne_eq, (hm i).free_iff]
  -- a worker in or after a callback has not moved
  have hworker (hin : s'.worker.inCall = true) : s'.worker = s.worker := by
    rcases ho with ⟨-, hw⟩ | ⟨-, hin'⟩
    · exact hw
    · rw [hin'] at hin
      exact absurd hin (by decide)
  constructor
  · intro i hi
    obtain ⟨a, ha, hholds⟩ := h.record i fun hf => hi ((hm i).free_iff.mpr hf)
    rw [hk.jobs, hk.ticket]
    exact ⟨a, ha, (hm i).holds hholds⟩
  · intro t
    rw [jobCalls_step hs, ho.calls_zero, hledger, hk.jobs]
    exact h.balance t
  · exact h.called_step hs fun t a ha => by rwa [hk.jobs]
  · intro final i call t hw
    have hsame := hworker (by rw [hw]; rfl)
    obtain ⟨hrep, ht, hcomp, hctx⟩ := h.atCall final i call t (hsame ▸ hw)
    exact ⟨(hm i).reporting hrep, by rw [hk.ticket]; exact ht,
      hcomp.trans (hm i).completion.symm, hctx.trans (hm i).context.symm⟩
  · intro final i hw
    have hsame := hworker (by rw [hw]; rfl)
    exact (hm i).reporting (h.atClear final i (hsame ▸ hw))

variable {final : Bool}

/-- The callback of slot `i` is called: its ticket passes from the slot to the log. -/
theorem afterCall (h : JobInv s) (hs : s.step l = some s') {call : JobCall} {ticket : Nat}
    (hw : s.worker = .running final (.completeCall i call ticket)) (hctrl : s'.ctrl = s.ctrl)
    (hk : JobsKept s s') (hw' : s'.worker = .running final (.completeClear i))
    (hl : l.isWorker = true) : JobInv s' := by
  obtain ⟨hrep, hticket, -, -⟩ := h.atCall final i call ticket hw
  have hheld : (s.jobLedger i).1 = true := by
    simp [Sys.jobLedger, Sys.holds, hw, WorkerPc.clearing, Slot.reporting_not_free hrep]
  have hledger : s'.jobLedger = Function.update s.jobLedger i (false, s.slotTicket i) := by
    funext j
    by_cases hj : j = i
    · subst hj
      simp [Sys.jobLedger, Sys.holds, hw', WorkerPc.clearing, hk.ticket]
    · have hne : i ≠ j := fun h => hj h.symm
      simp [Sys.jobLedger, Sys.holds, hw, hw', WorkerPc.clearing, hk.ticket, hctrl, hj, hne]
  have hcalls (t : Nat) : (stepEvents s l).countP (Event.callsJob t) =
      if s.slotTicket i = t then 1 else 0 := by
    simp only [stepEvents, hl, if_true, hw, WorkerPc.events, hticket]
    split
    · rename_i ht
      simp [Event.callsJob, ht]
    · rename_i ht
      simp [Event.callsJob, ht]
  constructor
  · rw [hctrl, hk.jobs, hk.ticket]
    exact h.record
  · intro t
    have hdrop : Table.holders t s'.jobLedger + (if s.slotTicket i = t then 1 else 0) =
        Table.holders t s.jobLedger := by
      rw [hledger]
      exact Table.holders_drop hheld t _
    rw [jobCalls_step hs, hcalls, hk.jobs, ← h.balance t, ← hdrop]
    omega
  · exact h.called_step hs fun t a ha => by rwa [hk.jobs]
  · intro f j c t hcon
    rw [hw'] at hcon
    cases hcon
  · intro f j hj
    rw [hw'] at hj
    obtain ⟨-, rfl⟩ : final = f ∧ i = j := by simpa using hj
    rw [hctrl]
    exact hrep

/-- An accepted job gets the next ticket, and its slot holds it. -/
theorem accepted (h : JobInv s) (hs : s.step l = some s') {job : Job} {completion context : Ptr}
    {now : Int} (hl : l.isWorker = false)
    (ha : Accepted s.ctrl s'.ctrl job completion context now i)
    (hjobs : s'.jobs = s.jobs ++ [⟨job, completion, context⟩])
    (hticket : s'.slotTicket = Function.update s.slotTicket i s.jobs.length)
    (hw : s'.worker = s.worker) : JobInv s' := by
  obtain ⟨id, d, hslot, -⟩ := ha.slot
  have hfree := freeSlot_spec ha.free
  have hfree' : (s'.ctrl.slots i).state ≠ .free := by simp [hslot, acceptedSlot]
  -- a slot being reported is not the free one
  have hne {j : SlotIx} (hj : (s.ctrl.slots j).reporting = true) : j ≠ i := by
    rintro rfl
    exact Slot.reporting_not_free hj hfree
  have hclear : s.worker.clearing ≠ some i := by
    intro hcl
    unfold WorkerPc.clearing at hcl
    split at hcl
    · rename_i hwi
      exact hne (h.atClear _ _ hwi) (Option.some.inj hcl)
    · cases hcl
  have hkept {t : Nat} {a : AcceptedJob} (hget : s.jobs[t]? = some a) : s'.jobs[t]? = some a := by
    rw [hjobs, List.getElem?_append_left (List.getElem?_eq_some_iff.mp hget).1]
    exact hget
  have hledger : s'.jobLedger = Function.update s.jobLedger i (true, s.jobs.length) := by
    funext j
    by_cases hj : j = i
    · subst hj
      simp [Sys.jobLedger, Sys.holds, hfree', hw, hclear, hticket]
    · simp [Sys.jobLedger, Sys.holds, (ha.move hj).free_iff, hw, hticket, hj]
  constructor
  · intro j hj
    by_cases hji : j = i
    · subst hji
      refine ⟨⟨job, completion, context⟩, by simp [hticket, hjobs], ?_⟩
      rw [hslot]
      exact ⟨rfl, rfl, rfl⟩
    · obtain ⟨a, hget, hholds⟩ := h.record j fun hf => hj ((ha.move hji).free_iff.mpr hf)
      refine ⟨a, ?_, (ha.move hji).kept.holds hholds⟩
      rw [hticket, Function.update_of_ne hji]
      exact hkept hget
  · intro t
    have hheld : (s.jobLedger i).1 = false := by simp [Sys.jobLedger, Sys.holds, hfree]
    have hcalls : (stepEvents s l).countP (Event.callsJob t) = 0 :=
      stepEvents_calls_zero (fun _ _ _ _ _ => hl) t
    have hlen : s'.jobs.length = s.jobs.length + 1 := by simp [hjobs]
    have hbal := h.balance t
    rw [jobCalls_step hs, hcalls, hledger, Table.holders_take hheld, hlen]
    split at hbal <;> split <;> split <;> omega
  · exact h.called_step hs fun t a => hkept
  · intro f j c t hwj
    obtain ⟨hrep, ht, hcomp, hctx⟩ := h.atCall f j c t (hw ▸ hwj)
    have hm := (ha.move (hne hrep)).kept
    refine ⟨hm.reporting hrep, ?_, hcomp.trans hm.completion.symm, hctx.trans hm.context.symm⟩
    rw [hticket, Function.update_of_ne (hne hrep)]
    exact ht
  · intro f j hwj
    have hrep := h.atClear f j (hw ▸ hwj)
    exact (ha.move (hne hrep)).kept.reporting hrep

/-- A completed job is taken for reporting. -/
theorem reported (h : JobInv s) (hs : s.step l = some s') {call : JobCall}
    (hw : s.worker = .running final (.complete i))
    (hst : (s.ctrl.slots i).state = .completionPending)
    (hctrl :
      s'.ctrl = (releaseTransport s.ctrl i).setSlot i { s.ctrl.slots i with state := .completing })
    (hk : JobsKept s s')
    (hcall : call.completion = (s.ctrl.slots i).completion ∧
      call.context = (s.ctrl.slots i).context)
    (hw' : s'.worker = .running final (.completeCall i call (s.slotTicket i))) : JobInv s' := by
  have hm (j : SlotIx) : SlotKept (s.ctrl.slots j) (s'.ctrl.slots j) := by
    rw [hctrl, CtrlState.setSlot_slots, releaseTransport_slots]
    by_cases hj : j = i
    · subst hj
      constructor <;> simp [hst, Slot.reporting]
    · simpa [hj] using SlotMove.stay.kept
  have hself : s'.ctrl.slots i = { s.ctrl.slots i with state := .completing } := by
    simp [hctrl]
  have hledger : s'.jobLedger = s.jobLedger := by
    funext j
    simp [Sys.jobLedger, Sys.holds, hk.ticket, hw, hw', WorkerPc.clearing, (hm j).free_iff]
  have hcalls (t : Nat) : (stepEvents s l).countP (Event.callsJob t) = 0 := by
    refine stepEvents_calls_zero (fun f j c u hcon => ?_) t
    rw [hw] at hcon
    cases hcon
  constructor
  · intro j hj
    obtain ⟨a, ha, hholds⟩ := h.record j fun hf => hj ((hm j).free_iff.mpr hf)
    rw [hk.jobs, hk.ticket]
    exact ⟨a, ha, (hm j).holds hholds⟩
  · intro t
    rw [jobCalls_step hs, hcalls, hledger, hk.jobs]
    exact h.balance t
  · exact h.called_step hs fun t a ha => by rwa [hk.jobs]
  · intro f j c t hwj
    rw [hw'] at hwj
    obtain ⟨-, rfl, rfl, rfl⟩ : final = f ∧ i = j ∧ call = c ∧ s.slotTicket i = t := by
      simpa using hwj
    refine ⟨?_, by rw [hk.ticket], ?_, ?_⟩
    · rw [hself]
      rfl
    · rw [hself]
      exact hcall.1
    · rw [hself]
      exact hcall.2
  · intro f j hwj
    rw [hw'] at hwj
    cases hwj

/-- The slot of a reported job is given back. -/
theorem cleared (h : JobInv s) (hs : s.step l = some s')
    (hw : s.worker = .running final (.completeClear i)) (hctrl : s'.ctrl = clearSlot s.ctrl i)
    (hk : JobsKept s s') (hw' : s'.worker = .running final (afterComplete i)) : JobInv s' := by
  have hin : s'.worker.inCall = false := by
    rw [hw']
    exact afterComplete_inCall final i
  have hclear : s'.worker.clearing = none := by
    unfold WorkerPc.clearing
    split
    · rename_i hcon
      rw [hcon] at hin
      exact absurd hin (by simp [WorkerPc.inCall])
    · rfl
  have hself : (s'.ctrl.slots i).state = .free := by simp [hctrl, clearSlot]
  have hother {j : SlotIx} (hj : j ≠ i) : s'.ctrl.slots j = s.ctrl.slots j := by
    simp [hctrl, clearSlot, hj]
  have hledger : s'.jobLedger = s.jobLedger := by
    funext j
    by_cases hj : j = i
    · subst hj
      simp [Sys.jobLedger, Sys.holds, hself, hw, WorkerPc.clearing, hk.ticket]
    · have hne : i ≠ j := fun h => hj h.symm
      simp [Sys.jobLedger, Sys.holds, hother hj, hw, hclear, hk.ticket]
      simp [WorkerPc.clearing, hne]
  have hcalls (t : Nat) : (stepEvents s l).countP (Event.callsJob t) = 0 := by
    refine stepEvents_calls_zero (fun f j c u hcon => ?_) t
    rw [hw] at hcon
    cases hcon
  constructor
  · intro j hj
    have hji : j ≠ i := by
      rintro rfl
      exact hj hself
    rw [hother hji] at hj ⊢
    rw [hk.jobs, hk.ticket]
    exact h.record j hj
  · intro t
    rw [jobCalls_step hs, hcalls, hledger, hk.jobs]
    exact h.balance t
  · exact h.called_step hs fun t a ha => by rwa [hk.jobs]
  · intro f j c t hwj
    rw [hwj] at hin
    exact absurd hin (by simp [WorkerPc.inCall])
  · intro f j hwj
    rw [hwj] at hin
    exact absurd hin (by simp [WorkerPc.inCall])

theorem step (h : JobInv s) (hs : s.step l = some s') : JobInv s' := by
  cases step_slots hs with
  | quiet hq hk ho => exact h.kept hs (fun i => (hq.slots i).kept) hk ho
  | called hw hctrl hk hw' hl => exact h.afterCall hs hw hctrl hk hw' hl
  | completed hc hk ho => exact h.kept hs hc.kept hk ho
  | accepted hl _ ha hjobs hticket hw =>
      exact h.accepted hs (by rw [hl]; rfl) ha hjobs hticket hw
  | dispatched hw _ hsel hctrl hk hw' =>
      refine h.kept hs (fun i => ?_) hk (Or.inr ⟨by rw [hw]; rfl, by rw [hw']; rfl⟩)
      rw [hctrl]
      exact startDispatch_kept (selectSlotLocked_spec hsel).1 i
  | reported hw hst hctrl hk hcall hw' =>
      exact h.reported hs hw hst hctrl hk (by rw [hcall]; exact ⟨rfl, rfl⟩) hw'
  | cleared hw hctrl hk hw' => exact h.cleared hs hw hctrl hk hw'

theorem boot : JobInv boot where
  record := fun _ h => absurd rfl h
  balance t := by
    rw [Table.holders_eq_zero fun _ => rfl]
    rfl
  called := fun _ _ h => absurd h (by simp [Scheduler.boot])
  atCall := fun _ _ _ _ h => absurd h (by simp [Scheduler.boot])
  atClear := fun _ _ h => absurd h (by simp [Scheduler.boot])

end JobInv

theorem job_inv {s : Sys} (hs : machine.Reachable s) : JobInv s :=
  Machine.Reachable.invariant (fun _ h => h ▸ JobInv.boot) (fun _ _ _ h hst => h.step hst) hs

/-! ## Jobs in flight

A job in flight is with the command service, or the worker is handing it over. The context
the service holds is the slot's current one, so its completion reaches the job. -/

/-- A completion with the slot's context would reach its job. -/
structure Slot.Open (s : Slot) (i : SlotIx) : Prop where
  state : s.state = .inflight
  unwritten : s.completionWritten = false
  own : s.dcsContext = ⟨i, s.generation⟩

structure DispatchInv (s : Sys) : Prop where
  owed : ∀ i, (s.ctrl.slots i).state = .inflight → i ∈ s.dcs ∨ s.worker.submits = some i
  held : ∀ i, i ∈ s.dcs → (s.ctrl.slots i).Open i
  nodup : s.dcs.Nodup
  submitting : ∀ i, s.worker.submits = some i → (s.ctrl.slots i).Open i ∧ i ∉ s.dcs
  unwritten : ∀ i, (s.ctrl.slots i).waiting = true → (s.ctrl.slots i).completionWritten = false

/-- No result is written before the dispatch. -/
theorem unwritten_step {s s' : Sys} {l : Label} (h : s.step l = some s')
    (hinv : ∀ i, (s.ctrl.slots i).waiting = true → (s.ctrl.slots i).completionWritten = false)
    (i : SlotIx) (hi : (s'.ctrl.slots i).waiting = true) :
    (s'.ctrl.slots i).completionWritten = false := by
  have of_move (hm : SlotMove (s.ctrl.slots i) (s'.ctrl.slots i)) :
      (s'.ctrl.slots i).completionWritten = false := by
    have hold := hinv i (hm.waiting hi)
    generalize s'.ctrl.slots i = e at hm hi
    cases hm with
    | stay | queue => exact hold
    | finish t _ _ => simp [Slot.waiting, Slot.finish] at hi
    | expire _ => simp [Slot.waiting] at hi
  -- the other sections leave every slot but one alone, and that one does not wait
  have of_update {k : SlotIx} {e : Slot} (hslots : s'.ctrl.slots = Function.update s.ctrl.slots k e)
      (he : e.waiting = false) : (s'.ctrl.slots i).completionWritten = false := by
    by_cases hik : i = k
    · subst hik
      rw [hslots, Function.update_self, he] at hi
      exact absurd hi (by decide)
    · rw [hslots, Function.update_of_ne hik] at hi ⊢
      exact hinv i hi
  cases step_slots h with
  | quiet hq _ _ => exact of_move (hq.slots i)
  | called _ hctrl _ _ _ =>
      rw [hctrl] at hi ⊢
      exact hinv i hi
  | completed hc _ _ =>
      obtain ⟨r, hslots⟩ := hc.slots
      exact of_update hslots (by simp [Slot.complete, Slot.waiting])
  | @accepted _ _ _ _ k _ _ ha _ _ _ =>
      by_cases hik : i = k
      · subst hik
        obtain ⟨id, d, hslot, -⟩ := ha.slot
        rw [hslot]
        rfl
      · exact of_move (ha.move hik)
  | @dispatched _ _ k _ _ _ hctrl _ _ =>
      refine of_update (k := k) (e := { s.ctrl.slots k with
        state := .inflight, dcsContext := ⟨k, (s.ctrl.slots k).generation⟩ }) ?_ ?_
      · rw [hctrl]
        rfl
      · simp [Slot.waiting]
  | @reported _ k _ _ _ hctrl _ _ _ =>
      refine of_update (k := k) (e := { s.ctrl.slots k with state := .completing }) ?_ ?_
      · rw [hctrl, CtrlState.setSlot_slots, releaseTransport_slots]
      · simp [Slot.waiting]
  | @cleared _ k _ hctrl _ _ =>
      refine of_update (k := k) (e := { generation := (s.ctrl.slots k).generation }) ?_ ?_
      · rw [hctrl]
        rfl
      · simp [Slot.waiting]

namespace DispatchInv

variable {s s' : Sys} {l : Label}

theorem step (h : DispatchInv s) (hj : JobInv s) (hs : s.step l = some s') : DispatchInv s' := by
  have hunwritten := unwritten_step hs h.unwritten
  have hclear (final : Bool) (i : SlotIx) (hw : s.worker = .running final (.completeClear i)) :
      (s.ctrl.slots i).state ≠ .inflight := by
    intro hcon
    have hrep := hj.atClear final i hw
    simp [Slot.reporting, hcon] at hrep
  cases step_dcs hs hclear with
  | kept hdcs hw hin hin' =>
      refine ⟨fun i hi => ?_, fun i hi => ?_, hdcs ▸ h.nodup, fun i hi => ?_, hunwritten⟩
      · rw [hdcs, hw]
        exact h.owed i (hin' i hi)
      · have hopen := h.held i (hdcs ▸ hi)
        rw [hin i hopen.state]
        exact hopen
      · obtain ⟨hopen, hnot⟩ := h.submitting i (hw ▸ hi)
        rw [hin i hopen.state, hdcs]
        exact ⟨hopen, hnot⟩
  | @dispatched i hnone hq hctrl hdcs hw =>
      have hnot : i ∉ s.dcs := by
        intro hi
        exact absurd ((h.held i hi).state.symm.trans hq) (by decide)
      have hother {j : SlotIx} (hji : j ≠ i) : s'.ctrl.slots j = s.ctrl.slots j := by
        rw [hctrl]
        simp [startDispatch, hji]
      refine ⟨fun j hj' => ?_, fun j hj' => ?_, hdcs ▸ h.nodup, fun j hj' => ?_, hunwritten⟩
      · by_cases hji : j = i
        · exact Or.inr (by rw [hw, hji])
        · rw [hother hji] at hj'
          rw [hdcs]
          refine Or.inl ((h.owed j hj').resolve_right ?_)
          rw [hnone]
          simp
      · rw [hdcs] at hj'
        have hji : j ≠ i := by
          rintro rfl
          exact hnot hj'
        rw [hother hji]
        exact h.held j hj'
      · rw [hw] at hj'
        cases hj'
        rw [hdcs, hctrl]
        refine ⟨?_, hnot⟩
        have hun := h.unwritten i (by simp [Slot.waiting, hq])
        constructor <;> simp [startDispatch, hun]
  | @handed i hsub hslots hdcs hw =>
      obtain ⟨hopen, hnot⟩ := h.submitting i hsub
      refine ⟨fun j hj' => ?_, fun j hj' => ?_, ?_, fun j hj' => ?_, hunwritten⟩
      · rw [hslots] at hj'
        rw [hdcs, List.mem_cons]
        refine Or.inl ((h.owed j hj').elim Or.inr fun hji => Or.inl ?_)
        rw [hsub] at hji
        exact (Option.some.inj hji).symm
      · rw [hslots]
        rw [hdcs, List.mem_cons] at hj'
        rcases hj' with rfl | hj'
        · exact hopen
        · exact h.held j hj'
      · rw [hdcs]
        exact List.nodup_cons.mpr ⟨hnot, h.nodup⟩
      · rw [hw] at hj'
        cases hj'
  | @failed i err hsub hslots hdcs hw =>
      obtain ⟨hopen, hnot⟩ := h.submitting i hsub
      have hother {j : SlotIx} (hji : j ≠ i) : s'.ctrl.slots j = s.ctrl.slots j := by
        rw [hslots]
        simp [dispatchFailed, hopen.state, hji]
      have hself : (s'.ctrl.slots i).state = .completionPending := by
        rw [hslots]
        simp [dispatchFailed, hopen.state]
      refine ⟨fun j hj' => ?_, fun j hj' => ?_, hdcs ▸ h.nodup, fun j hj' => ?_, hunwritten⟩
      · have hji : j ≠ i := by
          rintro rfl
          exact absurd (hself.symm.trans hj') (by decide)
        rw [hother hji] at hj'
        rw [hdcs]
        refine Or.inl ((h.owed j hj').resolve_right fun hcon => ?_)
        rw [hsub] at hcon
        exact hji (Option.some.inj hcon).symm
      · rw [hdcs] at hj'
        have hji : j ≠ i := by
          rintro rfl
          exact hnot hj'
        rw [hother hji]
        exact h.held j hj'
      · rw [hw] at hj'
        cases hj'
  | rejected hsub hslots hdcs hw =>
      refine ⟨fun j hj' => ?_, fun j hj' => ?_, hdcs ▸ h.nodup, fun j hj' => ?_, hunwritten⟩
      · rw [hslots] at hj'
        rw [hdcs, hw, ← hsub]
        exact h.owed j hj'
      · rw [hslots]
        exact h.held j (hdcs ▸ hj')
      · rw [hw, ← hsub] at hj'
        rw [hslots, hdcs]
        exact h.submitting j hj'
  | @completed k result hk hctrl hdcs hw =>
      have hopen := h.held k hk
      rw [dcsComplete_eq hopen.state hopen.unwritten hopen.own] at hctrl
      have hother {j : SlotIx} (hjk : j ≠ k) : s'.ctrl.slots j = s.ctrl.slots j := by
        rw [hctrl]
        simp [hjk]
      have hself : (s'.ctrl.slots k).state = .completionPending := by
        rw [hctrl]
        simp [Slot.complete]
      refine ⟨fun j hj' => ?_, fun j hj' => ?_, hdcs ▸ h.nodup.erase k, fun j hj' => ?_,
        hunwritten⟩
      · have hjk : j ≠ k := by
          rintro rfl
          exact absurd (hself.symm.trans hj') (by decide)
        rw [hother hjk] at hj'
        rw [hdcs, hw]
        exact (h.owed j hj').imp_left (List.mem_erase_of_ne hjk).mpr
      · rw [hdcs, h.nodup.mem_erase_iff] at hj'
        rw [hother hj'.1]
        exact h.held j hj'.2
      · obtain ⟨hopenj, hnot⟩ := h.submitting j (hw ▸ hj')
        have hjk : j ≠ k := by
          rintro rfl
          exact hnot hk
        rw [hother hjk, hdcs]
        exact ⟨hopenj, fun hmem => hnot (List.mem_of_mem_erase hmem)⟩

theorem boot : DispatchInv boot where
  owed := fun _ h => absurd h (by simp [Scheduler.boot, init])
  held := fun _ h => absurd h (by simp [Scheduler.boot])
  nodup := List.nodup_nil
  submitting := fun _ h => absurd h (by simp [Scheduler.boot, WorkerPc.submits])
  unwritten := fun _ _ => rfl

end DispatchInv

theorem dispatch_inv {s : Sys} (hs : machine.Reachable s) : DispatchInv s := by
  have hboth : JobInv s ∧ DispatchInv s := by
    refine Machine.Reachable.invariant (I := fun s => JobInv s ∧ DispatchInv s) (fun s h => ?_)
      (fun _ _ _ h hst => ⟨h.1.step hst, h.2.step h.1 hst⟩) hs
    obtain rfl : s = boot := h
    exact ⟨JobInv.boot, DispatchInv.boot⟩
  exact hboth.2

/-! ## Leases -/

def Sys.leaseLedger (s : Sys) (i : DevIx) : Bool × Nat :=
  ((s.ctrl.leases i).waiting, s.leaseTicket i)

def Event.callsLease (t : Nat) : Event → Bool
  | .leaseCalled u _ => u = t
  | _ => false

/-- How often the callback of lease request `t` has been called. -/
def Sys.leaseCalls (s : Sys) (t : Nat) : Nat := s.log.countP (Event.callsLease t)

/-- The worker holds the ticket `t` and is about to call its callback. -/
def WorkerPc.carries (w : WorkerPc) (t : Nat) : Nat := if w.calling = some t then 1 else 0

/-- The entry holds the accepted request `a`. -/
structure Lease.Holds (l : Lease) (a : AcceptedLease) : Prop where
  completion : l.completion = a.completion
  context : l.context = a.context
  wanted : a.completion ≠ 0

structure LeaseLedgerInv (s : Sys) : Prop where
  record : ∀ i, (s.ctrl.leases i).waiting = true →
    ∃ a, s.leaseRequests[s.leaseTicket i]? = some a ∧ (s.ctrl.leases i).Holds a
  balance : ∀ t, s.leaseCalls t + s.worker.carries t + Table.holders t s.leaseLedger =
    if t < s.leaseRequests.length then 1 else 0
  called : ∀ t call, .leaseCalled t call ∈ s.log →
    ∃ a, s.leaseRequests[t]? = some a ∧ call.completion = a.completion ∧
      call.context = a.context
  atCall : ∀ final i call t, s.worker = .running final (.leaseCall i call t) →
    ∃ a, s.leaseRequests[t]? = some a ∧ call.completion = a.completion ∧
      call.context = a.context

theorem droppedTickets_leaseCalls (old new : CtrlState) (ticket : SlotIx → Nat) (t : Nat) :
    (droppedTickets old new ticket).countP (Event.callsLease t) = 0 := by
  refine List.countP_eq_zero.mpr fun e he => ?_
  obtain ⟨i, -, -, rfl⟩ := mem_droppedTickets.mp he
  simp [Event.callsLease]

theorem leaseCalls_step {s s' : Sys} {l : Label} (h : s.step l = some s') (t : Nat) :
    s'.leaseCalls t = s.leaseCalls t + (stepEvents s l).countP (Event.callsLease t) := by
  rw [Sys.leaseCalls, step_log h, List.countP_append, List.countP_append,
    droppedTickets_leaseCalls]
  rfl

/-- A lease callback is called by the worker only. -/
theorem mem_stepEvents_leaseCalled {s : Sys} {l : Label} {t : Nat} {call : LeaseCall}
    (h : .leaseCalled t call ∈ stepEvents s l) :
    l.isWorker = true ∧ ∃ final i, s.worker = .running final (.leaseCall i call t) := by
  unfold stepEvents at h
  split at h
  · rename_i hl
    refine ⟨hl, ?_⟩
    unfold WorkerPc.events at h
    split at h
    · rename_i hw
      obtain ⟨rfl, rfl⟩ : t = _ ∧ call = _ := by simpa using h
      exact ⟨_, _, hw⟩
    · simp at h
    · simp at h
    · simp at h
  · simp at h

theorem stepEvents_leaseCalls_zero {s : Sys} {l : Label}
    (h : s.worker.calling = none ∨ l.isWorker = false) (t : Nat) :
    (stepEvents s l).countP (Event.callsLease t) = 0 := by
  refine List.countP_eq_zero.mpr fun e he hc => ?_
  cases e with
  | leaseCalled u call =>
      obtain ⟨hl, final, i, hw⟩ := mem_stepEvents_leaseCalled he
      rcases h with h | h
      · rw [hw] at h
        exact absurd h (by simp [WorkerPc.calling])
      · rw [hl] at h
        exact absurd h (by decide)
  | _ => simp [Event.callsLease] at hc

theorem Lease.call_eq {l : Lease} {a : AcceptedLease} (h : l.Holds a) (status : EspErr) :
    l.call status = some ⟨l.completion, l.context, status, l.id⟩ := by
  simp [Lease.call, h.completion, h.wanted]

theorem LeaseMove.waiting {l l' : Lease} (h : LeaseMove l l') : l'.waiting = l.waiting := by
  cases h with
  | stay => rfl
  | cancel hf ha => cases hs : l.state <;> simp_all [Lease.waiting]
  | drop h => simp [Lease.waiting, h]

theorem LeaseMove.holds {l l' : Lease} (h : LeaseMove l l') {a : AcceptedLease}
    (hl : l.Holds a) : l'.Holds a := by
  cases h <;> exact ⟨hl.completion, hl.context, hl.wanted⟩

namespace LeaseLedgerInv

variable {s s' : Sys} {l : Label}

theorem called_step (h : LeaseLedgerInv s) (hs : s.step l = some s')
    (hkept : ∀ (t : Nat) (a : AcceptedLease), s.leaseRequests[t]? = some a →
      s'.leaseRequests[t]? = some a) (t : Nat) (call : LeaseCall)
    (hmem : .leaseCalled t call ∈ s'.log) :
    ∃ a, s'.leaseRequests[t]? = some a ∧ call.completion = a.completion ∧
      call.context = a.context := by
  have lift (hex : ∃ a, s.leaseRequests[t]? = some a ∧ call.completion = a.completion ∧
      call.context = a.context) : ∃ a, s'.leaseRequests[t]? = some a ∧
        call.completion = a.completion ∧ call.context = a.context := by
    obtain ⟨a, ha, hc⟩ := hex
    exact ⟨a, hkept t a ha, hc⟩
  rw [step_log hs, List.mem_append, List.mem_append] at hmem
  rcases hmem with (hmem | hmem) | hmem
  · exact lift (h.called t call hmem)
  · obtain ⟨i, -, -, hcon⟩ := mem_droppedTickets.mp hmem
    cases hcon
  · obtain ⟨-, final, i, hw⟩ := mem_stepEvents_leaseCalled hmem
    exact lift (h.atCall final i call t hw)

/-- A step away from the lease callbacks in which every waiting request keeps waiting. -/
theorem kept (h : LeaseLedgerInv s) (hs : s.step l = some s')
    (hwait : ∀ i, (s'.ctrl.leases i).waiting = (s.ctrl.leases i).waiting)
    (hholds : ∀ i a, (s.ctrl.leases i).Holds a → (s'.ctrl.leases i).Holds a)
    (hk : RequestsKept s s') (ho : OutsideLeaseCall s l s') : LeaseLedgerInv s' := by
  have hledger : s'.leaseLedger = s.leaseLedger := by
    funext i
    simp only [Sys.leaseLedger, hwait, hk.ticket]
  have hcalling : s'.worker.calling = s.worker.calling := by
    rcases ho with ⟨-, hw⟩ | ⟨hn, hn'⟩
    · rw [hw]
    · rw [hn, hn']
  constructor
  · intro i hi
    obtain ⟨a, ha, hh⟩ := h.record i (hwait i ▸ hi)
    rw [hk.requests, hk.ticket]
    exact ⟨a, ha, hholds i a hh⟩
  · intro t
    rw [leaseCalls_step hs, stepEvents_leaseCalls_zero (ho.elim (fun h => Or.inr h.1)
      fun h => Or.inl h.1), hledger, hk.requests, WorkerPc.carries, hcalling]
    exact h.balance t
  · exact h.called_step hs fun t a ha => by rwa [hk.requests]
  · intro final i call t hw
    rw [hk.requests]
    rcases ho with ⟨-, hsame⟩ | ⟨-, hn'⟩
    · exact h.atCall final i call t (hsame ▸ hw)
    · rw [hw] at hn'
      exact absurd hn' (by simp [WorkerPc.calling])

variable {final : Bool}

/-- The worker calls the callback it holds. -/
theorem afterCall (h : LeaseLedgerInv s) (hs : s.step l = some s') {i : DevIx} {call : LeaseCall}
    {ticket : Nat} (hw : s.worker = .running final (.leaseCall i call ticket))
    (hctrl : s'.ctrl = s.ctrl) (hk : RequestsKept s s')
    (hw' : s'.worker = .running final (afterLease i)) (hl : l.isWorker = true) :
    LeaseLedgerInv s' := by
  have hnone : s'.worker.calling = none := by
    rw [hw']
    exact afterLease_calling final i
  have hcalls (t : Nat) : (stepEvents s l).countP (Event.callsLease t) =
      s.worker.carries t := by
    simp only [stepEvents, hl, if_true, hw, WorkerPc.events, WorkerPc.carries,
      WorkerPc.calling, Option.some.injEq]
    split
    · rename_i ht
      simp [Event.callsLease, ht]
    · rename_i ht
      simp [Event.callsLease, ht]
  constructor
  · rw [hctrl, hk.requests, hk.ticket]
    exact h.record
  · intro t
    have hledger : s'.leaseLedger = s.leaseLedger := by
      funext j
      simp only [Sys.leaseLedger, hctrl, hk.ticket]
    have hzero : s'.worker.carries t = 0 := by simp [WorkerPc.carries, hnone]
    rw [leaseCalls_step hs, hcalls, hledger, hk.requests, ← h.balance t, hzero, Nat.add_zero]
  · exact h.called_step hs fun t a ha => by rwa [hk.requests]
  · intro f j c t hcon
    rw [hcon] at hnone
    exact absurd hnone (by simp [WorkerPc.calling])

/-- A granted or failed request passes from its entry to the worker. -/
theorem taken (h : LeaseLedgerInv s) (hs : s.step l = some s') {i : DevIx} {status : EspErr}
    {e : Lease} (hw : s.worker = .running final (.lease i))
    (hwait : (s.ctrl.leases i).waiting = true)
    (hleases : s'.ctrl.leases = Function.update s.ctrl.leases i e) (he : e.waiting = false)
    (hk : RequestsKept s s')
    (hw' : s'.worker =
      .running final (afterLeaseSection i ((s.ctrl.leases i).call status) (s.leaseTicket i))) :
    LeaseLedgerInv s' := by
  obtain ⟨a, ha, hholds⟩ := h.record i hwait
  rw [Lease.call_eq hholds] at hw'
  have hnone : s.worker.calling = none := by
    rw [hw]
    rfl
  have hledger : s'.leaseLedger = Function.update s.leaseLedger i (false, s.leaseTicket i) := by
    funext j
    by_cases hj : j = i
    · subst hj
      simp [Sys.leaseLedger, hleases, he, hk.ticket]
    · simp [Sys.leaseLedger, hleases, hk.ticket, hj]
  have hcarries (t : Nat) : s'.worker.carries t = if s.leaseTicket i = t then 1 else 0 := by
    simp [hw', afterLeaseSection, WorkerPc.carries, WorkerPc.calling]
  constructor
  · intro j hj
    by_cases hji : j = i
    · subst hji
      rw [hleases] at hj
      simp [he] at hj
    · rw [hleases, Function.update_of_ne hji] at hj ⊢
      rw [hk.requests, hk.ticket]
      exact h.record j hj
  · intro t
    have hdrop : Table.holders t s'.leaseLedger + (if s.leaseTicket i = t then 1 else 0) =
        Table.holders t s.leaseLedger := by
      rw [hledger]
      exact Table.holders_drop (l := s.leaseLedger) hwait t _
    have hbal := h.balance t
    rw [WorkerPc.carries, hnone] at hbal
    rw [leaseCalls_step hs, stepEvents_leaseCalls_zero (Or.inl hnone), hcarries, hk.requests,
      ← hbal, ← hdrop]
    simp
    omega
  · exact h.called_step hs fun t a ha => by rwa [hk.requests]
  · intro f j c t hwj
    rw [hw'] at hwj
    simp only [afterLeaseSection, WorkerPc.running.injEq, ProcPc.leaseCall.injEq] at hwj
    obtain ⟨-, -, rfl, rfl⟩ := hwj
    rw [hk.requests]
    exact ⟨a, ha, hholds.completion, hholds.context⟩

/-- An accepted request gets the next ticket, and its entry holds it. -/
theorem accepted (h : LeaseLedgerInv s) (hs : s.step l = some s') {q : LeaseRequest}
    {completion context : Ptr} {i : DevIx} (hl : l.isWorker = false)
    (ha : LeaseAccepted s.ctrl s'.ctrl q completion context i)
    (hrequests : s'.leaseRequests = s.leaseRequests ++ [⟨q, completion, context⟩])
    (hticket : s'.leaseTicket = Function.update s.leaseTicket i s.leaseRequests.length)
    (hw : s'.worker = s.worker) : LeaseLedgerInv s' := by
  obtain ⟨id, d, -, hleases⟩ := ha.entry
  have hfree := freeLease_spec ha.free
  have hkept {t : Nat} {a : AcceptedLease} (hget : s.leaseRequests[t]? = some a) :
      s'.leaseRequests[t]? = some a := by
    rw [hrequests, List.getElem?_append_left (List.getElem?_eq_some_iff.mp hget).1]
    exact hget
  have hledger : s'.leaseLedger =
      Function.update s.leaseLedger i (true, s.leaseRequests.length) := by
    funext j
    by_cases hj : j = i
    · subst hj
      simp [Sys.leaseLedger, hleases, hticket, acceptedLease, Lease.waiting]
    · simp [Sys.leaseLedger, hleases, hticket, hj]
  constructor
  · intro j hj
    by_cases hji : j = i
    · subst hji
      refine ⟨⟨q, completion, context⟩, by simp [hticket, hrequests], ?_⟩
      rw [hleases, Function.update_self]
      exact ⟨rfl, rfl, ha.wanted⟩
    · rw [hleases, Function.update_of_ne hji] at hj ⊢
      obtain ⟨a, hget, hholds⟩ := h.record j hj
      refine ⟨a, ?_, hholds⟩
      rw [hticket, Function.update_of_ne hji]
      exact hkept hget
  · intro t
    have hheld : (s.leaseLedger i).1 = false := by simp [Sys.leaseLedger, Lease.waiting, hfree]
    have hlen : s'.leaseRequests.length = s.leaseRequests.length + 1 := by simp [hrequests]
    have hbal := h.balance t
    rw [leaseCalls_step hs, stepEvents_leaseCalls_zero (Or.inr hl), hledger,
      Table.holders_take hheld, hlen, hw]
    split at hbal <;> split <;> split <;> omega
  · exact h.called_step hs fun t a => hkept
  · intro f j c t hwj
    obtain ⟨a, hget, hc⟩ := h.atCall f j c t (hw ▸ hwj)
    exact ⟨a, hkept hget, hc⟩

theorem step (h : LeaseLedgerInv s) (hs : s.step l = some s') : LeaseLedgerInv s' := by
  cases step_leases hs with
  | kept hk hr ho =>
      exact h.kept hs (fun i => by rw [hk.leases]) (fun i a => by rw [hk.leases]; exact id) hr ho
  | called hw hctrl hk hw' hl => exact h.afterCall hs hw hctrl hk hw' hl
  | cancelled hc hk hw hl =>
      exact h.kept hs (fun i => (hc.leases i).waiting) (fun i _ => (hc.leases i).holds) hk
        (Or.inl ⟨hl, hw⟩)
  | @dropped i hi hctrl hk hw hl =>
      have hm (j : DevIx) : LeaseMove (s.ctrl.leases j) (s'.ctrl.leases j) := by
        rw [hctrl]
        by_cases hj : j = i
        · subst hj
          simpa [dropLease] using LeaseMove.drop hi
        · simpa [dropLease, hj] using LeaseMove.stay
      exact h.kept hs (fun i => (hm i).waiting) (fun i _ => (hm i).holds) hk (Or.inl ⟨hl, hw⟩)
  | accepted hl ha hrequests hticket hw =>
      exact h.accepted hs (by rw [hl]; rfl) ha hrequests hticket hw
  | granted hw hp _ hctrl hk hw' =>
      refine h.taken hs hw (by simp [Lease.waiting, hp]) (by rw [hctrl]; rfl) ?_ hk hw'
      simp [Lease.waiting]
  | reset hw hp hctrl hk hw' =>
      refine h.taken hs hw (by simp [Lease.waiting, hp]) (by rw [hctrl]; rfl) ?_ hk hw'
      simp [Lease.waiting]

theorem boot : LeaseLedgerInv boot where
  record := fun _ h => absurd h (by simp [Scheduler.boot, init, Lease.waiting])
  balance t := by
    rw [Table.holders_eq_zero fun _ => rfl]
    rfl
  called := fun _ _ h => absurd h (by simp [Scheduler.boot])
  atCall := fun _ _ _ _ h => absurd h (by simp [Scheduler.boot])

end LeaseLedgerInv

theorem lease_ledger_inv {s : Sys} (hs : machine.Reachable s) : LeaseLedgerInv s :=
  Machine.Reachable.invariant (fun _ h => h ▸ LeaseLedgerInv.boot)
    (fun _ _ _ h hst => h.step hst) hs

end BleGateway.Scheduler
