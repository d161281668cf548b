import BleGateway.Scheduler.Ledger
import BleGateway.Scheduler.WorkConservation

/-! # Exactly-once completion

No callback is called twice or for a request that was refused, and a callback that has not
been called is still owed by a slot, a lease entry or the worker. What is owed when the worker
task ends is never called. That is nothing exactly when the last pass finds every job
completed and can answer every lease request.
-/

namespace BleGateway.Scheduler

/-! ## The last pass -/

/-- The last pass has gone past slot `i`. -/
def WorkerPc.sweptSlot (i : SlotIx) : WorkerPc → Prop
  | .running true (.complete j) => i < j
  | .running true (.completeCall j _ _) => i < j
  | .running true (.completeClear j) => i < j
  | .running true (.dispatch _) => True
  | .running true (.submitting _ _) => True
  | .running true (.rejected _ _ _) => True
  | .exited => True
  | _ => False

/-- The last pass has gone past lease entry `i`. -/
def WorkerPc.sweptLease (i : DevIx) : WorkerPc → Prop
  | .running true (.lease j) => i < j
  | .running true (.leaseCall j _ _) => i ≤ j
  | .running true (.complete _) => True
  | .running true (.completeCall _ _ _) => True
  | .running true (.completeClear _) => True
  | .running true (.dispatch _) => True
  | .running true (.submitting _ _) => True
  | .running true (.rejected _ _ _) => True
  | .exited => True
  | _ => False

/-- The worker has left its loop. -/
def WorkerPc.leaving : WorkerPc → Prop
  | .running true _ => True
  | .exited => True
  | _ => False

/-- The condition on a step: in the last pass the worker does not go past a slot whose job is
still queued or in flight, nor past a lease request that it cannot grant. -/
def SweepsClean (s : Sys) (l : Label) : Prop :=
  l.isWorker = true →
    (∀ i, s.worker = .running true (.complete i) →
      (s.ctrl.slots i).waiting = false ∧ (s.ctrl.slots i).state ≠ .inflight) ∧
    (∀ i, s.worker = .running true (.lease i) → (s.ctrl.leases i).state = .pending →
      (s.ctrl.devices (s.ctrl.leases i).deviceIndex).leasable = true)

instance (s : Sys) (l : Label) : Decidable (SweepsClean s l) :=
  inferInstanceAs (Decidable (_ → _))

theorem nextFin_lt {n : Nat} {i j k : Fin n} (h : nextFin i = some k) (hj : j < k) : j ≤ i := by
  unfold nextFin at h
  split at h
  · cases h
    exact Fin.le_def.mpr (Nat.lt_succ_iff.mp (Fin.lt_def.mp hj))
  · cases h

theorem nextFin_none {n : Nat} {i : Fin n} (h : nextFin i = none) (j : Fin n) : j ≤ i := by
  unfold nextFin at h
  split at h
  · cases h
  · rw [Fin.le_def]
    omega

variable {i : SlotIx} {w : WorkerPc}

theorem sweptSlot_afterComplete {j : SlotIx}
    (h : (WorkerPc.running true (afterComplete i)).sweptSlot j) : j ≤ i := by
  unfold afterComplete at h
  split at h
  · rename_i k hk
    exact nextFin_lt hk h
  · rename_i hk
    exact nextFin_none hk j

theorem sweptLease_afterLease {i j : DevIx}
    (h : (WorkerPc.running true (afterLease i)).sweptLease j) : j ≤ i := by
  unfold afterLease at h
  split at h
  · rename_i k hk
    exact nextFin_lt hk h
  · rename_i hk
    exact nextFin_none hk j

theorem sweptLease_afterLeaseSection {i j : DevIx} {call : Option LeaseCall} {t : Nat}
    (h : (WorkerPc.running true (afterLeaseSection i call t)).sweptLease j) : j ≤ i := by
  unfold afterLeaseSection at h
  split at h
  · exact h
  · exact sweptLease_afterLease h

theorem not_sweptSlot_afterLease (i : DevIx) (j : SlotIx) :
    ¬(WorkerPc.running true (afterLease i)).sweptSlot j := by
  unfold afterLease
  split
  · exact id
  · intro h
    exact absurd (Fin.lt_def.mp h) (Nat.not_lt_zero _)

theorem not_sweptSlot_afterLeaseSection (i : DevIx) (call : Option LeaseCall) (t : Nat)
    (j : SlotIx) : ¬(WorkerPc.running true (afterLeaseSection i call t)).sweptSlot j := by
  unfold afterLeaseSection
  split
  · exact id
  · exact not_sweptSlot_afterLease i j

theorem not_sweptSlot_promote (final : Bool) (i : SlotIx) :
    ¬(WorkerPc.running final .promote).sweptSlot i := by
  cases final <;> exact id

theorem not_sweptLease_promote (final : Bool) (i : DevIx) :
    ¬(WorkerPc.running final .promote).sweptLease i := by
  cases final <;> exact id

/-! ## Once stopped, nothing new is accepted -/

theorem step_running {s s' : Sys} {l : Label} (h : s.step l = some s')
    (hrun : s'.ctrl.running = true) : s.ctrl.running = true := by
  cases step_slots h with
  | quiet hq _ _ => exact hq.running hrun
  | called _ hctrl | dispatched _ _ _ hctrl | cleared _ hctrl => rwa [hctrl] at hrun
  | completed hc _ _ => rwa [hc.running] at hrun
  | accepted _ _ ha _ _ _ => exact ha.running
  | @reported _ i _ _ _ hctrl _ _ _ =>
      rw [hctrl] at hrun
      unfold releaseTransport at hrun
      dsimp only at hrun
      split at hrun <;> exact hrun

theorem step_free {s s' : Sys} {l : Label} (h : s.step l = some s') (hstop : s.ctrl.running = false)
    (hi : (s.ctrl.slots i).state = .free) :
    (s'.ctrl.slots i).state = .free := by
  cases step_slots h with
  | quiet hq _ _ => exact (hq.slots i).free_iff.mpr hi
  | called _ hctrl _ _ _ => rwa [hctrl]
  | completed hc _ _ => exact (hc.kept i).free_iff.mpr hi
  | accepted _ _ ha _ _ _ => exact absurd ha.running (by simp [hstop])
  | dispatched _ _ hsel hctrl _ _ =>
      rw [hctrl]
      exact (startDispatch_kept (selectSlotLocked_spec hsel).1 i).free_iff.mpr hi
  | @reported _ k _ _ hst hctrl _ _ _ =>
      rw [hctrl, CtrlState.setSlot_slots, releaseTransport_slots]
      by_cases hik : i = k
      · subst hik
        exact absurd (hst.symm.trans hi) (by decide)
      · simpa [hik] using hi
  | @cleared _ k _ hctrl _ _ =>
      rw [hctrl]
      by_cases hik : i = k
      · subst hik
        simp [clearSlot]
      · simpa [clearSlot, hik] using hi

theorem step_not_waiting {s s' : Sys} {l : Label} (h : s.step l = some s')
    (hstop : s.ctrl.running = false) {i : DevIx} (hi : (s.ctrl.leases i).waiting = false) :
    (s'.ctrl.leases i).waiting = false := by
  cases step_leases h with
  | kept hk _ _ => rwa [hk.leases]
  | called _ hctrl _ _ _ => rwa [hctrl]
  | cancelled hc _ _ _ => rwa [(hc.leases i).waiting]
  | @dropped k hk hctrl _ _ _ =>
      rw [hctrl]
      by_cases hik : i = k
      · subst hik
        simp [dropLease, Lease.waiting]
      · simpa [dropLease, hik] using hi
  | accepted _ ha _ _ _ => exact absurd ha.running (by simp [hstop])
  | @granted _ k _ hp _ hctrl _ _ =>
      rw [hctrl]
      by_cases hik : i = k
      · subst hik
        simp [grantLease, Lease.waiting]
      · simpa [grantLease, hik] using hi
  | @reset _ k _ _ hctrl _ _ =>
      rw [hctrl]
      by_cases hik : i = k
      · subst hik
        simp [Lease.waiting]
      · simpa [hik] using hi

/-! ## The invariant of the last pass -/

/-- The slot whose completion the worker is calling or has called. -/
def WorkerPc.callSlot : WorkerPc → Option SlotIx
  | .running _ (.completeCall i _ _) => some i
  | .running _ (.completeClear i) => some i
  | _ => none

theorem WorkerPc.callSlot_of_not_inCall (h : w.inCall = false) :
    w.callSlot = none := by
  unfold WorkerPc.callSlot
  split
  · exact absurd h (by simp [WorkerPc.inCall])
  · exact absurd h (by simp [WorkerPc.inCall])
  · rfl

/-- What the last pass has gone past is empty and stays so. -/
structure SweepInv (s : Sys) : Prop where
  stopped : s.worker.leaving → s.ctrl.running = false
  completing : ∀ i, (s.ctrl.slots i).state = .completing → s.worker.callSlot = some i
  slots : ∀ i, s.worker.sweptSlot i → (s.ctrl.slots i).state = .free
  leases : ∀ i, s.worker.sweptLease i → (s.ctrl.leases i).waiting = false

theorem completing_of_quiet {s s' : Sys} {l : Label}
    (hinv : ∀ i, (s.ctrl.slots i).state = .completing → s.worker.callSlot = some i)
    (ho : OutsideCall s l s') (hi : (s.ctrl.slots i).state = .completing) :
    s'.worker.callSlot = some i := by
  rcases ho with ⟨-, hw⟩ | ⟨hin, -⟩
  · rw [hw]
    exact hinv i hi
  · have hcall := hinv i hi
    rw [WorkerPc.callSlot_of_not_inCall hin] at hcall
    cases hcall

/-- A slot is `COMPLETING` only around its own callback. -/
theorem completing_step {s s' : Sys} {l : Label} (h : s.step l = some s')
    (hinv : ∀ i, (s.ctrl.slots i).state = .completing → s.worker.callSlot = some i) (i : SlotIx)
    (hi : (s'.ctrl.slots i).state = .completing) : s'.worker.callSlot = some i := by
  cases step_slots h with
  | quiet hq _ ho =>
      rw [(hq.slots i).completing hi] at hi
      exact completing_of_quiet hinv ho hi
  | @completed k hc _ ho =>
      obtain ⟨r, hslots⟩ := hc.slots
      rw [hslots] at hi
      by_cases hik : i = k
      · subst hik
        simp [Slot.complete] at hi
      · exact completing_of_quiet hinv ho (by simpa [hik] using hi)
  | called hw hctrl _ hw' _ =>
      rw [hctrl] at hi
      have hcall := hinv i hi
      rw [hw] at hcall
      rw [hw']
      exact hcall
  | @accepted _ _ _ _ k _ _ ha _ _ hw =>
      rw [hw]
      by_cases hik : i = k
      · subst hik
        obtain ⟨id, d, hslot, -⟩ := ha.slot
        rw [hslot] at hi
        simp [acceptedSlot] at hi
      · rw [(ha.move hik).completing hi] at hi
        exact hinv i hi
  | @dispatched _ _ k hw _ _ hctrl _ _ =>
      rw [hctrl] at hi
      by_cases hik : i = k
      · subst hik
        simp [startDispatch] at hi
      · have hcall := hinv i (by simpa [startDispatch, hik] using hi)
        rw [hw] at hcall
        exact absurd hcall (by simp [WorkerPc.callSlot])
  | @reported _ k _ hw _ hctrl _ _ hw' =>
      rw [hctrl, CtrlState.setSlot_slots, releaseTransport_slots] at hi
      by_cases hik : i = k
      · subst hik
        rw [hw']
        rfl
      · have hcall := hinv i (by simpa [hik] using hi)
        rw [hw] at hcall
        exact absurd hcall (by simp [WorkerPc.callSlot])
  | @cleared _ k hw hctrl _ _ =>
      rw [hctrl] at hi
      by_cases hik : i = k
      · subst hik
        simp [clearSlot] at hi
      · have hcall := hinv i (by simpa [clearSlot, hik] using hi)
        rw [hw] at hcall
        simp only [WorkerPc.callSlot, Option.some.injEq] at hcall
        exact absurd hcall.symm hik

namespace SweepInv

variable {s s' : Sys} {l : Label}

/-- What has been gone past before the step stays empty. -/
theorem keep_slot (h : SweepInv s) (hs : s.step l = some s') (hleaving : s.worker.leaving)
    (hi : (s.ctrl.slots i).state = .free) : (s'.ctrl.slots i).state = .free :=
  step_free hs (h.stopped hleaving) hi

theorem keep_lease (h : SweepInv s) (hs : s.step l = some s') (hleaving : s.worker.leaving)
    {i : DevIx} (hi : (s.ctrl.leases i).waiting = false) :
    (s'.ctrl.leases i).waiting = false :=
  step_not_waiting hs (h.stopped hleaving) hi

theorem leaving_of_sweptSlot (h : w.sweptSlot i) : w.leaving := by
  unfold WorkerPc.sweptSlot at h
  split at h <;> trivial

theorem leaving_of_sweptLease {i : DevIx} (h : w.sweptLease i) : w.leaving := by
  unfold WorkerPc.sweptLease at h
  split at h <;> trivial

/-- A step that leaves the worker where it is. -/
theorem of_worker_eq (h : SweepInv s) (hs : s.step l = some s') (hw : s'.worker = s.worker) :
    SweepInv s' where
  stopped hl := by
    by_contra hrun
    rw [hw] at hl
    have := step_running hs (by simpa using hrun)
    rw [h.stopped hl] at this
    exact absurd this (by decide)
  completing := completing_step hs h.completing
  slots i hi := by
    rw [hw] at hi
    exact h.keep_slot hs (leaving_of_sweptSlot hi) (h.slots i hi)
  leases i hi := by
    rw [hw] at hi
    exact h.keep_lease hs (leaving_of_sweptLease hi) (h.leases i hi)

end SweepInv

/-! ### The worker's own steps -/

section
variable {s : Sys} {pc : ProcPc} {now : Int} {answer : EspErr}

theorem afterDispatch_not_leaving (s : Sys) (n : Fin DEVICE_CTRL_MAX_INFLIGHT) :
    ¬(s.afterDispatch false n).worker.leaving := by
  unfold Sys.afterDispatch
  split
  · exact id
  · exact id

/-- A pass of the loop does not turn into the last one. -/
theorem procStep_not_leaving : ¬(s.procStep false pc now answer).worker.leaving := by
  cases pc with
  | dispatch n =>
      simp only [Sys.procStep]
      split
      · exact id
      · exact afterDispatch_not_leaving _ _
  | submitting n i =>
      simp only [Sys.procStep]
      split
      · exact afterDispatch_not_leaving _ _
      · exact id
  | rejected n i err => exact afterDispatch_not_leaving _ _
  | _ => exact id

/-- How the last pass comes to be past a slot. -/
theorem procStep_sweptSlot (h : (s.procStep true pc now answer).worker.sweptSlot i) :
    (WorkerPc.running true pc).sweptSlot i ∨
      (pc = .complete i ∧ (s.ctrl.slots i).state ≠ .completionPending) ∨
      pc = .completeClear i := by
  cases pc with
  | promote => exact h.elim
  | lease j => exact absurd h (not_sweptSlot_afterLeaseSection _ _ _ _)
  | leaseCall j call t => exact absurd h (not_sweptSlot_afterLease _ _)
  | complete j =>
      rcases completeSlot_cases s.ctrl j with ⟨hs, hc⟩ | ⟨-, hc⟩
      · simp only [Sys.procStep, hc] at h
        rcases (sweptSlot_afterComplete h).lt_or_eq with hlt | rfl
        · exact Or.inl hlt
        · exact Or.inr (Or.inl ⟨rfl, hs⟩)
      · simp only [Sys.procStep, hc] at h
        exact Or.inl h
  | completeCall j call t => exact Or.inl h
  | completeClear j =>
      rcases (sweptSlot_afterComplete h).lt_or_eq with hlt | rfl
      · exact Or.inl hlt
      · exact Or.inr (Or.inr rfl)
  | dispatch | submitting | rejected => exact Or.inl trivial

/-- How the last pass comes to be past a lease entry. -/
theorem procStep_sweptLease {i : DevIx}
    (h : (s.procStep true pc now answer).worker.sweptLease i) :
    (WorkerPc.running true pc).sweptLease i ∨ pc = .lease i := by
  cases pc with
  | promote => exact absurd (Fin.lt_def.mp h) (Nat.not_lt_zero _)
  | lease j =>
      rcases (sweptLease_afterLeaseSection h).lt_or_eq with hlt | rfl
      · exact Or.inl hlt
      · exact Or.inr rfl
  | leaseCall j call t => exact Or.inl (sweptLease_afterLease h)
  | _ => exact Or.inl trivial

/-- In a clean last pass the section of a lease entry leaves nothing waiting there. -/
theorem procStep_lease_answered {final : Bool} {i : DevIx}
    (h : (s.ctrl.leases i).state = .pending →
      (s.ctrl.devices (s.ctrl.leases i).deviceIndex).leasable = true) :
    ((s.procStep final (.lease i) now answer).ctrl.leases i).waiting = false := by
  show ((processLease s.ctrl i).1.leases i).waiting = false
  rcases processLease_cases s.ctrl i with ⟨-, hp⟩ | ⟨-, -, hp⟩ | ⟨hs, hno, hp⟩
  · simp [hp, Lease.waiting]
  · simp [hp, grantLease, Lease.waiting]
  · have hpend : (s.ctrl.leases i).state ≠ .pending := by
      intro hcon
      rw [h hcon] at hno
      exact absurd (hno hcon) (by decide)
    simp [hp, Lease.waiting, hs, hpend]

end

namespace SweepInv

variable {s s' : Sys} {l : Label}

theorem last_pass (h : SweepInv s) {pc : ProcPc} {now : Int} {answer : EspErr}
    (hs : s.step (.worker now answer) = some (s.procStep true pc now answer))
    (hok : SweepsClean s (.worker now answer)) (hw : s.worker = .running true pc) :
    SweepInv (s.procStep true pc now answer) where
  stopped _ := by
    by_contra hrun
    have hstop := h.stopped (by rw [hw]; trivial)
    rw [step_running hs (by simpa using hrun)] at hstop
    exact absurd hstop (by decide)
  completing := completing_step hs h.completing
  slots i hi := by
    have hleaving : s.worker.leaving := by rw [hw]; trivial
    rcases procStep_sweptSlot hi with hold | ⟨rfl, hne⟩ | rfl
    · rw [← hw] at hold
      exact h.keep_slot hs hleaving (h.slots i hold)
    · obtain ⟨hwait, hin⟩ := (hok rfl).1 i hw
      refine h.keep_slot hs hleaving ?_
      have hcomp : (s.ctrl.slots i).state ≠ .completing := by
        intro hcon
        have hcall := h.completing i hcon
        rw [hw] at hcall
        exact absurd hcall (by simp [WorkerPc.callSlot])
      cases hst : (s.ctrl.slots i).state with
      | free => rfl
      | enqueuePending | queued => simp [Slot.waiting, hst] at hwait
      | inflight => exact absurd hst hin
      | completionPending => exact absurd hst hne
      | completing => exact absurd hst hcomp
    · simp [Sys.procStep, Sys.setCtrl, clearSlot]
  leases i hi := by
    rcases procStep_sweptLease hi with hold | rfl
    · rw [← hw] at hold
      exact h.keep_lease hs (by rw [hw]; trivial) (h.leases i hold)
    · exact procStep_lease_answered ((hok rfl).2 i hw)

theorem step (h : SweepInv s) (hok : SweepsClean s l) (hs : s.step l = some s') :
    SweepInv s' := by
  cases hl : l.isWorker with
  | false => exact h.of_worker_eq hs (step_worker_eq hs hl)
  | true =>
      cases l with
      | worker now answer =>
          rcases step_worker hs with ⟨-, rfl⟩ | ⟨final, pc, hw, rfl⟩
          · refine ⟨fun hl => ?_, completing_step hs h.completing,
              fun i hi => absurd hi (not_sweptSlot_promote _ i),
              fun i hi => absurd hi (not_sweptLease_promote _ i)⟩
            cases hrun : s.ctrl.running with
            | false => rfl
            | true =>
                rw [hrun] at hl
                exact hl.elim
          · cases final with
            | true => exact h.last_pass hs hok hw
            | false =>
                exact ⟨fun hl => absurd hl procStep_not_leaving, completing_step hs h.completing,
                  fun i hi => absurd (leaving_of_sweptSlot hi) procStep_not_leaving,
                  fun i hi => absurd (leaving_of_sweptLease hi) procStep_not_leaving⟩
      | _ => exact absurd hl (by simp [Label.isWorker])

theorem boot : SweepInv boot where
  stopped := False.elim
  completing := fun _ h => absurd h (by simp [Scheduler.boot, init])
  slots := fun _ h => h.elim
  leases := fun _ h => h.elim

end SweepInv

/-- The tables after a last pass that was clean all the way. -/
theorem SweepInv.exited {s : Sys} (h : SweepInv s) (hw : s.worker = .exited) :
    (∀ i, (s.ctrl.slots i).state = .free) ∧ ∀ i, (s.ctrl.leases i).waiting = false :=
  ⟨fun i => h.slots i (by rw [hw]; trivial), fun i => h.leases i (by rw [hw]; trivial)⟩

theorem sweep_inv {s : Sys} (hs : machine.ReachableWhen SweepsClean s) : SweepInv s :=
  hs.invariant (fun _ h => h ▸ SweepInv.boot) fun _ _ _ h hok hst => h.step hok hst

/-! ## Completion -/

/-- Every accepted request is accounted for, and every callback belongs to one. -/
structure Accounted (s : Sys) : Prop where
  job_once : ∀ t, s.jobCalls t ≤ 1
  /-- A job callback is the one its submit passed, with its context. -/
  job_own : ∀ t call, .jobCalled t call ∈ s.log →
    ∃ a, s.jobs[t]? = some a ∧ call.completion = a.completion ∧ call.context = a.context
  /-- A job without its callback is held, unchanged, by one slot. -/
  job_owed : ∀ t a, s.jobs[t]? = some a → s.jobCalls t = 0 →
    ∃! i, s.holds i = true ∧ s.slotTicket i = t ∧ (s.ctrl.slots i).Holds a
  /-- A job in flight awaits a completion that will reach it, or is being handed over. -/
  job_awaited : ∀ i, (s.ctrl.slots i).state = .inflight →
    (i ∈ s.dcs ∧ ∀ result, ((dcsComplete s.ctrl i result).slots i).state = .completionPending) ∨
      s.worker.submits = some i
  lease_once : ∀ t, s.leaseCalls t ≤ 1
  lease_own : ∀ t call, .leaseCalled t call ∈ s.log →
    ∃ a, s.leaseRequests[t]? = some a ∧ call.completion = a.completion ∧
      call.context = a.context
  /-- A lease request without its callback waits in an entry, or the worker is about to call
  it. -/
  lease_owed : ∀ t, t < s.leaseRequests.length → s.leaseCalls t = 0 →
    (∃ i, (s.ctrl.leases i).waiting = true ∧ s.leaseTicket i = t) ∨ s.worker.calling = some t

/-- Every accepted request has had its callback, once. -/
def AllCalled (s : Sys) : Prop :=
  (∀ t, t < s.jobs.length → s.jobCalls t = 1) ∧
    ∀ t, t < s.leaseRequests.length → s.leaseCalls t = 1

theorem JobInv.unique {s : Sys} (h : JobInv s) {j : SlotIx} (hi : s.holds i = true)
    (hj : s.holds j = true) (ht : s.slotTicket i = s.slotTicket j) : i = j := by
  have hle : Table.holders (s.slotTicket j) s.jobLedger ≤ 1 := by
    have hbal := h.balance (s.slotTicket j)
    split at hbal <;> omega
  exact Table.unique_of_count_le_one hle (by simp [Table.owes, Sys.jobLedger, hi, ht])
    (by simp [Table.owes, Sys.jobLedger, hj])

theorem accounted {s : Sys} (hj : JobInv s) (hd : DispatchInv s) (hl : LeaseLedgerInv s) :
    Accounted s where
  job_once t := by
    have hbal := hj.balance t
    split at hbal <;> omega
  job_own := hj.called
  job_owed t a hget h0 := by
    have hlt : t < s.jobs.length := (List.getElem?_eq_some_iff.mp hget).1
    have hbal := hj.balance t
    rw [if_pos hlt, h0] at hbal
    obtain ⟨i, hi, rfl⟩ := Table.exists_of_holders_pos (t := t) (l := s.jobLedger) (by omega)
    replace hi : s.holds i = true := hi
    have hfree : (s.ctrl.slots i).state ≠ .free := by
      simp only [Sys.holds, Bool.and_eq_true, decide_eq_true_eq] at hi
      exact hi.1
    obtain ⟨b, hb, hholds⟩ := hj.record i hfree
    obtain rfl : b = a := Option.some.inj (hb.symm.trans hget)
    refine ⟨i, ⟨hi, rfl, hholds⟩, fun k hk => hj.unique hk.1 hi hk.2.1⟩
  job_awaited i hi := by
    refine (hd.owed i hi).imp_left fun hmem => ⟨hmem, fun result => ?_⟩
    have hopen := hd.held i hmem
    rw [dcsComplete_eq hopen.state hopen.unwritten hopen.own]
    simp [Slot.complete]
  lease_once t := by
    have hbal := hl.balance t
    split at hbal <;> omega
  lease_own := hl.called
  lease_owed t hlt h0 := by
    have hbal := hl.balance t
    rw [if_pos hlt, h0] at hbal
    by_cases hc : s.worker.calling = some t
    · exact Or.inr hc
    · rw [WorkerPc.carries, if_neg hc] at hbal
      obtain ⟨i, hi, ht⟩ := Table.exists_of_holders_pos (t := t) (l := s.leaseLedger) (by omega)
      exact Or.inl ⟨i, hi, ht⟩

/-- When nothing is held any more, everything has been called. -/
theorem allCalled_of_empty {s : Sys} (hj : JobInv s) (hl : LeaseLedgerInv s)
    (hslots : ∀ i, (s.ctrl.slots i).state = .free)
    (hleases : ∀ i, (s.ctrl.leases i).waiting = false) (hw : s.worker.calling = none) :
    AllCalled s := by
  constructor
  · intro t ht
    have hbal := hj.balance t
    rw [Table.holders_eq_zero fun i => by simp [Sys.jobLedger, Sys.holds, hslots i],
      if_pos ht] at hbal
    omega
  · intro t ht
    have hbal := hl.balance t
    rw [Table.holders_eq_zero fun i => by simp [Sys.leaseLedger, hleases i], if_pos ht,
      WorkerPc.carries, hw] at hbal
    simpa using hbal

/-- When the worker has ended, everything has been called exactly when nothing is held. -/
theorem allCalled_iff_empty {s : Sys} (hj : JobInv s) (hl : LeaseLedgerInv s)
    (hw : s.worker = .exited) : AllCalled s ↔
      (∀ i, (s.ctrl.slots i).state = .free) ∧ ∀ i, (s.ctrl.leases i).waiting = false := by
  refine ⟨fun h => ⟨fun i => ?_, fun i => ?_⟩, fun h =>
    allCalled_of_empty hj hl h.1 h.2 (by rw [hw]; rfl)⟩
  · by_contra hi
    obtain ⟨a, ha, -⟩ := hj.record i hi
    have hlt := (List.getElem?_eq_some_iff.mp ha).1
    have hbal := hj.balance (s.slotTicket i)
    rw [if_pos hlt, h.1 _ hlt] at hbal
    have hpos : 0 < Table.holders (s.slotTicket i) s.jobLedger :=
      Table.count_pos_of (i := i)
        (by simp [Table.owes, Sys.jobLedger, Sys.holds, hi, hw, WorkerPc.clearing])
    omega
  · by_contra hi
    have hwait : (s.ctrl.leases i).waiting = true := by simpa using hi
    obtain ⟨a, ha, -⟩ := hl.record i hwait
    have hlt := (List.getElem?_eq_some_iff.mp ha).1
    have hbal := hl.balance (s.leaseTicket i)
    rw [if_pos hlt, h.2 _ hlt] at hbal
    have hpos : 0 < Table.holders (s.leaseTicket i) s.leaseLedger :=
      Table.count_pos_of (i := i) (by simp [Table.owes, Sys.leaseLedger, hwait])
    omega

/-- **Exactly-once completion.** In every run each callback is called at most once and only
for an accepted request, and what has not been called is still owed. When the worker has
ended, all have been called exactly when its tables are empty, and they are after a last pass
that was clean. -/
theorem completed_exactly_once {s : Sys} (hs : machine.Reachable s) :
    Accounted s ∧
      (s.worker = .exited → (AllCalled s ↔
        (∀ i, (s.ctrl.slots i).state = .free) ∧ ∀ i, (s.ctrl.leases i).waiting = false)) ∧
      (machine.ReachableWhen SweepsClean s → s.worker = .exited → AllCalled s) := by
  have hj := job_inv hs
  have hl := lease_ledger_inv hs
  refine ⟨accounted hj (dispatch_inv hs) hl, allCalled_iff_empty hj hl, fun hclean hw => ?_⟩
  exact (allCalled_iff_empty hj hl hw).mpr ((sweep_inv hclean).exited hw)

/-- One job is dispatched and completed before the scheduler is stopped. -/
def cleanRun : List Label :=
  .submit (some (jobOn 1 .high)) 1 0 0 :: workerSteps 47 ++
    [.dcsComplete 0 none, .deinitMark, .deinitStop] ++ workerSteps 48

set_option maxRecDepth 100000 in
theorem completed_exactly_once_cleanRun : ∃ s, s.jobs.length = 1 ∧ AllCalled s := by
  have hrun : ((machine.runWhen SweepsClean boot cleanRun).map fun s =>
      decide (s.worker = .exited ∧ s.jobs.length = 1)) = some true := by
    decide +kernel
  obtain ⟨s, hs, hp⟩ := Machine.exists_reachableWhen_of_run rfl hrun
  obtain ⟨hw, hlen⟩ := of_decide_eq_true hp
  exact ⟨s, hlen, (completed_exactly_once hs.reachable).2.2 hs hw⟩

/-! ## The lost callback -/

/-- The worker that has ended stays so, and calls nothing. -/
theorem exited_step {s s' : Sys} {l : Label} {t : Nat} (h : s.step l = some s')
    (hw : s.worker = .exited ∧ s.jobCalls t = 0) : s'.worker = .exited ∧ s'.jobCalls t = 0 := by
  have hl : l.isWorker = false := by
    cases l with
    | worker now answer =>
        simp only [Sys.step, Sys.workerStep, hw.1] at h
        cases h
    | _ => rfl
  refine ⟨(step_worker_eq h hl).trans hw.1, ?_⟩
  rw [jobCalls_step h, stepEvents_calls_zero (fun _ _ _ _ _ => hl), hw.2]

/-- The scheduler is stopped while its only job is in flight; the command service completes
the job after the worker has ended. -/
def lostRun : List Label :=
  .submit (some (jobOn 1 .high)) 1 0 0 :: workerSteps 47 ++ [.deinitMark, .deinitStop] ++
    workerSteps 46 ++ [.dcsComplete 0 none]

set_option maxRecDepth 100000 in
/-- The command service has completed what it accepted, the worker has ended, and the accepted
job has not had its callback in any continuation of the run. -/
theorem lost_callback : ∃ s, machine.Reachable s ∧ s.jobs.length = 1 ∧ s.dcs = [] ∧
    s.worker = .exited ∧ ∀ ls s', machine.run s ls = some s' → s'.jobCalls 0 = 0 := by
  have hrun : ((machine.run boot lostRun).map fun s => decide (s.jobs.length = 1 ∧ s.dcs = [] ∧
      s.worker = .exited ∧ s.jobCalls 0 = 0)) = some true := by
    decide +kernel
  obtain ⟨s, hs, hp⟩ := Machine.exists_reachable_of_run rfl hrun
  obtain ⟨hlen, hdcs, hw, hcalls⟩ := of_decide_eq_true hp
  refine ⟨s, hs, hlen, hdcs, hw, fun ls s' hls => ?_⟩
  exact (Machine.run_induction (I := fun s => s.worker = .exited ∧ s.jobCalls 0 = 0)
    (fun _ _ _ hI hstep => exited_step hstep hI) ⟨hw, hcalls⟩ hls).2

end BleGateway.Scheduler
