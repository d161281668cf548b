import BleGateway.Scheduler.Ledger
import BleGateway.Scheduler.WorkConservation

/-! # FIFO dispatch

Among the queued jobs of one device, priority and lease the one in the lowest slot goes first,
and a new job takes the lowest free slot. Jobs of one class are therefore handed over in the
order of their acceptance as long as no job is accepted into a slot below an older waiting job
of its class.
-/

namespace BleGateway.Scheduler

/-- Two jobs that compete for the same turn. -/
def SameClass (a b : Job) : Prop :=
  a.deviceId = b.deviceId ∧ a.priority = b.priority ∧ a.leaseId = b.leaseId

instance (a b : Job) : Decidable (SameClass a b) := inferInstanceAs (Decidable (_ ∧ _))

/-- The jobs with tickets `a` and `b` are of one class. -/
def Sys.SameClass (s : Sys) (a b : Nat) : Prop :=
  ∃ x y, s.jobs[a]? = some x ∧ s.jobs[b]? = some y ∧ Scheduler.SameClass x.job y.job

/-- The job with ticket `t` has left the queue. -/
def Sys.Settled (s : Sys) (t : Nat) : Prop := .handed t ∈ s.log ∨ .dropped t ∈ s.log

/-- The job that the step accepts. -/
def acceptedJob (s : Sys) : Label → Option Job
  | .submit (some job) completion context now =>
      if (submit s.ctrl (some job) completion context now).2.1 = .ok then some job else none
  | _ => none

/-- The condition on a step: an accepted job is put behind every older job of its class that
still waits. -/
def LandsBehind (s : Sys) (l : Label) : Prop :=
  ∀ job ∈ acceptedJob s l, ∀ k ∈ freeSlot s.ctrl, ∀ i, (s.ctrl.slots i).waiting = true →
    superseded s.ctrl job i = false → SameClass (s.ctrl.slots i).job job → i < k

instance (s : Sys) (l : Label) : Decidable (LandsBehind s l) :=
  inferInstanceAs (Decidable (∀ job ∈ acceptedJob s l, _))

/-- At every hand-over the older jobs of the class have left the queue. -/
def HandedInOrder (s : Sys) : Prop :=
  ∀ n b, s.log[n]? = some (.handed b) → ∀ a < b, s.SameClass a b →
    .handed a ∈ s.log.take n ∨ .dropped a ∈ s.log.take n

structure FifoInv (s : Sys) : Prop where
  sorted : ∀ i j, (s.ctrl.slots i).waiting = true → (s.ctrl.slots j).waiting = true →
    SameClass (s.ctrl.slots i).job (s.ctrl.slots j).job → s.slotTicket i < s.slotTicket j → i < j
  queued : ∀ i j, (s.ctrl.slots i).waiting = true → (s.ctrl.slots j).state = .queued →
    s.slotTicket i < s.slotTicket j → (s.ctrl.slots i).state = .queued
  settled : ∀ t, t < s.jobs.length → s.Settled t ∨
    (∃ i, (s.ctrl.slots i).waiting = true ∧ s.slotTicket i = t) ∨
    (∃ final n i, s.worker = .running final (.submitting n i) ∧ s.slotTicket i = t)
  turn : ∀ final n j, s.worker = .running final (.submitting n j) →
    ∀ a < s.slotTicket j, s.SameClass a (s.slotTicket j) → s.Settled a
  known : ∀ t, .handed t ∈ s.log → t < s.jobs.length
  order : HandedInOrder s

/-! ## The log and the jobs only grow -/

theorem Settled.mono {s s' : Sys} {es : List Event} (h : s'.log = s.log ++ es) {t : Nat}
    (ht : s.Settled t) : s'.Settled t := by
  rw [Sys.Settled, h, List.mem_append, List.mem_append]
  exact ht.imp Or.inl Or.inl

/-- The classes of old tickets do not change. -/
theorem sameClass_old {s s' : Sys} {x : AcceptedJob} (h : s'.jobs = s.jobs ++ [x]) {a b : Nat}
    (ha : a < s.jobs.length) (hb : b < s.jobs.length) (hc : s'.SameClass a b) :
    s.SameClass a b := by
  obtain ⟨u, v, hu, hv, huv⟩ := hc
  rw [h, List.getElem?_append_left ha] at hu
  rw [h, List.getElem?_append_left hb] at hv
  exact ⟨u, v, hu, hv, huv⟩

/-- Entries of the log in front of the new ones keep their place and what is in front. -/
theorem HandedInOrder.append {s s' : Sys} {es : List Event} (h : HandedInOrder s)
    (hlog : s'.log = s.log ++ es)
    (hclass : ∀ a b, .handed b ∈ s.log → a < b → s'.SameClass a b → s.SameClass a b)
    (hnew : ∀ n b, es[n]? = some (.handed b) → n = 0 ∧
      ∀ a < b, s'.SameClass a b → s.Settled a) : HandedInOrder s' := by
  intro n b hn a hab hc
  rw [hlog] at hn ⊢
  by_cases hlt : n < s.log.length
  · rw [List.getElem?_append_left hlt] at hn
    rw [List.take_append_of_le_length hlt.le]
    exact h n b hn a hab (hclass a b (List.mem_of_getElem? hn) hab hc)
  · rw [List.getElem?_append_right (Nat.le_of_not_lt hlt)] at hn
    obtain ⟨hzero, hset⟩ := hnew _ b hn
    have hlen : n = s.log.length := by omega
    rw [hlen, List.take_left]
    exact hset a hab hc

/-! ## What a step hands over -/

/-- Everything a step logs. -/
def newEvents (s : Sys) (l : Label) (s' : Sys) : List Event :=
  droppedTickets s.ctrl s'.ctrl s.slotTicket ++ stepEvents s l

theorem step_newEvents {s s' : Sys} {l : Label} (h : s.step l = some s') :
    s'.log = s.log ++ newEvents s l s' := by
  rw [step_log h, newEvents, List.append_assoc]

theorem mem_stepEvents_handed {s : Sys} {l : Label} {t : Nat}
    (h : .handed t ∈ stepEvents s l) : l.isWorker = true ∧
      ∃ final n i, s.worker = .running final (.submitting n i) ∧ s.slotTicket i = t := by
  unfold stepEvents at h
  split at h
  · rename_i hl
    refine ⟨hl, ?_⟩
    unfold WorkerPc.events at h
    split at h
    · simp at h
    · simp at h
    · rename_i hw
      exact ⟨_, _, _, hw, by simpa [eq_comm] using h⟩
    · simp at h
  · simp at h

variable {n : Fin DEVICE_CTRL_MAX_INFLIGHT} {i j k : SlotIx} {final : Bool} {e : Slot}
  {g : CtrlState}

theorem submitting_slots {s : Sys} {now : Int} {answer : EspErr} :
    (s.procStep final (.submitting n i) now answer).ctrl.slots = s.ctrl.slots := by
  simp only [Sys.procStep]
  split
  · rw [afterDispatch_slots]
  · rfl

/-- The step in which the worker hands a job over logs nothing else. -/
theorem submitting_events {s s' : Sys} {l : Label} (h : s.step l = some s') (hl : l.isWorker = true)
    (hw : s.worker = .running final (.submitting n i)) :
    newEvents s l s' = [.handed (s.slotTicket i)] := by
  have hevents : stepEvents s l = [.handed (s.slotTicket i)] := by
    simp [stepEvents, hl, hw, WorkerPc.events]
  have hslots : s'.ctrl.slots = s.ctrl.slots := by
    cases l with
    | worker now answer =>
        simp only [Sys.step, Sys.workerStep, hw, Option.some.injEq] at h
        rw [← h, submitting_slots]
    | _ => exact absurd hl (by simp [Label.isWorker])
  rw [newEvents, droppedTickets_same hslots, hevents]
  rfl

theorem newEvents_handed {s s' : Sys} {l : Label} (h : s.step l = some s') {n b : Nat}
    (hn : (newEvents s l s')[n]? = some (.handed b)) : n = 0 ∧
      ∃ final m i, s.worker = .running final (.submitting m i) ∧ s.slotTicket i = b := by
  have hmem := List.mem_of_getElem? hn
  rw [newEvents, List.mem_append] at hmem
  have hstep : .handed b ∈ stepEvents s l := by
    refine hmem.resolve_left fun hd => ?_
    obtain ⟨i, -, -, hcon⟩ := mem_droppedTickets.mp hd
    cases hcon
  obtain ⟨hl, final, m, i, hw, ht⟩ := mem_stepEvents_handed hstep
  rw [submitting_events h hl hw] at hn
  refine ⟨?_, final, m, i, hw, ht⟩
  by_contra hne
  obtain ⟨k, rfl⟩ := Nat.exists_eq_succ_of_ne_zero hne
  simp at hn

theorem procStep_submitting {s : Sys} {f : Bool} {pc : ProcPc} {now : Int} {answer : EspErr}
    (h : (s.procStep final pc now answer).worker = .running f (.submitting n j)) :
    final = f ∧ pc = .dispatch n ∧ selectSlotLocked s.ctrl = some j ∧
      (s.procStep final pc now answer).ctrl = startDispatch s.ctrl j := by
  have hsub := congrArg WorkerPc.submits h
  -- everywhere but in a dispatch round the worker has nothing to hand over afterwards
  have none_of (hn : (s.procStep final pc now answer).worker.submits = none) : False := by
    rw [hn] at hsub
    exact absurd hsub (by simp [WorkerPc.submits])
  cases pc with
  | promote | completeCall => exact (none_of rfl).elim
  | lease i => exact (none_of (afterLeaseSection_submits _ _ _ _)).elim
  | leaseCall i call t => exact (none_of (afterLease_submits _ _)).elim
  | complete i =>
      rcases completeSlot_cases s.ctrl i with ⟨-, hc⟩ | ⟨-, hc⟩
      · simp only [Sys.procStep, hc] at none_of
        exact (none_of (afterComplete_submits _ _)).elim
      · simp only [Sys.procStep, hc] at none_of
        exact (none_of rfl).elim
  | completeClear i => exact (none_of (afterComplete_submits _ _)).elim
  | dispatch m =>
      rcases dispatchOne_cases s.ctrl with hd | ⟨i, -, hsel, hd⟩
      · simp only [Sys.procStep, hd] at none_of
        exact (none_of (afterDispatch_submits _ _ _)).elim
      · simp only [Sys.procStep, hd] at h ⊢
        obtain ⟨rfl, rfl, rfl⟩ : final = f ∧ m = n ∧ i = j := by simpa using h
        exact ⟨rfl, rfl, hsel, rfl⟩
  | submitting m i =>
      simp only [Sys.procStep] at h none_of
      split at h
      · rename_i hok
        rw [if_pos hok] at none_of
        exact (none_of (afterDispatch_submits _ _ _)).elim
      · simp at h
  | rejected m i err => exact (none_of (afterDispatch_submits _ _ _)).elim

/-- The worker is about to hand over the job it has just selected, or has not moved. -/
theorem step_submitting {s s' : Sys} {l : Label} (h : s.step l = some s')
    (hw' : s'.worker = .running final (.submitting n j)) :
    s'.worker = s.worker ∨
      (s.worker = .running final (.dispatch n) ∧ selectSlotLocked s.ctrl = some j ∧
        s'.ctrl = startDispatch s.ctrl j) := by
  cases hl : l.isWorker with
  | false => exact Or.inl (step_worker_eq h hl)
  | true =>
      cases l with
      | worker now answer =>
          rcases step_worker h with ⟨-, rfl⟩ | ⟨f, pc, hw, rfl⟩
          · simp at hw'
          · obtain ⟨rfl, rfl, hsel, hctrl⟩ := procStep_submitting hw'
            exact Or.inr ⟨hw, hsel, hctrl⟩
      | _ => exact absurd hl (by simp [Label.isWorker])

/-! ## Waiting jobs over a step -/

/-- A slot that waits afterwards has waited before, with the same job, and has not gone back
from the queue. -/
def StillWaits (e e' : Slot) : Prop :=
  e'.waiting = true → e.waiting = true ∧ e'.job = e.job ∧ (e.state = .queued → e'.state = .queued)

theorem StillWaits.refl (e : Slot) : StillWaits e e := fun h => ⟨h, rfl, id⟩

theorem StillWaits.of_not_waiting {e' : Slot} (h : e'.waiting = false) : StillWaits e e' := by
  intro hw
  rw [h] at hw
  exact absurd hw (by decide)

theorem StillWaits.update (he : e.waiting = false) (i : SlotIx) :
    StillWaits (g.slots i) (Function.update g.slots k e i) := by
  by_cases hi : i = k
  · subst hi
    rw [Function.update_self]
    exact .of_not_waiting he
  · rw [Function.update_of_ne hi]
    exact .refl _

theorem SlotMove.stillWaits {e' : Slot} (h : SlotMove e e') : StillWaits e e' := by
  cases h with
  | stay => exact .refl _
  | queue h => exact fun _ => ⟨by simp [Slot.waiting, h], rfl, fun _ => rfl⟩
  | finish t _ _ => exact .of_not_waiting (by simp [Slot.waiting, Slot.finish])
  | expire _ => exact .of_not_waiting (by simp [Slot.waiting])

/-- A quiet section leaves a waiting job in the queue or completes it. -/
theorem SlotMove.waiting_or {e' : Slot} (h : SlotMove e e') (hw : e.waiting = true) :
    e'.waiting = true ∨ e'.state = .completionPending := by
  cases h with
  | stay => exact Or.inl hw
  | queue _ => exact Or.inl (by simp [Slot.waiting])
  | finish | expire => exact Or.inr rfl

theorem queuesAll_update {g' : CtrlState} (hslots : g'.slots = Function.update g.slots k e)
    (he : e.state ≠ .queued) :
    QueuesAll g g' := by
  refine Or.inr fun i hi => ?_
  rw [hslots] at hi
  by_cases hik : i = k
  · subst hik
    exact absurd (by simpa using hi) he
  · rwa [Function.update_of_ne hik] at hi

/-! ## The selected job is the oldest of its class -/

/-- A queued job of the selected job's class would have been a candidate too. -/
theorem selected_le (hg : TablesInv g) (hsel : selectSlotLocked g = some j)
    (hi : (g.slots i).state = .queued) (hc : SameClass (g.slots i).job (g.slots j).job) :
    j ≤ i := by
  obtain ⟨hq, -, hb, ht, hlease⟩ := selectSlotLocked_spec hsel
  have hdev : (g.slots j).deviceIndex = (g.slots i).deviceIndex := by
    have hfi := hg.device.found i (by simp [hi])
    rw [hc.1, hg.device.found j (by simp [hq])] at hfi
    exact Option.some.inj hfi
  have hjmem := (mem_candidates_iff hg.transport).mp (selectSlotLocked_mem hsel)
  have himem : i ∈ candidates g := by
    refine (mem_candidates_iff hg.transport).mpr ⟨?_, fun h => hjmem.2 ⟨h.1, hc.2.1 ▸ h.2⟩⟩
    rw [CtrlState.deviceOf, hdev] at hb ht hlease
    exact ⟨hi, hb, ht, hc.2.2 ▸ hlease⟩
  exact selectSlotLocked_le hsel himem hdev (by rw [rankAt, rankAt, hc.2.1])

namespace FifoInv

variable {s s' : Sys} {l : Label}

/-- What the log says stays right when tickets and classes of old jobs stay. -/
theorem order_step (h : FifoInv s) (hj : JobInv s) (hd : DispatchInv s) (hs : s.step l = some s')
    (hclass : ∀ a b, a < s.jobs.length → b < s.jobs.length → s'.SameClass a b →
      s.SameClass a b) : HandedInOrder s' := by
  refine h.order.append (step_newEvents hs) (fun a b hmem hab hc => ?_) fun n b hn => ?_
  · have hb := h.known b hmem
    exact hclass a b (hab.trans hb) hb hc
  · obtain ⟨hzero, final, m, i, hw, rfl⟩ := newEvents_handed hs hn
    have hopen := (hd.submitting i (by rw [hw]; rfl)).1
    obtain ⟨x, hx, -⟩ := hj.record i (by simp [hopen.state])
    have hlt := (List.getElem?_eq_some_iff.mp hx).1
    exact ⟨hzero, fun a ha hc => h.turn final m i hw a ha (hclass a _ (ha.trans hlt) hlt hc)⟩

theorem known_step (h : FifoInv s) (hj : JobInv s) (hd : DispatchInv s) (hs : s.step l = some s')
    (hlen : s.jobs.length ≤ s'.jobs.length) (t : Nat) (ht : .handed t ∈ s'.log) :
    t < s'.jobs.length := by
  rw [step_newEvents hs, List.mem_append] at ht
  rcases ht with ht | ht
  · exact (h.known t ht).trans_le hlen
  · obtain ⟨n, hn⟩ := List.mem_iff_getElem?.mp ht
    obtain ⟨-, final, m, i, hw, rfl⟩ := newEvents_handed hs hn
    have hopen := (hd.submitting i (by rw [hw]; rfl)).1
    obtain ⟨x, hx, -⟩ := hj.record i (by simp [hopen.state])
    exact (List.getElem?_eq_some_iff.mp hx).1.trans_le hlen

/-- Where a ticket goes in a step: it stays settled, or with the worker, or is handed over. -/
theorem settled_step (hs : s.step l = some s')
    (hticket : ∀ i, s.worker.submits = some i → s'.slotTicket i = s.slotTicket i) {t : Nat}
    (ht : s.Settled t ∨
      ∃ final n i, s.worker = .running final (.submitting n i) ∧ s.slotTicket i = t) :
    s'.Settled t ∨
      ∃ final n i, s'.worker = .running final (.submitting n i) ∧ s'.slotTicket i = t := by
  rcases ht with ht | ⟨final, n, i, hw, rfl⟩
  · exact Or.inl (Settled.mono (step_newEvents hs) ht)
  · cases hl : l.isWorker with
    | false =>
        exact Or.inr ⟨final, n, i, (step_worker_eq hs hl).trans hw, hticket i (by rw [hw]; rfl)⟩
    | true =>
        refine Or.inl (Or.inl ?_)
        rw [step_newEvents hs, submitting_events hs hl hw]
        simp

/-- A job that leaves the queue without a dispatch is logged as dropped. -/
theorem dropped_step (hs : s.step l = some s') (hw : (s.ctrl.slots i).waiting = true)
    (hc : (s'.ctrl.slots i).state = .completionPending) : s'.Settled (s.slotTicket i) := by
  refine Or.inr ?_
  rw [step_newEvents hs, newEvents, List.mem_append, List.mem_append]
  exact Or.inr (Or.inl (mem_droppedTickets.mpr ⟨i, hw, hc, rfl⟩))

/-- A step that accepts no job. -/
theorem kept (h : FifoInv s) (hj : JobInv s) (hd : DispatchInv s) (hs : s.step l = some s')
    (hk : JobsKept s s')
    (hwait : ∀ i, StillWaits (s.ctrl.slots i) (s'.ctrl.slots i))
    (hqueues : QueuesAll s.ctrl s'.ctrl)
    (hlost : ∀ i, (s.ctrl.slots i).waiting = true → (s'.ctrl.slots i).waiting = true ∨
      (s'.ctrl.slots i).state = .completionPending ∨
      ∃ final n, s'.worker = .running final (.submitting n i))
    (hturn : ∀ final n j, s.worker = .running final (.dispatch n) →
      selectSlotLocked s.ctrl = some j → ∀ a < s.slotTicket j,
        s.SameClass a (s.slotTicket j) → s.Settled a) : FifoInv s' := by
  have hclass {a b : Nat} (hc : s'.SameClass a b) : s.SameClass a b := by
    unfold Sys.SameClass at hc ⊢
    rwa [hk.jobs] at hc
  constructor
  · intro i j hi hj' hc ht
    rw [hk.ticket] at ht
    rw [(hwait i hi).2.1, (hwait j hj').2.1] at hc
    exact h.sorted i j (hwait i hi).1 (hwait j hj').1 hc ht
  · intro i j hi hj' ht
    rw [hk.ticket] at ht
    rcases hqueues with hall | hnone
    · have hne := hall i
      simp only [Slot.waiting, Bool.or_eq_true, decide_eq_true_eq] at hi
      exact hi.resolve_left hne
    · exact (hwait i hi).2.2 (h.queued i j (hwait i hi).1 (hnone j hj') ht)
  · intro t ht
    rw [hk.jobs] at ht
    have lift (hold : s.Settled t ∨
        ∃ final n i, s.worker = .running final (.submitting n i) ∧ s.slotTicket i = t) :
        s'.Settled t ∨ (∃ i, (s'.ctrl.slots i).waiting = true ∧ s'.slotTicket i = t) ∨
          ∃ final n i, s'.worker = .running final (.submitting n i) ∧ s'.slotTicket i = t :=
      (settled_step hs (fun i _ => by rw [hk.ticket]) hold).imp_right Or.inr
    rcases h.settled t ht with hset | ⟨i, hi, rfl⟩ | hw
    · exact lift (Or.inl hset)
    · rcases hlost i hi with hw | hc | ⟨final, n, hw⟩
      · exact Or.inr (Or.inl ⟨i, hw, by rw [hk.ticket]⟩)
      · exact Or.inl (dropped_step hs hi hc)
      · exact Or.inr (Or.inr ⟨final, n, i, hw, by rw [hk.ticket]⟩)
    · exact lift (Or.inr hw)
  · intro final n j hw a ha hc
    rw [hk.ticket] at ha hc
    rcases step_submitting hs hw with hsame | ⟨hw', hsel, -⟩
    · exact Settled.mono (step_newEvents hs) (h.turn final n j (hsame ▸ hw) a ha (hclass hc))
    · exact Settled.mono (step_newEvents hs) (hturn final n j hw' hsel a ha (hclass hc))
  · exact h.known_step hj hd hs (by rw [hk.jobs])
  · exact h.order_step hj hd hs fun a b _ _ hc => hclass hc

/-- A job is accepted behind the older waiting jobs of its class. -/
theorem accepted (h : FifoInv s) (hj : JobInv s) (hd : DispatchInv s) (hs : s.step l = some s')
    {job : Job} {completion context : Ptr} {now : Int} (hl : l.isWorker = false)
    (hok : ∀ i, (s.ctrl.slots i).waiting = true → superseded s.ctrl job i = false →
      SameClass (s.ctrl.slots i).job job → i < k)
    (ha : Accepted s.ctrl s'.ctrl job completion context now k)
    (hjobs : s'.jobs = s.jobs ++ [⟨job, completion, context⟩])
    (hticket : s'.slotTicket = Function.update s.slotTicket k s.jobs.length) : FifoInv s' := by
  obtain ⟨id, d, hslot, -⟩ := ha.slot
  have hlen : s'.jobs.length = s.jobs.length + 1 := by simp [hjobs]
  have hfree := freeSlot_spec ha.free
  have htk : s'.slotTicket k = s.jobs.length := by simp [hticket]
  have htother {i : SlotIx} (hik : i ≠ k) : s'.slotTicket i = s.slotTicket i := by
    simp [hticket, hik]
  -- the slots that waited before and still do
  have hold {i : SlotIx} (hik : i ≠ k) (hi : (s'.ctrl.slots i).waiting = true) :
      (s.ctrl.slots i).waiting = true ∧ superseded s.ctrl job i = false ∧
        s'.ctrl.slots i = s.ctrl.slots i := by
    rw [ha.others i hik] at hi ⊢
    split at hi
    · simp [Slot.waiting, Slot.finish] at hi
    · rename_i hsup
      rw [if_neg hsup]
      exact ⟨hi, by simpa using hsup, rfl⟩
  have hlt {i : SlotIx} (hi : (s.ctrl.slots i).waiting = true) :
      s.slotTicket i < s.jobs.length := by
    have hne : (s.ctrl.slots i).state ≠ .free := by
      intro hcon
      simp [Slot.waiting, hcon] at hi
    obtain ⟨x, hx, -⟩ := hj.record i hne
    exact (List.getElem?_eq_some_iff.mp hx).1
  constructor
  · intro i j hi hj' hc ht
    by_cases hjk : j = k
    · subst hjk
      have hij : i ≠ j := by
        rintro rfl
        exact absurd ht (lt_irrefl _)
      obtain ⟨hw, hsup, hsame⟩ := hold hij hi
      rw [hsame, hslot] at hc
      exact hok i hw hsup hc
    · obtain ⟨hwj, -, hsamej⟩ := hold hjk hj'
      by_cases hik : i = k
      · subst hik
        rw [htk, htother hjk] at ht
        exact absurd ht (Nat.lt_asymm (hlt hwj))
      · obtain ⟨hwi, -, hsamei⟩ := hold hik hi
        rw [htother hik, htother hjk] at ht
        rw [hsamei, hsamej] at hc
        exact h.sorted i j hwi hwj hc ht
  · intro i j hi hj' ht
    have hjk : j ≠ k := by
      rintro rfl
      simp [hslot, acceptedSlot] at hj'
    obtain ⟨hwj, -, hsamej⟩ := hold hjk (by simp [Slot.waiting, hj'])
    by_cases hik : i = k
    · subst hik
      rw [htk, htother hjk] at ht
      exact absurd ht (Nat.lt_asymm (hlt hwj))
    · obtain ⟨hwi, -, hsamei⟩ := hold hik hi
      rw [htother hik, htother hjk] at ht
      rw [hsamei]
      exact h.queued i j hwi (hsamej ▸ hj') ht
  · intro t ht
    have hsub (i : SlotIx) (hi : s.worker.submits = some i) : s'.slotTicket i = s.slotTicket i := by
      refine htother ?_
      rintro rfl
      exact absurd ((hd.submitting i hi).1.state.symm.trans hfree) (by decide)
    rw [hlen] at ht
    rcases (Nat.lt_succ_iff.mp ht).lt_or_eq with ht | rfl
    · rcases h.settled t ht with hset | ⟨i, hi, rfl⟩ | hw
      · exact (settled_step hs hsub (Or.inl hset)).imp_right Or.inr
      · have hik : i ≠ k := by
          rintro rfl
          simp [Slot.waiting, hfree] at hi
        rcases (ha.move hik).waiting_or hi with hw | hc
        · exact Or.inr (Or.inl ⟨i, hw, htother hik⟩)
        · exact Or.inl (dropped_step hs hi hc)
      · exact (settled_step hs hsub (Or.inr hw)).imp_right Or.inr
    · exact Or.inr (Or.inl ⟨k, by simp [hslot, acceptedSlot, Slot.waiting], htk⟩)
  · intro final n j hw a hlta hc
    have hw' : s.worker = .running final (.submitting n j) :=
      (step_worker_eq hs hl).symm.trans hw
    have hopen := (hd.submitting j (by rw [hw']; rfl)).1
    have hjk : j ≠ k := by
      rintro rfl
      exact absurd (hopen.state.symm.trans hfree) (by decide)
    rw [htother hjk] at hlta hc
    obtain ⟨x, hx, -⟩ := hj.record j (by simp [hopen.state])
    have hltj := (List.getElem?_eq_some_iff.mp hx).1
    exact Settled.mono (step_newEvents hs) (h.turn final n j hw' a hlta
      (sameClass_old hjobs (hlta.trans hltj) hltj hc))
  · exact h.known_step hj hd hs (by omega)
  · exact h.order_step hj hd hs fun a b ha hb hc => sameClass_old hjobs ha hb hc

/-- A step that accepts no job and writes one slot, whose job does not wait then: it has not waited
before, or is being handed over. -/
theorem emptied (h : FifoInv s) (hj : JobInv s) (hd : DispatchInv s) (hs : s.step l = some s')
    (hk : JobsKept s s') {k : SlotIx} {e : Slot}
    (hslots : s'.ctrl.slots = Function.update s.ctrl.slots k e) (he : e.waiting = false)
    (hlost : (s.ctrl.slots k).waiting = true →
      ∃ final n, s'.worker = .running final (.submitting n k))
    (hturn : ∀ final n j, s.worker = .running final (.dispatch n) →
      selectSlotLocked s.ctrl = some j → ∀ a < s.slotTicket j,
        s.SameClass a (s.slotTicket j) → s.Settled a) : FifoInv s' := by
  refine h.kept hj hd hs hk (fun i => ?_) (queuesAll_update hslots fun hq => ?_) (fun i hi => ?_)
    hturn
  · rw [hslots]
    exact .update he i
  · simp [Slot.waiting, hq] at he
  · by_cases hik : i = k
    · subst hik
      exact Or.inr (Or.inr (hlost hi))
    · rw [hslots, Function.update_of_ne hik]
      exact Or.inl hi

/-- The older jobs of the selected job's class have left the queue. -/
theorem selected_turn (h : FifoInv s) (hj : JobInv s) (hg : TablesInv s.ctrl)
    (hw : s.worker = .running final (.dispatch n)) (hsel : selectSlotLocked s.ctrl = some j)
    (a : Nat) (ha : a < s.slotTicket j) (hc : s.SameClass a (s.slotTicket j)) : s.Settled a := by
  have hq := (selectSlotLocked_spec hsel).1
  have hwj : (s.ctrl.slots j).waiting = true := by simp [Slot.waiting, hq]
  obtain ⟨x, y, hx, hy, hxy⟩ := hc
  rcases h.settled a (List.getElem?_eq_some_iff.mp hx).1 with hset | ⟨i, hi, rfl⟩ | hsub
  · exact hset
  · -- it waits: then it is queued in a lower slot, and would have been selected
    have hne : (s.ctrl.slots i).state ≠ .free := by
      intro hcon
      simp [Slot.waiting, hcon] at hi
    obtain ⟨x', hx', hholds⟩ := hj.record i hne
    obtain ⟨y', hy', hholdsj⟩ := hj.record j (by simp [hq])
    obtain rfl : x' = x := Option.some.inj (hx'.symm.trans hx)
    obtain rfl : y' = y := Option.some.inj (hy'.symm.trans hy)
    have hclass : SameClass (s.ctrl.slots i).job (s.ctrl.slots j).job := by
      rw [hholds.job, hholdsj.job]
      exact hxy
    have hlt := h.sorted i j hi hwj hclass ha
    have hle := selected_le hg hsel (h.queued i j hi hq ha) hclass
    exact absurd hlt (not_lt.mpr hle)
  · obtain ⟨f, m, i, hcon, -⟩ := hsub
    rw [hw] at hcon
    cases hcon

theorem step (h : FifoInv s) (hj : JobInv s) (hd : DispatchInv s) (hg : TablesInv s.ctrl)
    (hok : LandsBehind s l) (hs : s.step l = some s') : FifoInv s' := by
  have hturn (final : Bool) (n : Fin DEVICE_CTRL_MAX_INFLIGHT) (j : SlotIx)
      (hw : s.worker = .running final (.dispatch n))
      (hsel : selectSlotLocked s.ctrl = some j) := h.selected_turn hj hg hw hsel
  cases step_slots hs with
  | quiet hq hk _ =>
      refine h.kept hj hd hs hk (fun i => (hq.slots i).stillWaits) hq.queues (fun i hi => ?_) hturn
      exact ((hq.slots i).waiting_or hi).imp_right Or.inl
  | called _ hctrl hk _ _ =>
      refine h.kept hj hd hs hk (fun i => ?_) (Or.inr fun i => ?_) (fun i hi => ?_) hturn
      · rw [hctrl]
        exact .refl _
      · rw [hctrl]
        exact id
      · exact Or.inl (by rwa [hctrl])
  | @completed k hc hk _ =>
      obtain ⟨r, hslots⟩ := hc.slots
      refine h.emptied hj hd hs hk hslots (by simp [Slot.complete, Slot.waiting]) (fun hw => ?_)
        hturn
      simp [Slot.waiting, hc.inflight] at hw
  | @accepted job completion context now k hl he ha hjobs hticket _ =>
      subst hl
      have hjob : job ∈ acceptedJob s (.submit (some job) completion context now) := by
        simp [acceptedJob, he]
      exact h.accepted hj hd hs rfl (hok job hjob k ha.free) ha hjobs hticket
  | @dispatched final n k _ _ hsel hctrl hk hw' =>
      have hslots : s'.ctrl.slots = Function.update s.ctrl.slots k { s.ctrl.slots k with
          state := .inflight, dcsContext := ⟨k, (s.ctrl.slots k).generation⟩ } := by
        rw [hctrl]
        rfl
      exact h.emptied hj hd hs hk hslots (by simp [Slot.waiting]) (fun _ => ⟨final, n, hw'⟩) hturn
  | @reported _ k _ _ hst hctrl hk _ _ =>
      have hslots : s'.ctrl.slots = Function.update s.ctrl.slots k
          { s.ctrl.slots k with state := .completing } := by
        rw [hctrl, CtrlState.setSlot_slots, releaseTransport_slots]
      refine h.emptied hj hd hs hk hslots (by simp [Slot.waiting]) (fun hw => ?_) hturn
      simp [Slot.waiting, hst] at hw
  | @cleared final k hw hctrl hk _ =>
      have hslots : s'.ctrl.slots = Function.update s.ctrl.slots k
          { generation := (s.ctrl.slots k).generation } := by
        rw [hctrl]
        rfl
      have hrep := hj.atClear final k hw
      have hnot : (s.ctrl.slots k).waiting = false := by
        simp only [Slot.reporting, Bool.or_eq_true, decide_eq_true_eq] at hrep
        rcases hrep with hst | hst <;> simp [Slot.waiting, hst]
      refine h.emptied hj hd hs hk hslots (by simp [Slot.waiting]) (fun hw => ?_) hturn
      rw [hnot] at hw
      cases hw

theorem boot : FifoInv boot where
  sorted := fun _ _ h => absurd h (by simp [Scheduler.boot, init, Slot.waiting])
  queued := fun _ _ h => absurd h (by simp [Scheduler.boot, init, Slot.waiting])
  settled := fun _ h => absurd h (by simp [Scheduler.boot])
  turn := fun _ _ _ h => absurd h (by simp [Scheduler.boot])
  known := fun _ h => absurd h (by simp [Scheduler.boot])
  order := fun _ _ h => absurd h (by simp [Scheduler.boot])

end FifoInv

theorem fifo_inv {s : Sys} (hs : machine.ReachableWhen LandsBehind s) : FifoInv s := by
  induction hs with
  | init h =>
      rename_i s
      obtain rfl : s = boot := h
      exact FifoInv.boot
  | step hs hok hstep ih =>
      have hr := hs.reachable
      exact ih.step (job_inv hr) (dispatch_inv hr) (tables_inv hr) hok hstep

/-- **FIFO dispatch.** In every run whose accepted jobs land behind the older waiting jobs of
their class: of two jobs of one class, the older one is handed over first, unless it has been
withdrawn or has expired. -/
theorem handed_in_order {s : Sys} (hs : machine.ReachableWhen LandsBehind s) {a b n : Nat}
    (hab : a < b) (hclass : s.SameClass a b) (hkept : .dropped a ∉ s.log)
    (hb : s.log[n]? = some (.handed b)) : ∃ m < n, s.log[m]? = some (.handed a) := by
  have hmem := ((fifo_inv hs).order n b hb a hab hclass).resolve_right fun hd =>
    hkept (List.mem_of_mem_take hd)
  obtain ⟨m, hm⟩ := List.mem_iff_getElem?.mp hmem
  rw [List.getElem?_take] at hm
  split at hm
  · rename_i hlt
    exact ⟨m, hlt, hm⟩
  · exact absurd hm (by simp)

/-- Two jobs for one device, handed over one after the other. -/
def inOrderRun : List Label :=
  [.submit (some (jobOn 1 .high)) 1 0 0, .submit (some (jobOn 1 .high)) 1 0 0] ++
    workerSteps 47 ++ [.dcsComplete 0 none] ++ workerSteps 46

set_option maxRecDepth 100000 in
theorem handed_in_order_inOrderRun : ∃ s : Sys, s.log[2]? = some (.handed 1) ∧
    ∃ m < 2, s.log[m]? = some (.handed 0) := by
  have hrun : ((machine.runWhen LandsBehind boot inOrderRun).map fun s => decide
      ((s.jobs.map (·.job) = [jobOn 1 .high, jobOn 1 .high] ∧ .dropped 0 ∉ s.log) ∧
        s.log[2]? = some (.handed 1))) = some true := by
    decide
  obtain ⟨s, hs, hp⟩ := Machine.exists_reachableWhen_of_run rfl hrun
  obtain ⟨⟨hjobs, hkept⟩, hb⟩ := of_decide_eq_true hp
  have hclass : s.SameClass 0 1 := by
    obtain ⟨x, y, hxy⟩ : ∃ x y, s.jobs = [x, y] := by
      have hlen := congrArg List.length hjobs
      simp only [List.length_map] at hlen
      exact List.length_eq_two.mp hlen
    simp only [hxy, List.map_cons, List.map_nil, List.cons.injEq, and_true] at hjobs
    refine ⟨x, y, by simp [hxy], by simp [hxy], ?_⟩
    rw [hjobs.1, hjobs.2]
    exact ⟨rfl, rfl, rfl⟩
  exact ⟨s, hb, handed_in_order hs (by decide) hclass hkept hb⟩

/-! ## A younger job overtakes -/

/-- While the first job for device `[1]` waits in slot `1` on its blocked device, slot `0` is
given back and the second job takes it. -/
def overtakeRun : List Label :=
  [.submit (some (jobOn 2 .high)) 1 0 0, .blockDevice (some [1]),
    .submit (some (jobOn 1 .high)) 1 0 0] ++
    workerSteps 47 ++ [.dcsComplete 0 none] ++ workerSteps 48 ++
    [.submit (some (jobOn 1 .high)) 1 0 0, .unblockDevice (some [1])] ++ workerSteps 44

set_option maxRecDepth 100000 in
/-- Of two waiting jobs of one class, none withdrawn or expired, the younger is handed over
and the older is not. -/
theorem overtaken : ∃ s, machine.Reachable s ∧
    s.jobs.map (·.job) = [jobOn 2 .high, jobOn 1 .high, jobOn 1 .high] ∧
    (∀ t, .dropped t ∉ s.log) ∧ .handed 2 ∈ s.log ∧ .handed 1 ∉ s.log := by
  have hrun : ((machine.run boot overtakeRun).map fun s => decide
      (s.jobs.map (·.job) = [jobOn 2 .high, jobOn 1 .high, jobOn 1 .high] ∧
        (s.log.all fun e => match e with | .dropped _ => false | _ => true) = true ∧
        .handed 2 ∈ s.log ∧ .handed 1 ∉ s.log)) = some true := by
    decide
  obtain ⟨s, hs, hp⟩ := Machine.exists_reachable_of_run rfl hrun
  obtain ⟨hjobs, hdrop, h2, h1⟩ := of_decide_eq_true hp
  refine ⟨s, hs, hjobs, fun t ht => ?_, h2, h1⟩
  exact absurd (List.all_eq_true.mp hdrop _ ht) (by simp)

end BleGateway.Scheduler
