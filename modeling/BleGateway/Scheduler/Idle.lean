import BleGateway.Scheduler.Blocking
import BleGateway.Scheduler.Completion
import BleGateway.Scheduler.Fifo

/-! # A device that is idle

The transport of a device is in flight exactly as long as the slot that its entry names holds a
dispatched job that has not been reported. `device_control_scheduler_is_idle` is therefore true
exactly when every accepted job for the device has been called back and no lease is granted for it.
A blocked device that is idle has no command in flight until it is unblocked.
-/

namespace BleGateway.Scheduler

/-! ## The transport of a device -/

/-- The slot holds a job that was dispatched and is not yet reported. -/
def Slot.inTransport (s : Slot) : Bool := s.state = .inflight || s.state = .completionPending

/-- A transport in flight has its slot, which is not the one whose callback is being called. -/
def Sys.Carried (s : Sys) : Prop :=
  ∀ d, (s.ctrl.devices d).transportInflight = true →
    (s.ctrl.devices d).used = true ∧ ∃ i, (s.ctrl.devices d).inflightSlot = some i ∧
      (s.ctrl.slots i).deviceIndex = d ∧ (s.ctrl.slots i).inTransport = true ∧
      s.worker.callSlot ≠ some i

theorem SlotMove.inTransport {e e' : Slot} (h : SlotMove e e') (he : e.inTransport = true) :
    e'.inTransport = true := by
  cases h with
  | stay => exact he
  | queue hq => simp [Slot.inTransport, hq] at he
  | finish | expire => rfl

/-- The transport of a device outlasts a release when it belongs to another slot. -/
theorem releaseTransport_transport {g : CtrlState} {k : SlotIx} {d : DevIx}
    (ht : ((releaseTransport g k).devices d).transportInflight = true) :
    (releaseTransport g k).devices d = g.devices d ∧
      ((g.slots k).deviceIndex = d → (g.devices d).inflightSlot ≠ some k) := by
  unfold releaseTransport at ht ⊢
  dsimp only at ht ⊢
  split at ht
  · rename_i hheld
    rw [if_pos hheld]
    by_cases hd : d = (g.slots k).deviceIndex
    · subst hd
      simp at ht
    · exact ⟨by simp [hd], fun he => absurd he.symm hd⟩
  · rename_i hother
    rw [if_neg hother]
    refine ⟨rfl, ?_⟩
    rintro rfl
    exact hother

namespace Sys.Carried

variable {s s' : Sys} {l : Label}

/-- A section that keeps the entries in use and moves no slot out of the transport. -/
theorem of_kept (h : s.Carried) (hdev : DevicesMove s.ctrl s'.ctrl)
    (hslots : ∀ i, (s.ctrl.slots i).inTransport = true →
      (s'.ctrl.slots i).deviceIndex = (s.ctrl.slots i).deviceIndex ∧
        (s'.ctrl.slots i).inTransport = true)
    (hcall : ∀ i, s'.worker.callSlot = some i → s.worker.callSlot = some i) : s'.Carried := by
  intro d ht
  rw [(hdev.entry d).transport] at ht
  obtain ⟨hu, i, hin, hd, hi, hw⟩ := h d ht
  obtain ⟨hu', hin', -⟩ := (hdev.entry d).kept hu
  obtain ⟨hd', hi'⟩ := hslots i hi
  exact ⟨hu', i, hin'.trans hin, hd'.trans hd, hi', fun hw' => hw (hcall i hw')⟩

theorem outside_callSlot (ho : OutsideCall s l s') (i : SlotIx)
    (hi : s'.worker.callSlot = some i) : s.worker.callSlot = some i := by
  rcases ho with ⟨-, hw⟩ | ⟨-, hout⟩
  · rwa [hw] at hi
  · rw [WorkerPc.callSlot_of_not_inCall hout] at hi
    cases hi

theorem step (h : s.Carried) (hs : s.step l = some s') : s'.Carried := by
  cases step_slots hs with
  | quiet hq _ ho =>
      exact h.of_kept hq.devices
        (fun i hi => ⟨(hq.slots i).deviceIndex, (hq.slots i).inTransport hi⟩)
        (outside_callSlot ho)
  | @called _ i _ _ hw hctrl _ hw' _ =>
      refine h.of_kept (.of_eq (by rw [hctrl])) (fun i hi => by rw [hctrl]; exact ⟨rfl, hi⟩)
        fun j hj => ?_
      rw [hw'] at hj
      rw [hw]
      exact hj
  | @accepted _ _ _ _ k _ _ ha _ _ hw =>
      refine h.of_kept ha.devices (fun i hi => ?_) fun i hi => hw ▸ hi
      have hik : i ≠ k := by
        rintro rfl
        simp [Slot.inTransport, freeSlot_spec ha.free] at hi
      exact ⟨(ha.move hik).deviceIndex, (ha.move hik).inTransport hi⟩
  | @completed k hc _ ho =>
      obtain ⟨r, hslots⟩ := hc.slots
      refine h.of_kept (.of_eq hc.devices) (fun i hi => ?_) (outside_callSlot ho)
      rw [hslots]
      by_cases hik : i = k
      · subst hik
        simp [Slot.complete, Slot.inTransport]
      · simpa [hik] using hi
  | @dispatched _ _ k hw _ hsel hctrl _ hw' =>
      obtain ⟨hq, hu, -⟩ := selectSlotLocked_spec hsel
      intro d ht
      rw [hctrl] at ht ⊢
      rw [hw']
      by_cases hd : d = (s.ctrl.slots k).deviceIndex
      · subst hd
        refine ⟨by simpa [startDispatch, CtrlState.deviceOf] using hu, k, by simp [startDispatch],
          ?_, ?_,
          by simp [WorkerPc.callSlot]⟩
        · simp [startDispatch]
        · simp [startDispatch, Slot.inTransport]
      · obtain ⟨hu, i, hin, hi, hit, -⟩ := h d (by simpa [startDispatch, hd] using ht)
        have hik : i ≠ k := by
          rintro rfl
          exact hd hi.symm
        exact ⟨by simpa [startDispatch, hd] using hu, i, by simpa [startDispatch, hd] using hin,
          by simpa [startDispatch, hik] using hi, by simpa [startDispatch, hik] using hit,
          by simp [WorkerPc.callSlot]⟩
  | @reported _ k _ hw hst hctrl _ _ hw' =>
      -- the transport of the slot that is reported ends here
      intro d ht
      rw [hctrl] at ht ⊢
      obtain ⟨hsame, hgone⟩ := releaseTransport_transport ht
      rw [CtrlState.setSlot_devices, hsame] at ht ⊢
      obtain ⟨hu, i, hin, hi, hit, -⟩ := h d ht
      have hik : i ≠ k := by
        rintro rfl
        exact hgone hi hin
      refine ⟨hu, i, hin, ?_, ?_, ?_⟩
      · simpa [hik, releaseTransport_slots] using hi
      · simpa [hik, releaseTransport_slots] using hit
      · rw [hw']
        exact fun he => hik (Option.some.inj he).symm
  | @cleared _ k hw hctrl _ hw' =>
      intro d ht
      rw [hctrl] at ht ⊢
      obtain ⟨hu, i, hin, hi, hit, hcall⟩ := h d ht
      have hik : i ≠ k := by
        rintro rfl
        exact hcall (by rw [hw]; rfl)
      refine ⟨hu, i, hin, by simpa [clearSlot, hik] using hi, by simpa [clearSlot, hik] using hit,
        ?_⟩
      rw [hw']
      unfold afterComplete
      split <;> simp [WorkerPc.callSlot]

end Sys.Carried

theorem carried {s : Sys} (hs : machine.Reachable s) : s.Carried :=
  hs.invariant (fun _ h => h ▸ fun _ ht => by cases ht) fun _ _ _ h hstep => h.step hstep

/-! ## When a device is idle -/

variable {s s' : Sys} {l : Label} {id : CString}

/-- The job has not been called back, or the slot it was in is still to be cleared. -/
def Sys.Unfinished (s : Sys) (t : Nat) : Prop :=
  s.jobCalls t = 0 ∨ ∃ i, s.worker.clearing = some i ∧ s.slotTicket i = t

/-- The slots in use hold the unfinished jobs. -/
theorem unfinished_iff (hj : JobInv s) (hd : DispatchInv s) (hl : LeaseLedgerInv s) :
    (∃ t a, s.jobs[t]? = some a ∧ a.job.deviceId = id ∧ s.Unfinished t) ↔
      ∃ i, (s.ctrl.slots i).state ≠ .free ∧ (s.ctrl.slots i).job.deviceId = id := by
  constructor
  · rintro ⟨t, a, hget, rfl, hopen | ⟨i, hw, rfl⟩⟩
    · obtain ⟨i, ⟨hi, -, hholds⟩, -⟩ := (accounted hj hd hl).job_owed t a hget hopen
      simp only [Sys.holds, Bool.and_eq_true, decide_eq_true_eq] at hi
      exact ⟨i, hi.1, by rw [hholds.job]⟩
    · have hfree : (s.ctrl.slots i).state ≠ .free := by
        unfold WorkerPc.clearing at hw
        split at hw
        · cases hw
          exact Slot.reporting_not_free (hj.atClear _ _ ‹_›)
        · cases hw
      obtain ⟨b, hb, hholds⟩ := hj.record i hfree
      obtain rfl : b = a := Option.some.inj (hb.symm.trans hget)
      exact ⟨i, hfree, by rw [hholds.job]⟩
  · rintro ⟨i, hi, rfl⟩
    obtain ⟨a, hget, hholds⟩ := hj.record i hi
    refine ⟨_, a, hget, by rw [hholds.job], ?_⟩
    by_cases hw : s.worker.clearing = some i
    · exact .inr ⟨i, hw, rfl⟩
    · have hbal := hj.balance (s.slotTicket i)
      rw [if_pos (List.getElem?_eq_some_iff.mp hget).1] at hbal
      have hpos : 0 < Table.holders (s.slotTicket i) s.jobLedger :=
        Table.count_pos_of (i := i) (by simp [Table.owes, Sys.jobLedger, Sys.holds, hi, hw])
      exact .inl (by omega)

theorem isIdle_eq_true_iff (hs : machine.Reachable s) (id : CString) : isIdle s.ctrl id = true ↔
    (∀ t a, s.jobs[t]? = some a → a.job.deviceId = id → ¬s.Unfinished t) ∧
      ∀ i, (s.ctrl.leases i).state = .active →
        findDevice s.ctrl id ≠ some (s.ctrl.leases i).deviceIndex := by
  have htables := tables_inv hs
  have hslots : (∀ t a, s.jobs[t]? = some a → a.job.deviceId = id → ¬s.Unfinished t) ↔
      ∀ i, (s.ctrl.slots i).state ≠ .free → (s.ctrl.slots i).job.deviceId ≠ id := by
    simpa using not_congr
      (@unfinished_iff s id (job_inv hs) (dispatch_inv hs) (lease_ledger_inv hs))
  rw [hslots]
  unfold isIdle
  split
  · rename_i hnone
    refine iff_of_true rfl ⟨fun i hi hid => ?_, fun i _ => by simp [hnone]⟩
    have hfound := htables.device.found i hi
    rw [hid, hnone] at hfound
    cases hfound
  · rename_i d hd
    -- the slots that point at the entry are those of its device
    have hentry (i : SlotIx) (hi : (s.ctrl.slots i).state ≠ .free) :
        (s.ctrl.slots i).deviceIndex = d ↔ (s.ctrl.slots i).job.deviceId = id := by
      have hfound := htables.device.found i hi
      constructor
      · rintro rfl
        exact (findDevice_spec hfound).2.symm.trans (findDevice_spec hd).2
      · intro hid
        rw [hid, hd] at hfound
        exact (Option.some.inj hfound).symm
    simp only [Bool.and_eq_true, Bool.not_eq_true', decide_eq_true_eq, List.all_eq_true,
      List.mem_finRange, true_imp_iff, Bool.or_eq_true]
    constructor
    · rintro ⟨⟨-, hlease⟩, hall⟩
      refine ⟨fun i hi hid => ?_, fun i hi he => ?_⟩
      · exact (hall i).elim hi fun hne => hne ((hentry i hi).mpr hid)
      · obtain ⟨hne, hid⟩ := htables.lease.active i hi
        obtain rfl := Option.some.inj (hd.symm.trans he)
        exact hne (hid.symm.trans hlease)
    · rintro ⟨hfree, hlease⟩
      refine ⟨⟨?_, ?_⟩, fun i => ?_⟩
      · by_contra ht
        obtain ⟨-, i, -, hi, hin, -⟩ := carried hs d (by simpa using ht)
        have hne : (s.ctrl.slots i).state ≠ .free := by
          intro hf
          simp [Slot.inTransport, hf] at hin
        exact hfree i hne ((hentry i hne).mp hi)
      · by_contra hne
        obtain ⟨i, hi, he⟩ := htables.lease.leased d hne
        exact hlease i hi (by rw [he]; exact hd)
      · by_cases hi : (s.ctrl.slots i).state = .free
        · exact .inl hi
        · exact .inr fun he => hfree i hi ((hentry i hi).mp he)

/-- **A device is idle** exactly when every job accepted for it is finished and no lease on it is
active. A transport in flight has a slot with a job that is dispatched and not yet reported. -/
theorem isIdle_iff (hs : machine.Reachable s) :
    (∀ id, isIdle s.ctrl id = true ↔
      (∀ t a, s.jobs[t]? = some a → a.job.deviceId = id → ¬s.Unfinished t) ∧
        ∀ i, (s.ctrl.leases i).state = .active →
          findDevice s.ctrl id ≠ some (s.ctrl.leases i).deviceIndex) ∧
    ∀ d, (s.ctrl.devices d).transportInflight = true →
      ∃ i, (s.ctrl.devices d).inflightSlot = some i ∧ (s.ctrl.slots i).deviceIndex = d ∧
        (s.ctrl.slots i).inTransport = true ∧ s.worker.callSlot ≠ some i :=
  ⟨isIdle_eq_true_iff hs, fun d hd => (carried hs d hd).2⟩

/-- With its job handed over, the device is not idle: the job is unfinished and in transport. -/
theorem isIdle_iff_submitted : ∃ s, machine.Reachable s ∧ isIdle s.ctrl [1] = false ∧
    ¬((∀ t a, s.jobs[t]? = some a → a.job.deviceId = [1] → ¬s.Unfinished t) ∧
      ∀ i, (s.ctrl.leases i).state = .active →
        findDevice s.ctrl [1] ≠ some (s.ctrl.leases i).deviceIndex) ∧
    ∃ i, (s.ctrl.slots i).inTransport = true := by
  have hrun : ((machine.run boot
      ([.submit (some (jobOn 1 .high)) 1 0 0] ++ workerSteps 46)).map fun s => decide
        (isIdle s.ctrl [1] = false ∧ ∃ d, (s.ctrl.devices d).transportInflight = true)) =
      some true := by
    decide +kernel
  obtain ⟨s, hs, hp⟩ := Machine.exists_reachable_of_run rfl hrun
  obtain ⟨hidle, d, hd⟩ := of_decide_eq_true hp
  obtain ⟨hiff, htransport⟩ := isIdle_iff hs
  obtain ⟨i, -, -, hi, -⟩ := htransport d hd
  refine ⟨s, hs, hidle, fun h => ?_, i, hi⟩
  rw [(hiff [1]).mpr h] at hidle
  cases hidle

/-! ## A blocked device that is idle -/

/-- The device has an entry that is blocked, and no transport in flight. -/
def Silenced (g : CtrlState) (id : CString) : Prop :=
  ∃ d, findDevice g id = some d ∧ (g.devices d).blocked = true ∧
    (g.devices d).transportInflight = false

theorem Silenced.of_idle {g : CtrlState} {d : DevIx} (hd : findDevice g id = some d)
    (hb : (g.devices d).blocked = true) (hidle : isIdle g id = true) : Silenced g id := by
  refine ⟨d, hd, hb, ?_⟩
  unfold isIdle at hidle
  rw [hd] at hidle
  dsimp only at hidle
  rw [Bool.and_eq_true, Bool.and_eq_true, Bool.not_eq_true'] at hidle
  exact hidle.1.1

/-- No slot of a silenced device is in flight. -/
theorem Silenced.not_inflight {g : CtrlState} (h : Silenced g id) (ht : TablesInv g) {i : SlotIx}
    (hi : (g.slots i).state = .inflight) : (g.slots i).job.deviceId ≠ id := by
  rintro rfl
  obtain ⟨d, hd, -, hquiet⟩ := h
  have hne : (g.slots i).state ≠ .free := by simp [hi]
  obtain rfl := Option.some.inj (hd.symm.trans (ht.device.found i hne))
  have hholder : (g.devices (g.slots i).deviceIndex).inflightSlot = some i :=
    ht.transport.holder i hi
  have hbusy := ht.transport.transport _ (ht.transport.used i hne) (hholder ▸ Option.some_ne_none i)
  rw [hquiet] at hbusy
  cases hbusy

/-- Only the device's own unblock clears the flag of the entry found for it. -/
theorem step_blocked {d : DevIx} (h : s.step l = some s') (hl : l ≠ .unblockDevice (some id))
    (hd : findDevice s.ctrl id = some d) (hb : (s.ctrl.devices d).blocked = true) :
    (s'.ctrl.devices d).blocked = true := by
  cases hw : l.blocks with
  | false => rw [step_blocks h hw d, hb]
  | true =>
      cases l <;> simp only [Label.blocks, Bool.false_eq_true] at hw
      case blockDevice text =>
        cases h
        rcases blockDevice_cases s.ctrl text with ⟨-, hk⟩ | ⟨text, k, -, -, heq⟩
        · exact (hk d).trans hb
        · by_cases hdk : d = k
          · subst hdk
            simp [Sys.setCtrl, heq]
          · simp [Sys.setCtrl, heq, hdk, findOrCreateDevice_blocks s.ctrl text d, hb]
      case unblockDevice text =>
        cases h
        cases text with
        | none => exact hb
        | some text =>
            by_contra hclear
            unfold Sys.setCtrl unblockDevice at hclear
            dsimp only at hclear
            split at hclear
            · rename_i k hk
              by_cases hdk : d = k
              · subst hdk
                have htext := (findDevice_spec hk).2.symm.trans (findDevice_spec hd).2
                exact hl (by rw [htext])
              · simp [hdk, hb] at hclear
            · exact hclear hb

/-- No step puts the transport of a blocked entry in flight. -/
theorem step_transport {d : DevIx} (h : s.step l = some s')
    (hb : (s.ctrl.devices d).blocked = true) (ht : (s.ctrl.devices d).transportInflight = false) :
    (s'.ctrl.devices d).transportInflight = false := by
  cases step_slots h with
  | quiet hq _ _ => rw [(hq.devices.entry d).transport, ht]
  | called _ hctrl _ _ _ => rw [hctrl, ht]
  | accepted _ _ ha _ _ _ => rw [(ha.devices.entry d).transport, ht]
  | completed hc _ _ => rw [hc.devices, ht]
  | @dispatched _ _ k _ _ hsel hctrl _ _ =>
      have hd : d ≠ (s.ctrl.slots k).deviceIndex := by
        rintro rfl
        have hopen := (selectSlotLocked_spec hsel).2.2.1
        rw [CtrlState.deviceOf, hb] at hopen
        cases hopen
      rw [hctrl]
      simpa [startDispatch, hd] using ht
  | reported _ _ hctrl _ _ _ =>
      rw [hctrl, CtrlState.setSlot_devices]
      by_contra hbusy
      rw [Bool.not_eq_false] at hbusy
      rw [(releaseTransport_transport hbusy).1, ht] at hbusy
      cases hbusy
  | cleared _ hctrl _ _ =>
      rw [hctrl]
      exact ht

/-- A silenced device is silent until it is unblocked. -/
theorem Silenced.step (h : Silenced s.ctrl id) (ht : TablesInv s.ctrl)
    (hl : l ≠ .unblockDevice (some id)) (hs : s.step l = some s') : Silenced s'.ctrl id := by
  obtain ⟨d, hd, hb, hquiet⟩ := h
  exact ⟨d, ht.device.findDevice_kept (step_entries hs) hd, step_blocked hs hl hd hb,
    step_transport hs hb hquiet⟩

theorem step_jobs (h : s.step l = some s') {t : Nat} {a : AcceptedJob}
    (ha : s.jobs[t]? = some a) : s'.jobs[t]? = some a := by
  cases step_slots h with
  | accepted _ _ _ hjobs _ _ =>
      rw [hjobs, List.getElem?_append_left (List.getElem?_eq_some_iff.mp ha).1, ha]
  | quiet _ hk _ | called _ _ hk _ _ | completed _ hk _ | dispatched _ _ _ _ hk _
  | reported _ _ _ hk _ _ | cleared _ _ hk _ => rw [hk.jobs, ha]

/-- What a step hands over is a job of another device. -/
theorem Silenced.handed (h : Silenced s.ctrl id) (hr : machine.Reachable s)
    (hs : s.step l = some s') {t : Nat} (ht : .handed t ∈ newEvents s l s') :
    ∃ a, s'.jobs[t]? = some a ∧ a.job.deviceId ≠ id := by
  obtain ⟨n, hn⟩ := List.mem_iff_getElem?.mp ht
  obtain ⟨-, final, m, i, hw, rfl⟩ := newEvents_handed hs hn
  have hopen := ((dispatch_inv hr).submitting i (by rw [hw]; rfl)).1
  obtain ⟨a, ha, hholds⟩ := (job_inv hr).record i (by simp [hopen.state])
  refine ⟨a, step_jobs hs ha, ?_⟩
  rw [← hholds.job]
  exact h.not_inflight (tables_inv hr) hopen.state

/-- **A blocked device that is idle** stays silent: whatever happens short of its own unblock, no
job of it is handed to the command service. -/
theorem no_hand_over_while_blocked (hs : machine.Reachable s) {d : DevIx}
    (hd : findDevice s.ctrl id = some d) (hb : (s.ctrl.devices d).blocked = true)
    (hidle : isIdle s.ctrl id = true) {ls : List Label} (hls : .unblockDevice (some id) ∉ ls)
    (hrun : machine.run s ls = some s') :
    (∀ i, (s'.ctrl.slots i).state = .inflight → (s'.ctrl.slots i).job.deviceId ≠ id) ∧
      ∃ es, s'.log = s.log ++ es ∧
        ∀ t, .handed t ∈ es → ∃ a, s'.jobs[t]? = some a ∧ a.job.deviceId ≠ id := by
  suffices hall : ∀ ls, .unblockDevice (some id) ∉ ls → ∀ u, machine.run s ls = some u →
      machine.Reachable u ∧ Silenced u.ctrl id ∧ ∃ es, u.log = s.log ++ es ∧
        ∀ t, .handed t ∈ es → ∃ a, u.jobs[t]? = some a ∧ a.job.deviceId ≠ id by
    obtain ⟨hr, hsil, hes⟩ := hall ls hls s' hrun
    exact ⟨fun i => hsil.not_inflight (tables_inv hr), hes⟩
  intro ls
  induction ls using List.reverseRecOn with
  | nil =>
      intro _ u hu
      cases hu
      exact ⟨hs, .of_idle hd hb hidle, [], (List.append_nil _).symm, fun _ h => by cases h⟩
  | append_singleton ls l ih =>
      intro hmem v hv
      rw [Machine.run_concat, Option.bind_eq_some_iff] at hv
      obtain ⟨u, hu, hstep⟩ := hv
      simp only [List.mem_append, List.mem_singleton, not_or] at hmem
      obtain ⟨hr, hsil, es, hlog, hes⟩ := ih hmem.1 u hu
      refine ⟨hr.step hstep, hsil.step (tables_inv hr) (Ne.symm hmem.2) hstep,
        es ++ newEvents u l v, by rw [step_newEvents hstep, hlog, List.append_assoc],
        fun t ht => ?_⟩
      rcases List.mem_append.mp ht with hold | hnew
      · obtain ⟨a, ha, hne⟩ := hes t hold
        exact ⟨a, step_jobs hstep ha, hne⟩
      · exact hsil.handed hr hstep hnew

/-- Work for the blocked device `[1]` and for another device. -/
def blockedRun : List Label :=
  [.submit (some (jobOn 1 .high)) 1 0 0, .submit (some (jobOn 2 .high)) 1 0 0] ++ workerSteps 46

set_option maxRecDepth 100000 in
/-- The job of the other device is handed over, the job of the blocked device is not. -/
theorem no_hand_over_while_blocked_blockedRun : ∃ s s', machine.run s blockedRun = some s' ∧
    .handed 1 ∈ s'.log ∧ ∃ es, s'.log = s.log ++ es ∧
      ∀ t, .handed t ∈ es → ∃ a, s'.jobs[t]? = some a ∧ a.job.deviceId ≠ [1] := by
  have hrun : ((machine.run boot [.blockDevice (some [1])]).bind fun s =>
      (machine.run s blockedRun).map fun s' => decide
        ((∃ d, findDevice s.ctrl [1] = some d ∧ (s.ctrl.devices d).blocked = true) ∧
          isIdle s.ctrl [1] = true ∧ .handed 1 ∈ s'.log)) = some true := by
    decide +kernel
  obtain ⟨s, hs, hmap⟩ := Option.bind_eq_some_iff.mp hrun
  obtain ⟨s', hs', hp⟩ := Option.map_eq_some_iff.mp hmap
  obtain ⟨⟨d, hd, hb⟩, hidle, hhanded⟩ := of_decide_eq_true hp
  exact ⟨s, s', hs', hhanded, (no_hand_over_while_blocked
    (Machine.reachable_of_run (.init rfl) hs) hd hb hidle (by simp [blockedRun, workerSteps])
    hs').2⟩

end BleGateway.Scheduler
