import BleGateway.Scheduler.Invariant

/-! # Work conservation

`select_slot_locked` answers with a job whenever a job can be dispatched, with one exception.
After a burst of `HIGH` jobs it passes over `HIGH` jobs as long as a `NORMAL` job is queued,
also when that job cannot be dispatched itself.
-/

namespace BleGateway.Scheduler

/-- The job of slot `i` could be handed to its device now. -/
def Dispatchable (g : CtrlState) (i : SlotIx) : Prop :=
  (g.slots i).state = .queued ∧ (g.deviceOf (g.slots i)).blocked = false ∧
    (g.deviceOf (g.slots i)).transportInflight = false ∧
    ((g.deviceOf (g.slots i)).lease = 0 ∨
      (g.slots i).job.leaseId = (g.deviceOf (g.slots i)).lease)

instance (g : CtrlState) (i : SlotIx) : Decidable (Dispatchable g i) :=
  inferInstanceAs (Decidable (_ ∧ _))

/-- The burst counter holds back `HIGH` jobs. -/
def BurstHold (g : CtrlState) : Prop :=
  g.highBurst ≥ DEVICE_CTRL_HIGH_BURST_MAX ∧ normalAvailable g = true

instance (g : CtrlState) : Decidable (BurstHold g) :=
  inferInstanceAs (Decidable (_ ∧ _))

/-- A candidate is a dispatchable job that the burst counter does not hold back. -/
theorem mem_candidates_iff {g : CtrlState} (hg : TransportInv g) {i : SlotIx} :
    i ∈ candidates g ↔ Dispatchable g i ∧ ¬(BurstHold g ∧ (g.slots i).job.priority = .high) := by
  rw [mem_candidates]
  simp only [Device.ready, eligible, Dispatchable, BurstHold, CtrlState.deviceOf,
    Bool.and_eq_true, Bool.or_eq_true, Bool.not_eq_true', decide_eq_true_eq,
    Bool.and_eq_false_iff, decide_eq_false_iff_not]
  constructor
  · rintro ⟨⟨⟨-, hb⟩, ht⟩, ⟨⟨hq, -⟩, hl⟩, hburst⟩
    refine ⟨⟨hq, hb, ht, hl⟩, ?_⟩
    rintro ⟨⟨hmax, hn⟩, hp⟩
    rcases hburst with (h | h) | h
    · exact h hmax
    · rw [hn] at h
      exact absurd h (by decide)
    · exact h hp
  · rintro ⟨⟨hq, hb, ht, hl⟩, hburst⟩
    have hu := hg.used i (by simp [hq])
    refine ⟨⟨⟨hu, hb⟩, ht⟩, ⟨⟨hq, trivial⟩, hl⟩, ?_⟩
    by_contra hcon
    simp only [not_or, not_not, Bool.not_eq_false] at hcon
    exact hburst ⟨hcon.1, hcon.2⟩

/-- **Work conservation, exactly.** With a dispatchable job queued, and whatever else is in
flight, `select_slot_locked` returns a job unless a `NORMAL` job is queued after a full burst
and every dispatchable job is `HIGH`. -/
theorem select_isSome_iff {s : Sys} (hs : machine.Reachable s)
    (hjob : ∃ i, Dispatchable s.ctrl i) :
    (selectSlotLocked s.ctrl).isSome = true ↔
      ¬(BurstHold s.ctrl ∧ ∀ i, Dispatchable s.ctrl i → (s.ctrl.slots i).job.priority = .high) := by
  have hg := (tables_inv hs).transport
  have hsome : (selectSlotLocked s.ctrl).isSome = true ↔ ∃ i, i ∈ candidates s.ctrl := by
    rw [← not_iff_not, not_exists, ← selectSlotLocked_eq_none]
    simp
  rw [hsome]
  constructor
  · rintro ⟨i, hi⟩ ⟨hhold, hall⟩
    obtain ⟨hd, hne⟩ := (mem_candidates_iff hg).mp hi
    exact hne ⟨hhold, hall i hd⟩
  · intro hne
    by_cases hhold : BurstHold s.ctrl
    · have hlow : ∃ i, Dispatchable s.ctrl i ∧ (s.ctrl.slots i).job.priority ≠ .high := by
        by_contra hcon
        refine hne ⟨hhold, fun i hi => ?_⟩
        by_contra hp
        exact hcon ⟨i, hi, hp⟩
      obtain ⟨i, hi, hp⟩ := hlow
      exact ⟨i, (mem_candidates_iff hg).mpr ⟨hi, fun h => hp h.2⟩⟩
    · obtain ⟨i, hi⟩ := hjob
      exact ⟨i, (mem_candidates_iff hg).mpr ⟨hi, fun h => hhold h.1⟩⟩

/-- A job for the device with the one-byte id `b`. -/
def jobOn (b : UInt8) (p : Priority) : Job :=
  { request := { deviceId := ⟨[b], by simp [DEVICE_ID_MAX_LEN]⟩ }, priority := p }

def workerSteps (n : Nat) : List Label := List.replicate n (.worker 0 .ok)

/-! ## After a burst -/

/-- A `NORMAL` job waits on a blocked device while eight of nine `HIGH` jobs on four other
devices are dispatched and completed. -/
def burstRun : List Label :=
  [.blockDevice (some [9]), .submit (some (jobOn 9 .normal)) 1 0 0] ++
    [1, 2, 3, 4, 1, 2, 3, 4, 1].map (fun b => .submit (some (jobOn b .high)) 1 0 0) ++
    workerSteps 50 ++ ([1, 2, 3, 4].map fun k => .dcsComplete k none) ++
    workerSteps 58 ++ ([5, 6, 7, 8].map fun k => .dcsComplete k none) ++ workerSteps 50

set_option maxRecDepth 100000 in
/-- After a full burst nothing is in flight and the ninth `HIGH` job can be dispatched, but it
is passed over for a `NORMAL` job that cannot. -/
theorem burst_stall : ∃ s, machine.Reachable s ∧ s.ctrl.inflight = 0 ∧
    Dispatchable s.ctrl 9 ∧ (s.ctrl.slots 9).job.priority = .high ∧
    (∀ i, Dispatchable s.ctrl i → (s.ctrl.slots i).job.priority ≠ .normal) ∧
    selectSlotLocked s.ctrl = none := by
  have hrun : ((machine.run boot burstRun).map fun s => decide (s.ctrl.inflight = 0 ∧
      Dispatchable s.ctrl 9 ∧ (s.ctrl.slots 9).job.priority = .high ∧
      (∀ i, Dispatchable s.ctrl i → (s.ctrl.slots i).job.priority ≠ .normal) ∧
      selectSlotLocked s.ctrl = none)) = some true := by
    decide +kernel
  obtain ⟨s, hs, hp⟩ := Machine.exists_reachable_of_run rfl hrun
  exact ⟨s, hs, of_decide_eq_true hp⟩

set_option maxRecDepth 100000 in
/-- Once the device is unblocked its `NORMAL` job is returned, beside a `LOW` one and the `HIGH` one
of another device. -/
theorem select_isSome_unblocked : ∃ s, machine.Reachable s ∧ BurstHold s.ctrl ∧
    (∀ p ∈ [Priority.high, .normal, .low], ∃ i, Dispatchable s.ctrl i ∧
      (s.ctrl.slots i).job.priority = p) ∧ (selectSlotLocked s.ctrl).isSome = true := by
  have hrun : ((machine.run boot (burstRun ++
      .submit (some (jobOn 9 .low)) 1 0 0 :: workerSteps 10 ++
        [.unblockDevice (some [9])])).map fun s =>
        decide (BurstHold s.ctrl ∧ ∀ p ∈ [Priority.high, .normal, .low],
          ∃ i, Dispatchable s.ctrl i ∧ (s.ctrl.slots i).job.priority = p)) = some true := by
    decide +kernel
  obtain ⟨s, hs, hp⟩ := Machine.exists_reachable_of_run rfl hrun
  obtain ⟨hhold, hjobs⟩ := of_decide_eq_true hp
  obtain ⟨i, hi, hnormal⟩ := hjobs .normal (by simp)
  refine ⟨s, hs, hhold, hjobs, (select_isSome_iff hs ⟨i, hi⟩).mpr fun hstall => ?_⟩
  exact absurd (hnormal.symm.trans (hstall.2 i hi)) (by decide)

end BleGateway.Scheduler
