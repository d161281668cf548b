import BleGateway.Scheduler.Invariant

/-! # Lease mutual exclusion

A lease keeps every job but its owner's away from a device, and is granted only while the
device has no command in flight. The state part is read off `TablesInv`; the step part says
which steps dispatch a job or grant a lease, and what they have checked.
-/

namespace BleGateway.Scheduler

/-- What holds of leases and commands in flight in one state. -/
structure LeaseExclusion (g : CtrlState) : Prop where
  /-- A device has at most one active lease. -/
  active_unique : ∀ i j, (g.leases i).state = .active → (g.leases j).state = .active →
    (g.leases i).deviceIndex = (g.leases j).deviceIndex → i = j
  /-- A device entry names a lease exactly when one active entry has that id and device. -/
  lease_iff : ∀ d, (g.devices d).lease ≠ 0 ↔
    ∃! i, (g.leases i).state = .active ∧ (g.leases i).id = (g.devices d).lease ∧
      (g.leases i).deviceIndex = d
  /-- A device entry has at most one job in flight. -/
  inflight_unique : ∀ i j, (g.slots i).state = .inflight → (g.slots j).state = .inflight →
    (g.slots i).deviceIndex = (g.slots j).deviceIndex → i = j
  /-- So has a device id. -/
  inflight_unique_id : ∀ i j, (g.slots i).state = .inflight → (g.slots j).state = .inflight →
    (g.slots i).job.deviceId = (g.slots j).job.deviceId → i = j
  inflight_count : g.inflight = Table.count (·.transportInflight) g.devices
  inflight_le : g.inflight ≤ DEVICE_CTRL_MAX_INFLIGHT

/-- What a step from `g` to `g'` has respected. -/
structure StepExclusion (g g' : CtrlState) : Prop where
  /-- A job dispatched to a leased device carries the id of the lease. -/
  dispatched : ∀ i, (g'.slots i).state = .inflight → (g.slots i).state ≠ .inflight →
    (g'.deviceOf (g'.slots i)).lease ≠ 0 →
      (g'.slots i).job.leaseId = (g'.deviceOf (g'.slots i)).lease
  /-- A lease becomes active on a device without a command in flight. -/
  granted : ∀ i, (g'.leases i).state = .active → (g.leases i).state ≠ .active →
    (g.devices (g'.leases i).deviceIndex).transportInflight = false ∧
      (g'.devices (g'.leases i).deviceIndex).transportInflight = false

theorem TablesInv.exclusion {g : CtrlState} (h : TablesInv g) : LeaseExclusion g where
  active_unique := h.lease.unique
  lease_iff d := by
    constructor
    · intro hne
      obtain ⟨i, hi, hd⟩ := h.lease.leased d hne
      have hid := (h.lease.active i hi).2
      rw [hd] at hid
      refine ⟨i, ⟨hi, hid.symm, hd⟩, fun j hj => ?_⟩
      exact h.lease.unique j i hj.1 hi (hj.2.2.trans hd.symm)
    · rintro ⟨i, ⟨hi, hid, -⟩, -⟩
      rw [← hid]
      exact (h.lease.active i hi).1
  inflight_unique i j hi hj hd := by
    have hheld := h.transport.holder i hi
    rw [CtrlState.deviceOf, hd] at hheld
    exact Option.some.inj (hheld.symm.trans (h.transport.holder j hj))
  inflight_unique_id i j hi hj hid := by
    have hfi := h.device.found i (by simp [hi])
    have hfj := h.device.found j (by simp [hj])
    rw [hid, hfj] at hfi
    have hheld := h.transport.holder i hi
    rw [CtrlState.deviceOf, ← Option.some.inj hfi] at hheld
    exact Option.some.inj (hheld.symm.trans (h.transport.holder j hj))
  inflight_count := h.transport.count
  inflight_le := h.transport.bound

/-! ## The steps that dispatch or grant -/

/-- Only the dispatch section puts a slot in flight, and it has checked the lease. -/
theorem step_dispatched {s s' : Sys} {l : Label} (hs : s.step l = some s') (i : SlotIx)
    (hi : (s'.ctrl.slots i).state = .inflight) (hold : (s.ctrl.slots i).state ≠ .inflight)
    (hleased : (s'.ctrl.deviceOf (s'.ctrl.slots i)).lease ≠ 0) :
    (s'.ctrl.slots i).job.leaseId = (s'.ctrl.deviceOf (s'.ctrl.slots i)).lease := by
  cases step_slots hs with
  | quiet hq _ _ =>
      rw [(hq.slots i).inflight hi] at hi
      exact absurd hi hold
  | called _ hctrl _ _ _ =>
      rw [hctrl] at hi
      exact absurd hi hold
  | @completed k hc _ _ =>
      obtain ⟨r, hslots⟩ := hc.slots
      rw [hslots] at hi
      by_cases hik : i = k
      · subst hik
        simp [Slot.complete] at hi
      · exact absurd (by simpa [hik] using hi) hold
  | @accepted job completion context now k _ _ ha _ _ _ =>
      by_cases hik : i = k
      · subst hik
        obtain ⟨id, d, hslot, -⟩ := ha.slot
        rw [hslot] at hi
        simp [acceptedSlot] at hi
      · rw [ha.others i hik] at hi
        split at hi
        · simp [Slot.finish] at hi
        · exact absurd hi hold
  | @dispatched _ _ k _ _ hsel hctrl _ _ =>
      rw [hctrl] at hi hleased ⊢
      by_cases hik : i = k
      · subst hik
        have hlease := (selectSlotLocked_spec hsel).2.2.2.2
        simp only [CtrlState.deviceOf, startDispatch, CtrlState.setDevice_slots,
          CtrlState.setSlot_slots, CtrlState.setDevice_devices, CtrlState.setSlot_devices,
          Function.update_self] at hleased hlease ⊢
        exact hlease.resolve_left hleased
      · exact absurd (by simpa [startDispatch, hik] using hi) hold
  | @reported _ k _ _ _ hctrl _ _ _ =>
      rw [hctrl, CtrlState.setSlot_slots, releaseTransport_slots] at hi
      by_cases hik : i = k
      · subst hik
        simp at hi
      · exact absurd (by simpa [hik] using hi) hold
  | @cleared _ k _ hctrl _ _ =>
      rw [hctrl] at hi
      by_cases hik : i = k
      · subst hik
        simp [clearSlot] at hi
      · exact absurd (by simpa [clearSlot, hik] using hi) hold

theorem LeaseMove.active {l l' : Lease} (h : LeaseMove l l') (hl : l'.state = .active) :
    l.state = .active := by
  cases h with
  | stay => exact hl
  | cancel _ _ => simp at hl
  | drop h => exact h

/-- Only the lease section of the worker grants, and it has checked the transport. -/
theorem step_granted {s s' : Sys} {l : Label} (hs : s.step l = some s') (i : DevIx)
    (hi : (s'.ctrl.leases i).state = .active) (hold : (s.ctrl.leases i).state ≠ .active) :
    (s.ctrl.devices (s'.ctrl.leases i).deviceIndex).transportInflight = false ∧
      (s'.ctrl.devices (s'.ctrl.leases i).deviceIndex).transportInflight = false := by
  cases step_leases hs with
  | kept hk _ _ =>
      rw [hk.leases] at hi
      exact absurd hi hold
  | called _ hctrl _ _ _ =>
      rw [hctrl] at hi
      exact absurd hi hold
  | cancelled hc _ _ _ => exact absurd ((hc.leases i).active hi) hold
  | @dropped k _ hctrl _ _ _ =>
      rw [hctrl] at hi
      by_cases hik : i = k
      · subst hik
        simp [dropLease] at hi
      · exact absurd (by simpa [dropLease, hik] using hi) hold
  | @accepted q _ _ k _ ha _ _ _ =>
      obtain ⟨id, d, -, hl⟩ := ha.entry
      rw [hl] at hi
      by_cases hik : i = k
      · subst hik
        simp [acceptedLease] at hi
      · exact absurd (by simpa [hik] using hi) hold
  | @granted _ k _ _ hd hctrl _ _ =>
      rw [hctrl] at hi ⊢
      by_cases hik : i = k
      · subst hik
        simp only [Device.leasable, Bool.and_eq_true, Bool.not_eq_true'] at hd
        simpa [grantLease] using hd.1.2
      · exact absurd (by simpa [grantLease, hik] using hi) hold
  | @reset _ k _ _ hctrl _ _ =>
      rw [hctrl] at hi
      by_cases hik : i = k
      · subst hik
        simp at hi
      · exact absurd (by simpa [hik] using hi) hold

/-- **Lease mutual exclusion.** In every reachable state leases and commands in flight
exclude each other, and so does every step from it. -/
theorem lease_exclusion {s : Sys} (hs : machine.Reachable s) :
    LeaseExclusion s.ctrl ∧ ∀ l s', s.step l = some s' → StepExclusion s.ctrl s'.ctrl :=
  ⟨(tables_inv hs).exclusion, fun _ _ hstep =>
    ⟨fun i => step_dispatched hstep i, fun i => step_granted hstep i⟩⟩

/-- A lease on device `[1]` is granted and the lease's own job is dispatched under it. -/
def leasedRun : List Label :=
  [.acquireLease (some ⟨some [1], .normal, .settings, 7⟩) 1 0,
    .submit (some { request := { deviceId := ⟨[1], by decide⟩ }, leaseId := 1 }) 1 0 0] ++
      List.replicate 45 (.worker 0 .ok)

set_option maxRecDepth 100000 in
theorem lease_exclusion_leased : ∃ s, machine.Reachable s ∧
    ((s.ctrl.leases 0).state = .active && (s.ctrl.slots 0).state = .inflight) = true ∧
      LeaseExclusion s.ctrl := by
  have hrun : ((machine.run boot leasedRun).map fun s =>
      (s.ctrl.leases 0).state = .active && (s.ctrl.slots 0).state = .inflight) = some true := by
    decide
  obtain ⟨s, hs, hp⟩ := Machine.exists_reachable_of_run rfl hrun
  exact ⟨s, hs, hp, (lease_exclusion hs).1⟩

end BleGateway.Scheduler
