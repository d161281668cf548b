import BleGateway.Scheduler.Steps

/-! # The invariants of the scheduler's tables

`TransportInv` ties the slots to the devices they are dispatched to and to the counter of
commands in flight, `LeaseInv` ties the lease table to the lease of each device. Each is
proved once for quiet sections and once for each section that is not quiet, and then for a
step of the system.
-/

namespace BleGateway.Scheduler

/-! ## Devices, slots and the commands in flight -/

structure TransportInv (g : CtrlState) : Prop where
  used : ∀ i, (g.slots i).state ≠ .free → (g.deviceOf (g.slots i)).used = true
  holder : ∀ i, (g.slots i).state = .inflight → (g.deviceOf (g.slots i)).inflightSlot = some i
  transport : ∀ d, (g.devices d).used = true → (g.devices d).inflightSlot ≠ none →
    (g.devices d).transportInflight = true
  count : g.inflight = Table.count (·.transportInflight) g.devices
  bound : g.inflight ≤ DEVICE_CTRL_MAX_INFLIGHT

namespace TransportInv

variable {g g' : CtrlState}

/-- A section keeps the invariant when it leaves the transport of the devices alone and every
slot that is not free afterwards was there before, no more dispatched than it was, or points
at a device in use. -/
theorem of_devices (h : TransportInv g) (hdev : DevicesMove g g')
    (hin : g'.inflight = g.inflight)
    (hslots : ∀ i, (g'.slots i).state ≠ .free →
      ((g.slots i).state ≠ .free ∧ (g'.slots i).deviceIndex = (g.slots i).deviceIndex ∧
        ((g'.slots i).state = .inflight → (g.slots i).state = .inflight)) ∨
      ((g'.slots i).state ≠ .inflight ∧ (g'.deviceOf (g'.slots i)).used = true)) :
    TransportInv g' where
  used i hi := by
    rcases hslots i hi with ⟨hold, hd, -⟩ | ⟨-, hu⟩
    · rw [CtrlState.deviceOf, hd]
      exact ((hdev.entry _).kept (h.used i hold)).1
    · exact hu
  holder i hi := by
    rcases hslots i (by simp [hi]) with ⟨hold, hd, hin'⟩ | ⟨hne, -⟩
    · rw [CtrlState.deviceOf, hd, ((hdev.entry _).kept (h.used i hold)).2.1]
      exact h.holder i (hin' hi)
    · exact absurd hi hne
  transport d hu hs := by
    rw [(hdev.entry d).transport]
    by_cases hold : (g.devices d).used = true
    · rw [((hdev.entry d).kept hold).2.1] at hs
      exact h.transport d hold hs
    · exact absurd ((hdev.entry d).fresh (by simpa using hold) hu) hs
  count := by
    rw [hin, h.count]
    exact Table.count_congr fun d => (hdev.entry d).transport.symm
  bound := hin ▸ h.bound

theorem quiet (h : TransportInv g) (hq : Quiet g g') : TransportInv g' := by
  refine h.of_devices hq.devices hq.inflight fun i hi => Or.inl ⟨?_, ?_, fun hin => ?_⟩
  · exact fun hf => hi ((hq.slots i).free_iff.mpr hf)
  · exact (hq.slots i).deviceIndex
  · rw [← (hq.slots i).inflight hin]
    exact hin

theorem accepted (h : TransportInv g) {job : Job} {completion context : Ptr} {now : Int}
    {i : SlotIx} (ha : Accepted g g' job completion context now i) : TransportInv g' := by
  refine h.of_devices ha.devices ha.inflight fun j hj => ?_
  by_cases hji : j = i
  · subst hji
    obtain ⟨id, d, hslot, hd⟩ := ha.slot
    refine Or.inr ⟨by simp [hslot, acceptedSlot], ?_⟩
    rw [CtrlState.deviceOf, hslot]
    exact (findDevice_spec hd).1
  · have hm := ha.move hji
    refine Or.inl ⟨fun hf => hj (hm.free_iff.mpr hf), hm.deviceIndex, fun hin => ?_⟩
    rw [← hm.inflight hin]
    exact hin

theorem completed (h : TransportInv g) {i : SlotIx} (hc : Completes g g' i) :
    TransportInv g' := by
  obtain ⟨r, hslots⟩ := hc.slots
  refine h.of_devices (.of_eq hc.devices) hc.count fun j hj => Or.inl ?_
  rw [hslots] at hj ⊢
  by_cases hji : j = i
  · subst hji
    simp [hc.inflight, Slot.complete]
  · simpa [hji] using hj

theorem cleared (h : TransportInv g) (i : SlotIx) : TransportInv (clearSlot g i) := by
  refine h.of_devices (.of_eq rfl) rfl fun j hj => ?_
  by_cases hji : j = i
  · subst hji
    simp [clearSlot] at hj
  · exact Or.inl (by simpa [clearSlot, hji] using hj)

/-- A device that is free to take a command has no slot of its own in flight. -/
theorem inflightSlot_none (h : TransportInv g) {d : DevIx} (hu : (g.devices d).used = true)
    (ht : (g.devices d).transportInflight = false) : (g.devices d).inflightSlot = none := by
  by_contra hne
  rw [h.transport d hu hne] at ht
  exact absurd ht (by decide)

theorem dispatched (h : TransportInv g) {i : SlotIx} (hsel : selectSlotLocked g = some i)
    (hlt : g.inflight < DEVICE_CTRL_MAX_INFLIGHT) : TransportInv (startDispatch g i) := by
  obtain ⟨hq, hu, -, ht, -⟩ := selectSlotLocked_spec hsel
  have hnone := h.inflightSlot_none hu ht
  -- no other slot in flight points at the device
  have hother (j : SlotIx) (hj : (g.slots j).state = .inflight) :
      (g.slots j).deviceIndex ≠ (g.slots i).deviceIndex := by
    intro hd
    have hheld := h.holder j hj
    rw [CtrlState.deviceOf, hd, hnone] at hheld
    exact absurd hheld (by simp)
  have hstate (j : SlotIx) (hji : j ≠ i) : (startDispatch g i).slots j = g.slots j := by
    simp [startDispatch, hji]
  have hself : ((startDispatch g i).slots i).deviceIndex = (g.slots i).deviceIndex := by
    simp [startDispatch]
  have hdevself : (startDispatch g i).devices (g.slots i).deviceIndex =
      { g.devices (g.slots i).deviceIndex with
        transportInflight := true, inflightSlot := some i } := by
    simp [startDispatch]
  have hdev (d : DevIx) (hd : d ≠ (g.slots i).deviceIndex) :
      (startDispatch g i).devices d = g.devices d := by
    simp [startDispatch, hd]
  have husedAll (d : DevIx) (hd : (g.devices d).used = true) :
      ((startDispatch g i).devices d).used = true := by
    by_cases hdi : d = (g.slots i).deviceIndex
    · subst hdi
      rw [hdevself]
      exact hd
    · rw [hdev d hdi]
      exact hd
  constructor
  · intro j hj
    by_cases hji : j = i
    · subst hji
      rw [CtrlState.deviceOf, hself]
      exact husedAll _ hu
    · rw [CtrlState.deviceOf, hstate j hji]
      rw [hstate j hji] at hj
      exact husedAll _ (h.used j hj)
  · intro j hj
    by_cases hji : j = i
    · subst hji
      rw [CtrlState.deviceOf, hself, hdevself]
    · rw [hstate j hji] at hj
      rw [CtrlState.deviceOf, hstate j hji, hdev _ (hother j hj)]
      exact h.holder j hj
  · intro d hud hs
    by_cases hdi : d = (g.slots i).deviceIndex
    · subst hdi
      rw [hdevself]
    · rw [hdev d hdi] at hud hs ⊢
      exact h.transport d hud hs
  · show g.inflight + 1 = _
    rw [h.count]
    exact (Table.count_update_of_false (p := fun e : Device => e.transportInflight) ht rfl).symm
  · exact hlt

/-- Reporting a completed job gives its device back when the job still held it. -/
theorem reported (h : TransportInv g) {i : SlotIx}
    (hs : (g.slots i).state = .completionPending) :
    TransportInv ((releaseTransport g i).setSlot i { g.slots i with state := .completing }) := by
  have hu : (g.devices (g.slots i).deviceIndex).used = true := h.used i (by simp [hs])
  unfold releaseTransport
  dsimp only
  split_ifs with hheld
  · have ht : (g.devices (g.slots i).deviceIndex).transportInflight = true :=
      h.transport _ hu (by simp [hheld])
    have hne (j : SlotIx) (hji : j ≠ i) (hj : (g.slots j).state = .inflight) :
        (g.slots j).deviceIndex ≠ (g.slots i).deviceIndex := by
      intro hd
      have := h.holder j hj
      rw [CtrlState.deviceOf, hd, hheld] at this
      exact hji (Option.some.inj this).symm
    have hcount := Table.count_update_of_true (p := fun e : Device => e.transportInflight)
      (v := { g.devices (g.slots i).deviceIndex with
        inflightSlot := none, transportInflight := false }) ht rfl
    constructor
    · intro j hj
      have husedAll (d : DevIx) (hd : (g.devices d).used = true) :
          (Function.update g.devices (g.slots i).deviceIndex
            { g.devices (g.slots i).deviceIndex with
              inflightSlot := none, transportInflight := false } d).used = true := by
        by_cases hdi : d = (g.slots i).deviceIndex
        · subst hdi; simpa using hd
        · simpa [hdi] using hd
      by_cases hji : j = i
      · subst hji
        simpa [CtrlState.deviceOf] using husedAll _ hu
      · simp only [CtrlState.setSlot_slots, Function.update_of_ne hji] at hj ⊢
        exact husedAll _ (h.used j hj)
    · intro j hj
      by_cases hji : j = i
      · subst hji
        simp at hj
      · simp only [CtrlState.setSlot_slots, Function.update_of_ne hji] at hj ⊢
        simpa [CtrlState.deviceOf, hne j hji hj] using h.holder j hj
    · intro d hud hsd
      by_cases hdi : d = (g.slots i).deviceIndex
      · subst hdi
        simp at hsd
      · simp [hdi] at hud hsd ⊢
        exact h.transport d hud hsd
    · show g.inflight - 1 = Table.count _ (Function.update g.devices _ _)
      rw [h.count, ← hcount]
      rfl
    · show g.inflight - 1 ≤ _
      have := h.bound
      omega
  · refine h.of_devices (.of_eq rfl) rfl fun j hj => ?_
    by_cases hji : j = i
    · subst hji
      simp [hs]
    · exact Or.inl (by simpa [hji] using hj)

end TransportInv

/-! ## Leases -/

structure LeaseInv (g : CtrlState) : Prop where
  pending : ∀ i, (g.leases i).state = .pending → (g.leases i).id ≠ 0
  active : ∀ i, (g.leases i).state = .active →
    (g.leases i).id ≠ 0 ∧ (g.devices (g.leases i).deviceIndex).lease = (g.leases i).id
  unique : ∀ i j, (g.leases i).state = .active → (g.leases j).state = .active →
    (g.leases i).deviceIndex = (g.leases j).deviceIndex → i = j
  leased : ∀ d, (g.devices d).lease ≠ 0 →
    ∃ i, (g.leases i).state = .active ∧ (g.leases i).deviceIndex = d

namespace LeaseInv

variable {g g' : CtrlState}

theorem kept (h : LeaseInv g) (hk : LeasesKept g g') : LeaseInv g' where
  pending := by rw [hk.leases]; exact h.pending
  active := by
    rw [hk.leases]
    intro i hi
    rw [hk.device]
    exact h.active i hi
  unique := by rw [hk.leases]; exact h.unique
  leased := by
    rw [hk.leases]
    intro d hd
    rw [hk.device] at hd
    exact h.leased d hd

/-- Writing an entry that neither was nor becomes active. -/
theorem update (h : LeaseInv g) {i : DevIx} {l : Lease} (hold : (g.leases i).state ≠ .active)
    (hnew : l.state ≠ .active) (hp : l.state = .pending → l.id ≠ 0)
    (hl : g'.leases = Function.update g.leases i l)
    (hd : ∀ d, (g'.devices d).lease = (g.devices d).lease) : LeaseInv g' := by
  -- an entry is active afterwards exactly when it was, and is then unchanged
  have hact (j : DevIx) (hj : (g'.leases j).state = .active) :
      j ≠ i ∧ g'.leases j = g.leases j := by
    rw [hl] at hj ⊢
    by_cases hji : j = i
    · subst hji
      exact absurd (by simpa using hj) hnew
    · exact ⟨hji, by simp [hji]⟩
  constructor
  · intro j hj
    rw [hl] at hj ⊢
    by_cases hji : j = i
    · subst hji
      simpa using hp (by simpa using hj)
    · simp only [Function.update_of_ne hji] at hj ⊢
      exact h.pending j hj
  · intro j hj
    have hjg := (hact j hj).2
    rw [hd]
    rw [hjg] at hj ⊢
    exact h.active j hj
  · intro j k hj hk hjk
    have hjg := (hact j hj).2
    have hkg := (hact k hk).2
    rw [hjg] at hj hjk
    rw [hkg] at hk hjk
    exact h.unique j k hj hk hjk
  · intro d hne
    rw [hd] at hne
    obtain ⟨j, hj, hjd⟩ := h.leased d hne
    have hji : j ≠ i := by
      rintro rfl
      exact hold hj
    exact ⟨j, by rw [hl]; simpa [hji] using hj, by rw [hl]; simpa [hji] using hjd⟩

theorem dropped (h : LeaseInv g) {i : DevIx} (hi : (g.leases i).state = .active) :
    LeaseInv (dropLease g i) := by
  have hother (j : DevIx) (hj : ((dropLease g i).leases j).state = .active) :
      j ≠ i ∧ (dropLease g i).leases j = g.leases j := by
    by_cases hji : j = i
    · subst hji
      simp [dropLease] at hj
    · exact ⟨hji, by simp [dropLease, hji]⟩
  have hdev (d : DevIx) (hd : d ≠ (g.leases i).deviceIndex) :
      (dropLease g i).devices d = g.devices d := by
    simp [dropLease, hd]
  constructor
  · intro j hj
    by_cases hji : j = i
    · subst hji
      simp [dropLease] at hj
    · simp only [dropLease, CtrlState.setLease_leases, CtrlState.setDevice_leases,
        Function.update_of_ne hji] at hj ⊢
      exact h.pending j hj
  · intro j hj
    obtain ⟨hji, hjg⟩ := hother j hj
    rw [hjg] at hj ⊢
    rw [hdev _ fun hd => hji (h.unique j i hj hi hd)]
    exact h.active j hj
  · intro j k hj hk hjk
    have hjg := (hother j hj).2
    have hkg := (hother k hk).2
    rw [hjg] at hj hjk
    rw [hkg] at hk hjk
    exact h.unique j k hj hk hjk
  · intro d hne
    by_cases hd : d = (g.leases i).deviceIndex
    · subst hd
      simp [dropLease] at hne
    · rw [hdev d hd] at hne
      obtain ⟨j, hj, hjd⟩ := h.leased d hne
      have hji : j ≠ i := by
        rintro rfl
        exact hd hjd.symm
      exact ⟨j, by simpa [dropLease, hji] using hj, by simpa [dropLease, hji] using hjd⟩

theorem granted (h : LeaseInv g) {i : DevIx} (hi : (g.leases i).state = .pending)
    (hd : (g.devices (g.leases i).deviceIndex).leasable = true) : LeaseInv (grantLease g i) := by
  have h0 : (g.devices (g.leases i).deviceIndex).lease = 0 := by
    simp only [Device.leasable, Bool.and_eq_true, decide_eq_true_eq] at hd
    exact hd.2
  -- the device had no active lease
  have hnone (j : DevIx) (hj : (g.leases j).state = .active) :
      (g.leases j).deviceIndex ≠ (g.leases i).deviceIndex := by
    intro hji
    obtain ⟨hne, hid⟩ := h.active j hj
    rw [hji, h0] at hid
    exact hne hid.symm
  have hself : (grantLease g i).leases i = { g.leases i with state := .active } := by
    simp [grantLease]
  have hother (j : DevIx) (hji : j ≠ i) : (grantLease g i).leases j = g.leases j := by
    simp [grantLease, hji]
  have hdev (d : DevIx) (hd : d ≠ (g.leases i).deviceIndex) :
      (grantLease g i).devices d = g.devices d := by
    simp [grantLease, hd]
  constructor
  · intro j hj
    by_cases hji : j = i
    · subst hji
      simp [hself] at hj
    · rw [hother j hji] at hj ⊢
      exact h.pending j hj
  · intro j hj
    by_cases hji : j = i
    · subst hji
      refine ⟨by simpa [hself] using h.pending j hi, ?_⟩
      simp [grantLease]
    · rw [hother j hji] at hj ⊢
      rw [hdev _ (hnone j hj)]
      exact h.active j hj
  · intro j k hj hk hjk
    by_cases hji : j = i
    · by_cases hki : k = i
      · exact hji.trans hki.symm
      · subst hji
        rw [hother k hki] at hk hjk
        rw [hself] at hjk
        exact absurd hjk.symm (hnone k hk)
    · by_cases hki : k = i
      · subst hki
        rw [hother j hji] at hj hjk
        rw [hself] at hjk
        exact absurd hjk (hnone j hj)
      · rw [hother j hji] at hj hjk
        rw [hother k hki] at hk hjk
        exact h.unique j k hj hk hjk
  · intro d hne
    by_cases hdi : d = (g.leases i).deviceIndex
    · exact ⟨i, by simp [hself], by simp [hself, hdi]⟩
    · rw [hdev d hdi] at hne
      obtain ⟨j, hj, hjd⟩ := h.leased d hne
      have hji : j ≠ i := by
        rintro rfl
        exact absurd (hi.symm.trans hj) (by decide)
      exact ⟨j, by rw [hother j hji]; exact hj, by rw [hother j hji]; exact hjd⟩

theorem cancelled (h : LeaseInv g) (sel : Selector) : LeaseInv (cancelMatch sel g).1 := by
  rw [cancelMatch_fst]
  refine cancelLeases_induction sel (fun g' i hfree hg' => ?_) (h.kept ⟨rfl, fun _ => rfl⟩)
  by_cases ha : (g'.leases i).state = .active
  · rw [cancelLease_of_active ha]
    exact hg'.dropped ha
  · rw [cancelLease_of_not_active ha]
    exact hg'.update ha (by simp) (by simp) rfl fun _ => rfl

theorem accepted (h : LeaseInv g) {q : LeaseRequest} {completion context : Ptr} {i : DevIx}
    (ha : LeaseAccepted g g' q completion context i) : LeaseInv g' := by
  obtain ⟨id, d, hid, hl⟩ := ha.entry
  refine h.update ?_ (by simp [acceptedLease]) (fun _ => by simpa [acceptedLease] using hid) hl
    ha.device
  rw [freeLease_spec ha.free]
  decide

end LeaseInv

/-! ## Device entries -/

/-- The entries in use come first, and a slot points at the entry that a search for its
job's device finds. -/
structure DeviceInv (g : CtrlState) : Prop where
  first : ∀ d, (g.devices d).used = true → ∀ d' < d, (g.devices d').used = true
  found : ∀ i, (g.slots i).state ≠ .free →
    findDevice g (g.slots i).job.deviceId = some (g.slots i).deviceIndex

namespace DeviceInv

variable {g g' : CtrlState}

/-- A search that finds an entry finds the same one later, as long as the entries in use stay. -/
theorem findDevice_kept (h : DeviceInv g) (hkept : ∀ d, (g.devices d).used = true →
      (g'.devices d).used = true ∧ (g'.devices d).deviceId = (g.devices d).deviceId)
    {id : CString} {d : DevIx} (hd : findDevice g id = some d) : findDevice g' id = some d := by
  obtain ⟨hself, hbefore⟩ := Fin.find?_eq_some_iff.mp hd
  have hu : (g.devices d).used = true := (findDevice_spec hd).1
  refine Fin.find?_eq_some_iff.mpr ⟨?_, fun d' hlt => ?_⟩
  · obtain ⟨hu', hid⟩ := hkept d hu
    simpa [hu', hid, hu] using hself
  · have hud := h.first d hu d' hlt
    obtain ⟨hu', hid⟩ := hkept d' hud
    simpa [hu', hid, hud] using hbefore d' hlt

/-- A section keeps the invariant when every slot that is not free afterwards held the same
job before or points at the entry of its device. -/
theorem of_devices (h : DeviceInv g) (hm : DevicesMove g g')
    (hslots : ∀ i, (g'.slots i).state ≠ .free →
      ((g.slots i).state ≠ .free ∧ (g'.slots i).job = (g.slots i).job ∧
        (g'.slots i).deviceIndex = (g.slots i).deviceIndex) ∨
      findDevice g' (g'.slots i).job.deviceId = some (g'.slots i).deviceIndex) :
    DeviceInv g' where
  first d hu d' hlt := by
    by_cases hold : (g.devices d).used = true
    · exact ((hm.entry d').kept (h.first d hold d' hlt)).1
    · exact hm.order d (by simpa using hold) hu d' hlt
  found i hi := by
    rcases hslots i hi with ⟨hold, hjob, hd⟩ | hfound
    · rw [hjob, hd]
      exact h.findDevice_kept (fun d hu => ((hm.entry d).kept hu).imp_right And.right)
        (h.found i hold)
    · exact hfound

theorem quiet (h : DeviceInv g) (hq : Quiet g g') : DeviceInv g' :=
  h.of_devices hq.devices fun i hi => Or.inl
    ⟨fun hf => hi ((hq.slots i).free_iff.mpr hf), (hq.slots i).job, (hq.slots i).deviceIndex⟩

theorem accepted (h : DeviceInv g) {job : Job} {completion context : Ptr} {now : Int}
    {i : SlotIx} (ha : Accepted g g' job completion context now i) : DeviceInv g' := by
  refine h.of_devices ha.devices fun j hj => ?_
  by_cases hji : j = i
  · subst hji
    obtain ⟨id, d, hslot, hd⟩ := ha.slot
    refine Or.inr ?_
    rw [hslot]
    exact hd
  · have hm := ha.move hji
    exact Or.inl ⟨fun hf => hj (hm.free_iff.mpr hf), hm.job, hm.deviceIndex⟩

theorem completed (h : DeviceInv g) {i : SlotIx} (hc : Completes g g' i) : DeviceInv g' := by
  obtain ⟨r, hslots⟩ := hc.slots
  refine h.of_devices (.of_eq hc.devices) fun j hj => Or.inl ?_
  rw [hslots] at hj ⊢
  by_cases hji : j = i
  · subst hji
    simp [hc.inflight, Slot.complete]
  · simpa [hji] using hj

/-- The sections of the worker that are not quiet keep ids and use of the device entries. -/
theorem of_entries (h : DeviceInv g)
    (hdev : ∀ d, (g'.devices d).used = (g.devices d).used ∧
      (g'.devices d).deviceId = (g.devices d).deviceId)
    (hslots : ∀ i, (g'.slots i).state ≠ .free → (g.slots i).state ≠ .free ∧
      (g'.slots i).job = (g.slots i).job ∧
      (g'.slots i).deviceIndex = (g.slots i).deviceIndex) : DeviceInv g' where
  first d hu d' hlt := by
    rw [(hdev _).1] at hu ⊢
    exact h.first d hu d' hlt
  found i hi := by
    obtain ⟨hold, hjob, hd⟩ := hslots i hi
    rw [hjob, hd]
    exact h.findDevice_kept (fun d hu => ⟨(hdev d).1.trans hu, (hdev d).2⟩) (h.found i hold)

end DeviceInv

/-! ## All tables -/

structure TablesInv (g : CtrlState) : Prop where
  transport : TransportInv g
  lease : LeaseInv g
  device : DeviceInv g

/-- Writing a device entry that keeps its id and its use. -/
theorem entries_update {g : CtrlState} {d : DevIx} {e : Device}
    (hu : e.used = (g.devices d).used) (hid : e.deviceId = (g.devices d).deviceId) (d' : DevIx) :
    (Function.update g.devices d e d').used = (g.devices d').used ∧
      (Function.update g.devices d e d').deviceId = (g.devices d').deviceId := by
  by_cases hd : d' = d
  · subst hd
    simpa using ⟨hu, hid⟩
  · simp [hd]

theorem releaseTransport_entries (g : CtrlState) (i : SlotIx) (d : DevIx) :
    ((releaseTransport g i).devices d).used = (g.devices d).used ∧
      ((releaseTransport g i).devices d).deviceId = (g.devices d).deviceId := by
  unfold releaseTransport
  dsimp only
  split
  · exact entries_update (e := { g.devices (g.slots i).deviceIndex with
      inflightSlot := none, transportInflight := false }) rfl rfl d
  · exact ⟨rfl, rfl⟩

theorem startDispatch_entries (g : CtrlState) (i : SlotIx) (d : DevIx) :
    ((startDispatch g i).devices d).used = (g.devices d).used ∧
      ((startDispatch g i).devices d).deviceId = (g.devices d).deviceId :=
  entries_update (e := { g.devices (g.slots i).deviceIndex with
    transportInflight := true, inflightSlot := some i }) rfl rfl d

theorem TablesInv.fresh (task running : Bool) :
    TablesInv { task := task, running := running } where
  transport :=
    { used := fun _ h => absurd rfl h
      holder := fun _ h => by cases h
      transport := fun _ h => by cases h
      count := by simp [Table.count]
      bound := Nat.zero_le _ }
  lease :=
    { pending := fun _ h => by cases h
      active := fun _ h => by cases h
      unique := fun _ _ h => by cases h
      leased := fun _ h => absurd rfl h }
  device :=
    { first := fun _ h => by cases h
      found := fun _ h => absurd rfl h }

theorem TablesInv.boot : TablesInv boot.ctrl := .fresh true true

theorem TablesInv.step {s s' : Sys} {l : Label} (h : TablesInv s.ctrl)
    (hs : s.step l = some s') : TablesInv s'.ctrl where
  transport := by
    cases step_slots hs with
    | quiet hq _ _ => exact h.transport.quiet hq
    | completed hc _ _ => exact h.transport.completed hc
    | called _ hctrl _ _ _ =>
        rw [hctrl]
        exact h.transport
    | accepted _ _ ha _ _ _ => exact h.transport.accepted ha
    | dispatched _ hlt hsel hctrl _ _ =>
        rw [hctrl]
        exact h.transport.dispatched hsel hlt
    | reported _ hst hctrl _ _ _ =>
        rw [hctrl]
        exact h.transport.reported hst
    | cleared _ hctrl _ _ =>
        rw [hctrl]
        exact h.transport.cleared _
  lease := by
    cases step_leases hs with
    | kept hk _ _ => exact h.lease.kept hk
    | called _ hctrl _ _ _ =>
        rw [hctrl]
        exact h.lease
    | cancelled hc _ _ _ =>
        rcases hc with hc | ⟨sel, hc⟩
        · rw [hc]
          exact h.lease
        · rw [hc]
          exact h.lease.cancelled sel
    | dropped hi hctrl _ _ _ =>
        rw [hctrl]
        exact h.lease.dropped hi
    | accepted _ ha _ _ _ => exact h.lease.accepted ha
    | granted _ hp hd hctrl _ _ =>
        rw [hctrl]
        exact h.lease.granted hp hd
    | reset _ hp hctrl _ _ =>
        rw [hctrl]
        exact h.lease.update (by simp [hp]) (by simp) (by simp) rfl fun _ => rfl
  device := by
    cases step_slots hs with
    | quiet hq _ _ => exact h.device.quiet hq
    | completed hc _ _ => exact h.device.completed hc
    | called _ hctrl _ _ _ =>
        rw [hctrl]
        exact h.device
    | accepted _ _ ha _ _ _ => exact h.device.accepted ha
    | @dispatched _ _ i _ _ hsel hctrl _ _ =>
        rw [hctrl]
        refine h.device.of_entries (startDispatch_entries s.ctrl i) fun j hj => ?_
        by_cases hji : j = i
        · subst hji
          exact ⟨by simp [(selectSlotLocked_spec hsel).1], by simp [startDispatch],
            by simp [startDispatch]⟩
        · simpa [startDispatch, hji] using hj
    | @reported _ i _ _ hst hctrl _ _ _ =>
        rw [hctrl]
        refine h.device.of_entries (releaseTransport_entries s.ctrl _) fun j hj => ?_
        rw [CtrlState.setSlot_slots, releaseTransport_slots] at hj ⊢
        by_cases hji : j = i
        · subst hji
          simp [hst]
        · simpa [hji] using hj
    | @cleared _ i _ hctrl _ _ =>
        rw [hctrl]
        refine h.device.of_entries (fun _ => ⟨rfl, rfl⟩) fun j hj => ?_
        by_cases hji : j = i
        · subst hji
          simp [clearSlot] at hj
        · simpa [clearSlot, hji] using hj

/-- **The tables are consistent in every reachable state.** -/
theorem tables_inv {s : Sys} (hs : machine.Reachable s) : TablesInv s.ctrl :=
  Machine.Reachable.invariant (I := fun s => TablesInv s.ctrl)
    (fun _ h => h ▸ TablesInv.boot) (fun _ _ _ h hst => h.step hst) hs

end BleGateway.Scheduler
