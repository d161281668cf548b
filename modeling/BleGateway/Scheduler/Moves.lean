import BleGateway.Scheduler.Select

/-! # What the critical sections can do

One inversion lemma for each critical section. Most sections are *quiet*: they move slots
along `SlotMove`, which never touches a job in flight, and leave the transport of every device
alone. The others are the acceptance of a job, its dispatch and its completion, the release of
the transport when it is reported, and the clearing of its slot. Lease entries move along
`LeaseMove`, except where a request is accepted, granted or reported.
-/

namespace BleGateway.Scheduler

/-! ## Moves of one record -/

/-- What a quiet section does to a slot. -/
inductive SlotMove (s : Slot) : Slot → Prop
  | stay : SlotMove s s
  | queue : s.state = .enqueuePending → SlotMove s { s with state := .queued }
  | finish (t : Terminal) : s.state ≠ .free → s.state ≠ .inflight → SlotMove s (s.finish t)
  | expire : s.waiting = true →
      SlotMove s { s with
        terminal := .deadlineExceeded, pendingResult := {}, state := .completionPending }

/-- What a section other than dispatch and completion does to a device entry. -/
structure DeviceMove (e e' : Device) : Prop where
  transport : e'.transportInflight = e.transportInflight
  kept : e.used = true →
    e'.used = true ∧ e'.inflightSlot = e.inflightSlot ∧ e'.deviceId = e.deviceId
  fresh : e.used = false → e'.used = true → e'.inflightSlot = none

/-- What a section does to a lease entry when it neither accepts, grants nor reports. -/
inductive LeaseMove (l : Lease) : Lease → Prop
  | stay : LeaseMove l l
  | cancel : l.state ≠ .free → l.state ≠ .active →
      LeaseMove l { l with completionStatus := .invalidState, state := .completionPending }
  | drop : l.state = .active → LeaseMove l { l with state := .free }

namespace SlotMove

variable {s s' : Slot}

theorem job (h : SlotMove s s') : s'.job = s.job := by
  cases h <;> rfl

theorem deviceIndex (h : SlotMove s s') : s'.deviceIndex = s.deviceIndex := by
  cases h <;> rfl

theorem completion (h : SlotMove s s') : s'.completion = s.completion := by
  cases h <;> rfl

theorem context (h : SlotMove s s') : s'.context = s.context := by
  cases h <;> rfl

theorem generation (h : SlotMove s s') : s'.generation = s.generation := by
  cases h <;> rfl

theorem free_iff (h : SlotMove s s') : s'.state = .free ↔ s.state = .free := by
  cases h with
  | stay => rfl
  | expire h => rcases (by simpa [Slot.waiting] using h) with h | h <;> simp [h]
  | _ => simp_all [Slot.finish]

/-- A quiet section dispatches nothing. -/
theorem inflight (h : SlotMove s s') (hs : s'.state = .inflight) : s' = s := by
  cases h with
  | stay => rfl
  | _ => simp_all [Slot.finish]

/-- A quiet section leaves a job in flight alone. -/
theorem of_inflight (h : SlotMove s s') (hs : s.state = .inflight) : s' = s := by
  cases h with
  | stay => rfl
  | queue h => simp [hs] at h
  | finish t _ h => exact absurd hs h
  | expire h => simp [Slot.waiting, hs] at h

/-- A quiet section takes no job for reporting. -/
theorem completing (h : SlotMove s s') (hs : s'.state = .completing) : s' = s := by
  cases h with
  | stay => rfl
  | _ => simp_all [Slot.finish]

/-- A job that waits after a quiet section has waited before. -/
theorem waiting (h : SlotMove s s') (hs : s'.waiting = true) : s.waiting = true := by
  cases h with
  | stay => exact hs
  | queue h => simp [Slot.waiting, h]
  | _ => simp_all [Slot.waiting, Slot.finish]

end SlotMove

/-- Two moves of a lease entry are one. -/
theorem LeaseMove.trans {l l' l'' : Lease} (h : LeaseMove l l') (h' : LeaseMove l' l'') :
    LeaseMove l l'' := by
  cases h with
  | stay => exact h'
  | cancel hf ha =>
      cases h' with
      | stay | cancel => exact .cancel hf ha
      | drop h => simp at h
  | drop ha =>
      cases h' with
      | stay => exact .drop ha
      | cancel h | drop h => simp at h

namespace DeviceMove

theorem refl (e : Device) : DeviceMove e e :=
  ⟨rfl, fun h => ⟨h, rfl, rfl⟩, fun h h' => by simp [h] at h'⟩

theorem trans {e e' e'' : Device} (h : DeviceMove e e') (h' : DeviceMove e' e'') :
    DeviceMove e e'' where
  transport := h'.transport.trans h.transport
  kept hu := by
    obtain ⟨hu', hin, hid⟩ := h.kept hu
    obtain ⟨hu'', hin', hid'⟩ := h'.kept hu'
    exact ⟨hu'', hin'.trans hin, hid'.trans hid⟩
  fresh hu hu'' := by
    by_cases hu' : e'.used = true
    · rw [(h'.kept hu').2.1]
      exact h.fresh hu hu'
    · exact h'.fresh (by simpa using hu') hu''

end DeviceMove

/-- What such a section does to the device table: entries in use are kept, and a new one is
made behind them. -/
structure DevicesMove (g g' : CtrlState) : Prop where
  entry : ∀ d, DeviceMove (g.devices d) (g'.devices d)
  order : ∀ d, (g.devices d).used = false → (g'.devices d).used = true →
    ∀ d' < d, (g'.devices d').used = true

namespace DevicesMove

theorem refl (g : CtrlState) : DevicesMove g g :=
  ⟨fun _ => .refl _, fun _ h h' => by simp [h] at h'⟩

variable {g g' : CtrlState} {d : DevIx}

theorem of_eq (h : g'.devices = g.devices) : DevicesMove g g' :=
  ⟨fun _ => h ▸ .refl _, fun _ hu hu' => by simp [h, hu] at hu'⟩

theorem trans {g'' : CtrlState} (h : DevicesMove g g') (h' : DevicesMove g' g'') :
    DevicesMove g g'' where
  entry d := (h.entry d).trans (h'.entry d)
  order d hu hu'' d' hlt := by
    by_cases hu' : (g'.devices d).used = true
    · exact ((h'.entry d').kept (h.order d hu hu' d' hlt)).1
    · exact h'.order d (by simpa using hu') hu'' d' hlt

/-- Writing the lease or a flag of one entry. -/
theorem setDevice (g : CtrlState) {e : Device} (hu : e.used = (g.devices d).used)
    (ht : e.transportInflight = (g.devices d).transportInflight)
    (hi : e.inflightSlot = (g.devices d).inflightSlot) (hid : e.deviceId = (g.devices d).deviceId) :
    DevicesMove g (g.setDevice d e) := by
  have hentry (d' : DevIx) : ((g.setDevice d e).devices d').used = (g.devices d').used := by
    by_cases hd : d' = d
    · subst hd
      simpa using hu
    · simp [hd]
  refine ⟨fun d' => ?_, fun d' h h' => ?_⟩
  · by_cases hd : d' = d
    · subst hd
      simp only [CtrlState.setDevice_devices, Function.update_self]
      exact ⟨ht, fun h => ⟨hu.trans h, hi, hid⟩, fun h h' => by simp [hu, h] at h'⟩
    · simpa [hd] using DeviceMove.refl _
  · rw [hentry, h] at h'
    exact absurd h' (by decide)

end DevicesMove

/-- A section queues every submitted job or none. -/
def QueuesAll (g g' : CtrlState) : Prop :=
  (∀ i, (g'.slots i).state ≠ .enqueuePending) ∨
    ∀ i, (g'.slots i).state = .queued → (g.slots i).state = .queued

/-- A section that only moves slots and leaves the transport of every device alone. -/
structure Quiet (g g' : CtrlState) : Prop where
  slots : ∀ i, SlotMove (g.slots i) (g'.slots i)
  devices : DevicesMove g g'
  inflight : g'.inflight = g.inflight
  running : g'.running = true → g.running = true
  queues : QueuesAll g g'

/-- A section that touches neither the lease table nor the lease of a device. -/
structure LeasesKept (g g' : CtrlState) : Prop where
  leases : g'.leases = g.leases
  device : ∀ d, (g'.devices d).lease = (g.devices d).lease

theorem Quiet.refl (g : CtrlState) : Quiet g g :=
  ⟨fun _ => .stay, .refl g, rfl, id, Or.inr fun _ => id⟩

theorem LeasesKept.refl (g : CtrlState) : LeasesKept g g := ⟨rfl, fun _ => rfl⟩

variable {g g' : CtrlState} {d : DevIx}

theorem LeasesKept.trans {g'' : CtrlState} (h : LeasesKept g g') (h' : LeasesKept g' g'') :
    LeasesKept g g'' :=
  ⟨h'.leases.trans h.leases, fun d => (h'.device d).trans (h.device d)⟩

/-- A section that changes only slots is quiet when every slot makes a move. -/
theorem Quiet.of_slots (hdev : g'.devices = g.devices) (hin : g'.inflight = g.inflight)
    (hrun : g'.running = g.running) (hqueues : QueuesAll g g')
    (h : ∀ i, SlotMove (g.slots i) (g'.slots i)) : Quiet g g' :=
  ⟨h, .of_eq hdev, hin, hrun ▸ id, hqueues⟩

/-- Writing the lease or a flag of one device entry is quiet. -/
theorem Quiet.setDevice (h : Quiet g g') {e : Device} (hu : e.used = (g'.devices d).used)
    (ht : e.transportInflight = (g'.devices d).transportInflight)
    (hi : e.inflightSlot = (g'.devices d).inflightSlot)
    (hid : e.deviceId = (g'.devices d).deviceId) :
    Quiet g (g'.setDevice d e) :=
  ⟨h.slots, h.devices.trans (.setDevice g' hu ht hi hid), h.inflight, h.running, h.queues⟩

/-- Writing one lease entry is quiet. -/
theorem Quiet.setLease (h : Quiet g g') (i : DevIx) (l : Lease) :
    Quiet g (g'.setLease i l) :=
  ⟨h.slots, ⟨h.devices.entry, h.devices.order⟩, h.inflight, h.running, h.queues⟩

/-! ## The device table -/

variable {id : CString} {i : SlotIx}

theorem findDevice_spec (h : findDevice g id = some d) :
    (g.devices d).used = true ∧ (g.devices d).deviceId.text = id := by
  simpa using (Fin.find?_eq_some_iff.mp h).1

theorem freeDevice_spec (h : freeDevice g = some d) :
    (g.devices d).used = false ∧ ∀ d' < d, (g.devices d').used = true := by
  obtain ⟨hd, hlt⟩ := Fin.find?_eq_some_iff.mp h
  refine ⟨by simpa using hd, fun d' hd' => ?_⟩
  simpa using hlt d' hd'

/-- Looking up a device, or making its entry, is quiet and leaves slots and leases alone. -/
theorem findOrCreateDevice_quiet (g : CtrlState) (id : CString) :
    Quiet g (findOrCreateDevice g id).1 := by
  unfold findOrCreateDevice
  split
  · exact .refl g
  · split
    · rename_i d hd
      obtain ⟨hfree, hbefore⟩ := freeDevice_spec hd
      refine ⟨fun _ => .stay, ⟨fun d' => ?_, fun d' hu hu' d'' hlt => ?_⟩, rfl, fun h => h,
        Or.inr fun _ h => h⟩
      · by_cases hdd : d' = d
        · subst hdd
          simp only [CtrlState.setDevice_devices, Function.update_self]
          exact ⟨rfl, fun hu => by simp [hfree] at hu, fun _ _ => rfl⟩
        · simpa [hdd] using DeviceMove.refl _
      · by_cases hdd : d' = d
        · subst hdd
          simpa [ne_of_lt hlt] using hbefore d'' hlt
        · simp [hdd, hu] at hu'
    · exact .refl g

theorem findOrCreateDevice_leases (g : CtrlState) (id : CString) :
    LeasesKept g (findOrCreateDevice g id).1 := by
  unfold findOrCreateDevice
  split
  · exact .refl g
  · split
    · rename_i d _
      refine ⟨rfl, fun d' => ?_⟩
      by_cases hd : d' = d
      · subst hd; simp
      · simp [hd]
    · exact .refl g

theorem findOrCreateDevice_slots (g : CtrlState) (id : CString) :
    (findOrCreateDevice g id).1.slots = g.slots := by
  unfold findOrCreateDevice
  split
  · rfl
  · split <;> rfl

theorem findOrCreateDevice_used (h : (findOrCreateDevice g id).2 = some d) :
    ((findOrCreateDevice g id).1.devices d).used = true := by
  unfold findOrCreateDevice at h ⊢
  split at h
  · rename_i d' hd'
    obtain rfl : d' = d := by simpa using h
    simpa [hd'] using (findDevice_spec hd').1
  · rename_i hnone
    split at h
    · cases h
      simp
    · simp at h

/-- The entry that is found or made is the one later searches find, when the id fits. -/
theorem findDevice_findOrCreateDevice (hid : id.length < DEVICE_ID_MAX_LEN)
    (h : (findOrCreateDevice g id).2 = some d) :
    findDevice (findOrCreateDevice g id).1 id = some d := by
  unfold findOrCreateDevice at h ⊢
  split at h
  · rename_i d' hd'
    cases h
    exact hd'
  · rename_i hnone
    split at h
    · cases h
      rename_i d hd
      have hother :
          ∀ d', ((g.devices d').used && decide ((g.devices d').deviceId.text = id)) = false :=
        fun d' => by simpa using Fin.find?_eq_none_iff.mp hnone d'
      refine Fin.find?_eq_some_iff.mpr ⟨?_, fun d' hlt => ?_⟩
      · simp [strlcpy_text hid]
      · simpa [ne_of_lt hlt] using hother d'
    · simp at h

/-! ## Submit -/

theorem freeSlot_spec (h : freeSlot g = some i) :
    (g.slots i).state = .free := by
  simpa using (Fin.find?_eq_some_iff.mp h).1

/-- The slot `i` of a queued duplicate that an accepted or refused `REPLACE_QUEUED` job
withdraws. -/
def superseded (g : CtrlState) (job : Job) (i : SlotIx) : Bool :=
  job.dedupe = .replaceQueued && duplicateAt g job i

/-- What `device_control_scheduler_submit` does when it accepts. -/
structure Accepted (g g' : CtrlState) (job : Job) (completion context : Ptr) (now : Int)
    (i : SlotIx) : Prop where
  running : g.running = true
  wanted : completion ≠ 0
  free : freeSlot g = some i
  slot : ∃ id d, g'.slots i =
    acceptedSlot (g.slots i).generation id job completion context d now ∧
      findDevice g' job.deviceId = some d
  others : ∀ j, j ≠ i → g'.slots j =
    if superseded g job j then (g.slots j).finish .superseded else g.slots j
  devices : DevicesMove g g'
  inflight : g'.inflight = g.inflight

variable {job : Job} {completion context : Ptr} {now : Int}

theorem Accepted.move (ha : Accepted g g' job completion context now i) {j : SlotIx} (hj : j ≠ i) :
    SlotMove (g.slots j) (g'.slots j) := by
  rw [ha.others j hj]
  split
  · rename_i hs
    have hq : (g.slots j).state = .queued := by
      simp only [superseded, duplicateAt, Bool.and_eq_true, decide_eq_true_eq] at hs
      exact hs.2.1
    exact .finish _ (by simp [hq]) (by simp [hq])
  · exact .stay

/-- A section in which each slot stays or is finished queues nothing. -/
theorem QueuesAll.of_finish {p : SlotIx → Prop} [DecidablePred p] {t : Terminal}
    (h : ∀ i, g'.slots i = if p i then (g.slots i).finish t else g.slots i) :
    QueuesAll g g' := by
  refine Or.inr fun i hi => ?_
  rw [h i] at hi
  split at hi
  · simp [Slot.finish] at hi
  · exact hi

theorem supersede_quiet (g : CtrlState) (job : Job) : Quiet g (supersede g job) := by
  refine .of_slots rfl rfl rfl (.of_finish fun _ => rfl) fun i => ?_
  simp only [supersede]
  split
  · rename_i h
    have hq : (g.slots i).state = .queued := by
      simp only [duplicateAt, Bool.and_eq_true, decide_eq_true_eq] at h
      exact h.1
    exact .finish _ (by simp [hq]) (by simp [hq])
  · exact .stay

/-! What the last part of a submit does, by the search for a free slot. -/

theorem enqueue_none (h : freeSlot g = none) :
    enqueue g job completion context d now = (g, .noMem, none) := by
  unfold enqueue
  rw [h]

theorem enqueue_some (h : freeSlot g = some i) :
    enqueue g job completion context d now =
      ({ g.setSlot i (acceptedSlot (g.slots i).generation (nextId g.nextJob) job completion
          context d now) with nextJob := nextId g.nextJob }, .ok, some (nextId g.nextJob)) := by
  unfold enqueue
  rw [h]

/-- What a submit may answer: it is refused and at most withdraws queued duplicates, or it is
accepted. -/
def SubmitOutcome (g : CtrlState) (job : Option Job) (completion context : Ptr) (now : Int)
    (r : CtrlState × EspErr × Option UInt32) : Prop :=
  (r.2.1 ≠ .ok ∧ Quiet g r.1) ∨
    (r.2.1 = .ok ∧ ∃ j i, job = some j ∧ Accepted g r.1 j completion context now i)

theorem SubmitOutcome.refused {job : Option Job} {err : EspErr} {out : Option UInt32}
    (he : err ≠ .ok) (h : Quiet g g') :
    SubmitOutcome g job completion context now (g', err, out) :=
  Or.inl ⟨he, h⟩

/-- The last part of a submit, on the slots of `g` without the superseded duplicates. -/
theorem enqueue_spec {g₀ : CtrlState} (hrun : g.running = true) (hwanted : completion ≠ 0)
    (hd : findDevice g₀ job.deviceId = some d)
    (hslots :
      ∀ i, g₀.slots i = if superseded g job i then (g.slots i).finish .superseded else g.slots i)
    (hq : Quiet g g₀) :
    SubmitOutcome g (some job) completion context now
      (enqueue g₀ job completion context d now) := by
  have hfree : freeSlot g₀ = freeSlot g :=
    congrArg Fin.find? (funext fun i => decide_eq_decide.mpr (hq.slots i).free_iff)
  cases hf : freeSlot g₀ with
  | none =>
      rw [enqueue_none hf]
      exact .refused (by decide) hq
  | some i =>
      rw [enqueue_some hf]
      refine Or.inr ⟨rfl, job, i, rfl, hrun, hwanted, hfree ▸ hf,
        ⟨nextId g₀.nextJob, d, ?_, hd⟩, fun j hj => ?_, ⟨hq.devices.entry, hq.devices.order⟩,
        hq.inflight⟩
      · simp only [CtrlState.setSlot_slots, Function.update_self, (hq.slots i).generation]
      · simpa [hj] using hslots j

theorem superseded_eq_false (h : job.dedupe ≠ .replaceQueued) (i : SlotIx) :
    superseded g job i = false := by
  simp [superseded, h]

/-- **What a submit can do.** -/
theorem submit_spec (g : CtrlState) (job : Option Job) (completion context : Ptr) (now : Int) :
    SubmitOutcome g job completion context now (submit g job completion context now) := by
  unfold submit
  cases job with
  | none => exact .refused (by decide) (.refl g)
  | some job =>
      have hq := findOrCreateDevice_quiet g job.deviceId
      have hslots := findOrCreateDevice_slots g job.deviceId
      have hfind {d : DevIx} := findDevice_findOrCreateDevice (g := g) (d := d)
        job.request.deviceId.bounded
      dsimp only
      split_ifs with harg hpri hrun
      · exact .refused (by decide) (.refl g)
      · exact .refused (by decide) (.refl g)
      · exact .refused (by decide) (.refl g)
      · change ∀ {d}, (findOrCreateDevice g job.deviceId).2 = some d → findDevice
          (findOrCreateDevice g job.deviceId).1 job.deviceId = some d at hfind
        generalize findOrCreateDevice g job.deviceId = r at hq hslots hfind ⊢
        obtain ⟨g₀, _ | d⟩ := r
        · exact .refused (by decide) hq
        · have hd : findDevice g₀ job.deviceId = some d := hfind rfl
          replace hslots : g₀.slots = g.slots := hslots
          have hwanted : completion ≠ 0 := fun h => harg (Or.inl h)
          have hrun' : g.running = true := by simpa using hrun
          have hkept (hne : job.dedupe ≠ .replaceQueued) : SubmitOutcome g (some job)
              completion context now (enqueue g₀ job completion context d now) := by
            refine enqueue_spec hrun' hwanted hd (fun i => ?_) hq
            rw [superseded_eq_false hne, hslots]
            rfl
          cases hdd : job.dedupe with
          | none => exact hkept (by simp [hdd])
          | dropIfExists =>
              dsimp only
              split
              · exact .refused (by decide) hq
              · exact hkept (by simp [hdd])
          | replaceQueued =>
              have hdup : duplicateAt g₀ job = duplicateAt g job := by
                funext i
                simp only [duplicateAt, hslots]
              have hsup (i : SlotIx) : (supersede g₀ job).slots i =
                  if superseded g job i then (g.slots i).finish .superseded else g.slots i := by
                simp only [supersede, superseded, hdd, hdup, hslots, decide_true, Bool.true_and]
              refine enqueue_spec hrun' hwanted hd hsup ⟨fun i => ?_,
                ⟨hq.devices.entry, hq.devices.order⟩, hq.inflight, hq.running, ?_⟩
              · have hmove := (supersede_quiet g₀ job).slots i
                rwa [hslots] at hmove
              · exact .of_finish (t := .superseded) (p := fun i => superseded g job i = true) hsup

theorem enqueue_leases (g : CtrlState) (job : Job) (completion context : Ptr) (d : DevIx)
    (now : Int) : LeasesKept g (enqueue g job completion context d now).1 := by
  cases hf : freeSlot g with
  | none => rw [enqueue_none hf]; exact .refl g
  | some i => rw [enqueue_some hf]; exact ⟨rfl, fun _ => rfl⟩

theorem submit_leases (g : CtrlState) (job : Option Job) (completion context : Ptr) (now : Int) :
    LeasesKept g (submit g job completion context now).1 := by
  unfold submit
  cases job with
  | none => exact .refl g
  | some job =>
      have hl := findOrCreateDevice_leases g job.deviceId
      dsimp only
      split_ifs
      · exact .refl g
      · exact .refl g
      · exact .refl g
      · generalize findOrCreateDevice g job.deviceId = r at hl ⊢
        obtain ⟨g₀, _ | d⟩ := r
        · exact hl
        · cases job.dedupe with
          | none => exact hl.trans (enqueue_leases ..)
          | dropIfExists =>
              dsimp only
              split
              · exact hl
              · exact hl.trans (enqueue_leases ..)
          | replaceQueued =>
              have hs : LeasesKept g (supersede g₀ job) := ⟨hl.leases, hl.device⟩
              exact hs.trans (enqueue_leases ..)

/-! ## Stop, cancel and block -/

theorem deinitMark_quiet (g : CtrlState) : Quiet g (deinitMark g) := by
  refine .of_slots rfl rfl rfl (.of_finish fun _ => rfl) fun i => ?_
  simp only [deinitMark]
  split
  · rename_i h
    exact .finish _ h.1 h.2
  · exact .stay

theorem cancelSlots_quiet (sel : Selector) (g : CtrlState) : Quiet g (cancelSlots sel g) := by
  refine .of_slots rfl rfl rfl (.of_finish fun _ => rfl) fun i => ?_
  simp only [cancelSlots]
  split
  · rename_i h
    have hfree : (g.slots i).state ≠ .free := by
      have hm := h.1
      simp only [Selector.matchesSlot, Bool.and_eq_true, decide_eq_true_eq] at hm
      exact hm.1
    exact .finish _ hfree h.2
  · exact .stay

/-- What the rounds of the lease loop keep, the loop keeps. -/
theorem cancelLeases_induction {P : CtrlState → Prop} (sel : Selector)
    (hround : ∀ g i, (g.leases i).state ≠ .free → P g → P (cancelLease g i)) (h : P g) :
    P (cancelLeases sel g) := by
  refine List.foldlRecOn _ _ h fun g hg i _ => ?_
  split
  · rename_i hm
    simp only [Selector.matchesLease, Bool.and_eq_true, decide_eq_true_eq] at hm
    exact hround g i hm.1 hg
  · exact hg

theorem cancelLease_slots (g : CtrlState) (i : DevIx) : (cancelLease g i).slots = g.slots := by
  simp only [cancelLease]
  split <;> rfl

theorem cancelLease_inflight (g : CtrlState) (i : DevIx) :
    (cancelLease g i).inflight = g.inflight := by
  simp only [cancelLease]
  split <;> rfl

theorem cancelLease_running (g : CtrlState) (i : DevIx) :
    (cancelLease g i).running = g.running := by
  simp only [cancelLease]
  split <;> rfl

theorem cancelLease_devices (g : CtrlState) (i : DevIx) : DevicesMove g (cancelLease g i) := by
  simp only [cancelLease]
  split
  · have hm := DevicesMove.setDevice g (d := (g.leases i).deviceIndex)
      (e := { g.devices (g.leases i).deviceIndex with lease := 0 }) rfl rfl rfl rfl
    exact ⟨hm.entry, hm.order⟩
  · exact ⟨fun _ => .refl _, fun _ h h' => by simp [h] at h'⟩

theorem cancelMatch_fst (sel : Selector) (g : CtrlState) :
    (cancelMatch sel g).1 = cancelLeases sel (cancelSlots sel g) := by
  unfold cancelMatch
  dsimp only

theorem cancelMatch_quiet (sel : Selector) (g : CtrlState) : Quiet g (cancelMatch sel g).1 := by
  rw [cancelMatch_fst]
  have hq := cancelSlots_quiet sel g
  refine cancelLeases_induction (P := Quiet g) sel (fun g' i _ hg' => ?_) hq
  refine ⟨fun j => ?_, hg'.devices.trans (cancelLease_devices g' i), ?_, ?_, ?_⟩
  · rw [cancelLease_slots]
    exact hg'.slots j
  · rw [cancelLease_inflight]
    exact hg'.inflight
  · rw [cancelLease_running]
    exact hg'.running
  · rw [QueuesAll, cancelLease_slots]
    exact hg'.queues

theorem cancelMatch_leases (sel : Selector) (g : CtrlState) (j : DevIx) :
    LeaseMove (g.leases j) ((cancelMatch sel g).1.leases j) := by
  rw [cancelMatch_fst]
  refine cancelLeases_induction (P := fun g' => LeaseMove (g.leases j) (g'.leases j)) sel
    (fun g' i hfree hg' => hg'.trans ?_) LeaseMove.stay
  simp only [cancelLease]
  by_cases hj : j = i
  · subst hj
    split
    · rename_i ha
      simpa using LeaseMove.drop ha
    · rename_i ha
      simpa using LeaseMove.cancel hfree ha
  · split <;> simpa [hj] using LeaseMove.stay

/-- What the three cancel functions do: nothing, or `ctrl_cancel_match`. -/
def Cancels (g g' : CtrlState) : Prop := g' = g ∨ ∃ sel, g' = (cancelMatch sel g).1

theorem cancelJob_cancels (g : CtrlState) (id : UInt32) : Cancels g (cancelJob g id).1 := by
  unfold cancelJob
  split
  · exact Or.inl rfl
  · exact Or.inr ⟨_, rfl⟩

theorem cancelSource_cancels (g : CtrlState) (id : Option CString) (source : Source)
    (owner : UInt32) : Cancels g (cancelSource g id source owner).1 := by
  cases id with
  | none => exact Or.inl rfl
  | some id => exact Or.inr ⟨.source id source owner, rfl⟩

theorem cancelDevice_cancels (g : CtrlState) (id : Option CString) :
    Cancels g (cancelDevice g id).1 := by
  cases id with
  | none => exact Or.inl rfl
  | some id => exact Or.inr ⟨.device id, rfl⟩

theorem Cancels.quiet (h : Cancels g g') : Quiet g g' := by
  rcases h with h | ⟨sel, h⟩
  · rw [h]
    exact .refl _
  · rw [h]
    exact cancelMatch_quiet _ _

theorem Cancels.leases (h : Cancels g g') (j : DevIx) :
    LeaseMove (g.leases j) (g'.leases j) := by
  rcases h with h | ⟨sel, h⟩
  · rw [h]
    exact .stay
  · rw [h]
    exact cancelMatch_leases _ _ _

theorem blockDevice_spec (g : CtrlState) (id : Option CString) :
    Quiet g (blockDevice g id).1 ∧ LeasesKept g (blockDevice g id).1 := by
  unfold blockDevice
  split
  · exact ⟨.refl g, .refl g⟩
  · exact ⟨.refl g, .refl g⟩
  · rename_i id _
    have hq := findOrCreateDevice_quiet g id
    have hl := findOrCreateDevice_leases g id
    generalize findOrCreateDevice g id = r at hq hl ⊢
    obtain ⟨g₀, _ | d⟩ := r
    · exact ⟨hq, hl⟩
    · refine ⟨Quiet.setDevice hq rfl rfl rfl rfl, hl.trans ⟨rfl, fun d' => ?_⟩⟩
      by_cases hd : d' = d
      · subst hd; simp
      · simp [hd]

theorem unblockDevice_spec (g : CtrlState) (id : Option CString) :
    Quiet g (unblockDevice g id).1 ∧ LeasesKept g (unblockDevice g id).1 := by
  unfold unblockDevice
  split
  · exact ⟨.refl g, .refl g⟩
  · rename_i id
    generalize findDevice g id = r
    cases r with
    | none => exact ⟨.refl g, .refl g⟩
    | some d =>
        refine ⟨(Quiet.refl g).setDevice rfl rfl rfl rfl, rfl, fun d' => ?_⟩
        by_cases hd : d' = d
        · subst hd; simp
        · simp [hd]

/-! ## Leases -/

/-- The lease of entry `i` ends. -/
def dropLease (g : CtrlState) (i : DevIx) : CtrlState :=
  (g.setDevice (g.leases i).deviceIndex
    { g.devices (g.leases i).deviceIndex with lease := 0 }).setLease i
      { g.leases i with state := .free }

/-- The device takes the lease of entry `i`. -/
def grantLease (g : CtrlState) (i : DevIx) : CtrlState :=
  (g.setDevice (g.leases i).deviceIndex
    { g.devices (g.leases i).deviceIndex with lease := (g.leases i).id }).setLease i
      { g.leases i with state := .active }

/-- The device may be leased. -/
def Device.leasable (d : Device) : Bool := !d.blocked && !d.transportInflight && d.lease = 0

theorem dropLease_quiet (g : CtrlState) (i : DevIx) : Quiet g (dropLease g i) := by
  refine Quiet.setLease ((Quiet.refl g).setDevice ?_ ?_ ?_ ?_) _ _ <;> rfl

theorem grantLease_quiet (g : CtrlState) (i : DevIx) : Quiet g (grantLease g i) := by
  refine Quiet.setLease ((Quiet.refl g).setDevice ?_ ?_ ?_ ?_) _ _ <;> rfl

theorem cancelLease_of_active {i : DevIx} (h : (g.leases i).state = .active) :
    cancelLease g i = dropLease g i := by
  simp only [cancelLease, h, if_true, dropLease]

theorem cancelLease_of_not_active {i : DevIx} (h : (g.leases i).state ≠ .active) :
    cancelLease g i = g.setLease i
      { g.leases i with completionStatus := .invalidState, state := .completionPending } := by
  simp only [cancelLease, if_neg h]

theorem freeLease_spec {i : DevIx} (h : freeLease g = some i) :
    (g.leases i).state = .free := by
  simpa using (Fin.find?_eq_some_iff.mp h).1

/-- What `device_control_scheduler_acquire_lease` does when it accepts. -/
structure LeaseAccepted (g g' : CtrlState) (r : LeaseRequest) (completion context : Ptr)
    (i : DevIx) : Prop where
  running : g.running = true
  wanted : completion ≠ 0
  free : freeLease g = some i
  entry : ∃ id d, id ≠ 0 ∧ g'.leases =
    Function.update g.leases i (acceptedLease id r completion context d)
  device : ∀ d, (g'.devices d).lease = (g.devices d).lease

/-- What a lease request may answer. -/
def AcquireOutcome (g : CtrlState) (request : Option LeaseRequest) (completion context : Ptr)
    (r : CtrlState × EspErr) : Prop :=
  Quiet g r.1 ∧ ((r.2 ≠ .ok ∧ LeasesKept g r.1) ∨
    (r.2 = .ok ∧ ∃ q i, request = some q ∧ LeaseAccepted g r.1 q completion context i))

theorem AcquireOutcome.refused {request : Option LeaseRequest} {err : EspErr} (he : err ≠ .ok)
    (hq : Quiet g g') (hl : LeasesKept g g') :
    AcquireOutcome g request completion context (g', err) :=
  ⟨hq, Or.inl ⟨he, hl⟩⟩

/-- **What a lease request can do.** -/
theorem acquireLease_spec (g : CtrlState) (request : Option LeaseRequest)
    (completion context : Ptr) :
    AcquireOutcome g request completion context
      (acquireLease g request completion context) := by
  unfold acquireLease
  split
  · exact .refused (by decide) (.refl g) (.refl g)
  · rename_i q
    split
    · exact .refused (by decide) (.refl g) (.refl g)
    · rename_i id _
      have hq := findOrCreateDevice_quiet g id
      have hl := findOrCreateDevice_leases g id
      split_ifs with harg hrun
      · exact .refused (by decide) (.refl g) (.refl g)
      · exact .refused (by decide) (.refl g) (.refl g)
      · generalize findOrCreateDevice g id = r at hq hl ⊢
        obtain ⟨g₀, _ | d⟩ := r
        · exact .refused (by decide) hq hl
        · have hfree : freeLease g₀ = freeLease g := by
            refine congrArg Fin.find? (funext fun i => ?_)
            rw [hl.leases]
          dsimp only
          cases hf : freeLease g₀ with
          | none => exact .refused (by decide) hq hl
          | some i =>
              have hq' : Quiet g (g₀.setLease i (acceptedLease (nextId g₀.nextLease) q completion
                  context d)) := Quiet.setLease hq _ _
              refine ⟨⟨hq'.slots, ⟨hq'.devices.entry, hq'.devices.order⟩, hq'.inflight,
                hq'.running, hq'.queues⟩, Or.inr ⟨rfl, q, i, rfl,
                by simpa using hrun, fun h => harg (Or.inl h), hfree ▸ hf,
                ⟨nextId g₀.nextLease, d, nextId_ne_zero _, ?_⟩, hl.device⟩⟩
              simp only [CtrlState.setLease_leases]
              rw [hl.leases]

/-- **What a lease release can do.** -/
theorem releaseLease_cases (g : CtrlState) (id : UInt32) :
    (releaseLease g id).1 = g ∨
      ∃ i, (g.leases i).state = .active ∧ (releaseLease g id).1 = dropLease g i := by
  unfold releaseLease
  split
  · exact Or.inl rfl
  · cases hf : activeLease g id with
    | none => exact Or.inl rfl
    | some i =>
        dsimp only
        split
        · exact Or.inl rfl
        · refine Or.inr ⟨i, ?_, rfl⟩
          have hi := (Fin.find?_eq_some_iff.mp hf).1
          simp only [Bool.and_eq_true, decide_eq_true_eq] at hi
          exact hi.1

theorem releaseLease_quiet (g : CtrlState) (id : UInt32) : Quiet g (releaseLease g id).1 := by
  rcases releaseLease_cases g id with hr | ⟨i, -, hr⟩ <;> rw [hr]
  · exact .refl g
  · exact dropLease_quiet g i

/-- The callback a request gets with this status; none when it gave no function. -/
def Lease.call (l : Lease) (status : EspErr) : Option LeaseCall :=
  if l.completion = 0 then none else some ⟨l.completion, l.context, status, l.id⟩

/-- **What `ctrl_process_leases` can do to an entry.** -/
theorem processLease_cases (g : CtrlState) (i : DevIx) :
    ((g.leases i).state = .completionPending ∧
      processLease g i = (g.setLease i {}, (g.leases i).call (g.leases i).completionStatus)) ∨
    ((g.leases i).state = .pending ∧ (g.devices (g.leases i).deviceIndex).leasable = true ∧
      processLease g i = (grantLease g i, (g.leases i).call .ok)) ∨
    ((g.leases i).state ≠ .completionPending ∧
      ((g.leases i).state = .pending → (g.devices (g.leases i).deviceIndex).leasable = false) ∧
      processLease g i = (g, none)) := by
  unfold processLease
  dsimp only
  cases hs : (g.leases i).state with
  | free => simp
  | active => simp
  | completionPending => simp [Lease.call]
  | pending =>
      by_cases hl : (g.devices (g.leases i).deviceIndex).leasable = true
      · refine Or.inr (Or.inl ⟨rfl, hl, ?_⟩)
        simp only [Device.leasable, Bool.and_eq_true, Bool.not_eq_true', decide_eq_true_eq] at hl
        dsimp only
        rw [if_pos ⟨hl.1.1, hl.1.2, hl.2⟩]
        rfl
      · refine Or.inr (Or.inr ⟨by simp, fun _ => by simpa using hl, ?_⟩)
        have hne : ¬((g.devices (g.leases i).deviceIndex).blocked = false ∧
            (g.devices (g.leases i).deviceIndex).transportInflight = false ∧
            (g.devices (g.leases i).deviceIndex).lease = 0) := by
          rintro ⟨hb, ht, h0⟩
          exact hl (by simp [Device.leasable, hb, ht, h0])
        simp only [if_neg hne]

/-! ## The worker's sections on slots -/

/-- After the first section of a pass no slot is `ENQUEUE_PENDING`. -/
theorem promote_state (g : CtrlState) (now : Int) (i : SlotIx) :
    ((promote g now).slots i).state ≠ .enqueuePending := by
  simp only [promote, promoteSlot]
  by_cases hp : (g.slots i).state = .enqueuePending
  · simp only [hp, if_true, true_and]
    split <;> simp
  · simp only [hp, if_false]
    split
    · simp
    · exact hp

theorem promote_quiet (g : CtrlState) (now : Int) : Quiet g (promote g now) := by
  refine .of_slots rfl rfl rfl (Or.inl (promote_state g now)) fun i => ?_
  simp only [promote, promoteSlot]
  by_cases hp : (g.slots i).state = .enqueuePending
  · simp only [hp, if_true, true_and]
    split
    · exact .expire (by simp [Slot.waiting, hp])
    · exact .queue hp
  · simp only [hp, if_false]
    split
    · rename_i h
      exact .expire (by simp [Slot.waiting, h.1])
    · exact .stay

/-- The slot of a dispatched job after its completion, or its refusal. -/
def Slot.complete (s : Slot) (r : DeviceCommandResult) : Slot :=
  { s with
    pendingResult := r, terminal := .command, completionWritten := true,
    state := .completionPending }

/-- The job in flight in slot `i` completes, and nothing else changes. -/
structure Completes (g g' : CtrlState) (i : SlotIx) : Prop where
  inflight : (g.slots i).state = .inflight
  slots : ∃ r, g'.slots = Function.update g.slots i ((g.slots i).complete r)
  devices : g'.devices = g.devices
  count : g'.inflight = g.inflight
  running : g'.running = g.running

theorem dcsComplete_cases (g : CtrlState) (k : SlotIx) (result : Option DeviceCommandResult) :
    dcsComplete g k result = g ∨ ∃ i, Completes g (dcsComplete g k result) i := by
  simp only [dcsComplete]
  split
  · split
    · exact Or.inl rfl
    · rename_i h
      refine Or.inr ⟨_, by_contra fun hne => h (Or.inl hne), ⟨_, rfl⟩, rfl, rfl, rfl⟩
  · exact Or.inl rfl

/-- The completion of a dispatched job whose context is its own. -/
theorem dcsComplete_eq {k : SlotIx} {result : Option DeviceCommandResult}
    (hs : (g.slots k).state = .inflight) (hw : (g.slots k).completionWritten = false)
    (hc : (g.slots k).dcsContext = ⟨k, (g.slots k).generation⟩) :
    dcsComplete g k result =
      g.setSlot k ((g.slots k).complete (result.getD { status := .internal })) := by
  have hk : k.val < DEVICE_CTRL_MAX_JOBS := k.isLt
  simp only [dcsComplete, hc, hk, dif_pos, Fin.eta, hs, hw]
  simp [Slot.complete, hc]

theorem dispatchFailed_cases (g : CtrlState) (i : SlotIx) (err : EspErr) :
    ((g.slots i).state ≠ .inflight ∧ dispatchFailed g i err = g) ∨
      Completes g (dispatchFailed g i err) i := by
  simp only [dispatchFailed]
  split
  · rename_i h
    exact Or.inr ⟨h, ⟨_, rfl⟩, rfl, rfl, rfl⟩
  · rename_i h
    exact Or.inl ⟨h, rfl⟩

theorem completeSlot_cases (g : CtrlState) (i : SlotIx) :
    ((g.slots i).state ≠ .completionPending ∧ completeSlot g i = (g, none)) ∨
    ((g.slots i).state = .completionPending ∧ completeSlot g i =
      ((releaseTransport g i).setSlot i { g.slots i with state := .completing },
        some ⟨(g.slots i).completion, (g.slots i).context,
          ⟨(g.slots i).id, (g.slots i).terminal, (g.slots i).pendingResult⟩⟩)) := by
  simp only [completeSlot]
  by_cases h : (g.slots i).state = .completionPending
  · exact Or.inr ⟨h, by simp only [h, ne_eq, not_true_eq_false, if_false]⟩
  · exact Or.inl ⟨h, by simp only [ne_eq, h, not_false_eq_true, if_true]⟩

/-- A dispatch takes the selected slot while fewer than the maximum are in flight. -/
theorem dispatchOne_cases (g : CtrlState) :
    dispatchOne g = (g, none) ∨
      ∃ i, g.inflight < DEVICE_CTRL_MAX_INFLIGHT ∧ selectSlotLocked g = some i ∧
        dispatchOne g = (startDispatch g i, some i) := by
  unfold dispatchOne
  split
  · exact Or.inl rfl
  · rename_i hlt
    cases hsel : selectSlotLocked g with
    | none => exact Or.inl rfl
    | some i => exact Or.inr ⟨i, by omega, rfl, rfl⟩

end BleGateway.Scheduler
