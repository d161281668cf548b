import BleGateway.Scheduler.Invariant

/-! # Who blocks a device

Only `block_device` and `unblock_device` write the `blocked` flag of a device entry; every other
section of the scheduler leaves all of them as they are. Entries in use keep their device, and a
search that finds an entry in use has found it before.
-/

namespace BleGateway.Scheduler

/-- The flag of every entry is what it was. -/
def BlocksKept (g g' : CtrlState) : Prop :=
  ∀ d, (g'.devices d).blocked = (g.devices d).blocked

namespace BlocksKept

variable {g g' g'' : CtrlState}

theorem refl (g : CtrlState) : BlocksKept g g := fun _ => rfl

theorem of_eq (h : g'.devices = g.devices) : BlocksKept g g' := fun d => by rw [h]

theorem trans (h : BlocksKept g g') (h' : BlocksKept g' g'') : BlocksKept g g'' :=
  fun d => (h' d).trans (h d)

variable {d : DevIx}

/-- Writing an entry without touching its flag. -/
theorem of_update {e : Device} (h : g'.devices = Function.update g.devices d e)
    (he : e.blocked = (g.devices d).blocked) : BlocksKept g g' := by
  intro d'
  rw [h]
  by_cases hd : d' = d
  · subst hd
    rw [Function.update_self, he]
  · rw [Function.update_of_ne hd]

end BlocksKept

/-! ## The sections -/

theorem findOrCreateDevice_blocks (g : CtrlState) (id : CString) :
    BlocksKept g (findOrCreateDevice g id).1 := by
  unfold findOrCreateDevice
  split
  · exact .refl g
  · split
    · exact BlocksKept.of_update rfl rfl
    · exact .refl g

theorem enqueue_devices (g : CtrlState) (job : Job) (completion context : Ptr) (d : DevIx)
    (now : Int) : (enqueue g job completion context d now).1.devices = g.devices := by
  unfold enqueue
  split <;> rfl

theorem submit_blocks (g : CtrlState) (job : Option Job) (completion context : Ptr) (now : Int) :
    BlocksKept g (submit g job completion context now).1 := by
  unfold submit
  split
  · exact .refl g
  rename_i job
  split
  · exact .refl g
  split
  · exact .refl g
  split
  · exact .refl g
  have hb := findOrCreateDevice_blocks g job.deviceId
  split <;> rename_i hf <;> rw [hf] at hb
  · exact hb
  · split
    · exact hb.trans (.of_eq (enqueue_devices ..))
    · split
      · exact hb
      · exact hb.trans (.of_eq (enqueue_devices ..))
    · -- withdrawing the duplicates writes slots only
      exact hb.trans (.of_eq (enqueue_devices (supersede _ job) ..))

theorem cancelLease_blocks (g : CtrlState) (i : DevIx) : BlocksKept g (cancelLease g i) := by
  simp only [cancelLease]
  split
  · exact BlocksKept.of_update rfl rfl
  · exact .of_eq rfl

theorem Cancels.blocks {g g' : CtrlState} (h : Cancels g g') : BlocksKept g g' := by
  rcases h with h | ⟨sel, h⟩
  · exact .of_eq (congrArg CtrlState.devices h)
  · rw [h, cancelMatch_fst]
    have hslots : BlocksKept g (cancelSlots sel g) := .of_eq rfl
    exact cancelLeases_induction (P := BlocksKept g) sel
      (fun g' i _ hg' => hg'.trans (cancelLease_blocks g' i)) hslots

theorem acquireLease_blocks (g : CtrlState) (request : Option LeaseRequest)
    (completion context : Ptr) : BlocksKept g (acquireLease g request completion context).1 := by
  unfold acquireLease
  split
  · exact .refl g
  rename_i r
  split
  · exact .refl g
  rename_i id _
  split
  · exact .refl g
  split
  · exact .refl g
  have hb := findOrCreateDevice_blocks g id
  split <;> rename_i hf <;> rw [hf] at hb
  · exact hb
  · split
    · exact hb
    · exact hb.trans (.of_eq rfl)

theorem releaseLease_blocks (g : CtrlState) (id : UInt32) :
    BlocksKept g (releaseLease g id).1 := by
  rcases releaseLease_cases g id with h | ⟨i, -, h⟩ <;> rw [h]
  · exact .refl g
  · exact BlocksKept.of_update rfl rfl

theorem processLease_blocks (g : CtrlState) (i : DevIx) : BlocksKept g (processLease g i).1 := by
  rcases processLease_cases g i with ⟨-, h⟩ | ⟨-, -, h⟩ | ⟨-, -, h⟩ <;> rw [h]
  · exact .of_eq rfl
  · exact BlocksKept.of_update rfl rfl
  · exact .refl g

theorem releaseTransport_blocks (g : CtrlState) (i : SlotIx) :
    BlocksKept g (releaseTransport g i) := by
  unfold releaseTransport
  dsimp only
  split
  · exact BlocksKept.of_update rfl rfl
  · exact .refl g

theorem startDispatch_blocks (g : CtrlState) (i : SlotIx) : BlocksKept g (startDispatch g i) :=
  .of_update rfl rfl

/-! ## The steps -/

/-- The two calls that write the flag. -/
def Label.blocks : Label → Bool
  | .blockDevice _ => true
  | .unblockDevice _ => true
  | _ => false

theorem afterDispatch_devices (s : Sys) (final : Bool) (n : Fin DEVICE_CTRL_MAX_INFLIGHT) :
    (s.afterDispatch final n).ctrl.devices = s.ctrl.devices := by
  obtain ⟨w, stopped, he, -⟩ := afterDispatch_eq s final n
  rw [he]

theorem procStep_blocks (s : Sys) (final : Bool) (pc : ProcPc) (now : Int) (answer : EspErr) :
    BlocksKept s.ctrl (s.procStep final pc now answer).ctrl := by
  cases pc with
  | promote | completeClear => exact .of_eq rfl
  | lease i => exact processLease_blocks s.ctrl i
  | leaseCall | completeCall => exact .refl _
  | complete i =>
      show BlocksKept s.ctrl (completeSlot s.ctrl i).1
      rcases completeSlot_cases s.ctrl i with ⟨-, hc⟩ | ⟨-, hc⟩ <;> rw [hc]
      · exact .refl _
      · exact (releaseTransport_blocks s.ctrl i).trans (.of_eq rfl)
  | dispatch n =>
      simp only [Sys.procStep]
      rcases dispatchOne_cases s.ctrl with hd | ⟨i, -, -, hd⟩ <;> rw [hd]
      · exact .of_eq (afterDispatch_devices _ _ _)
      · exact startDispatch_blocks s.ctrl i
  | submitting n i =>
      simp only [Sys.procStep]
      split
      · exact .of_eq (afterDispatch_devices _ _ _)
      · exact .refl _
  | rejected n i err =>
      refine .of_eq ((afterDispatch_devices _ _ _).trans ?_)
      show (dispatchFailed s.ctrl i err).devices = s.ctrl.devices
      rcases dispatchFailed_cases s.ctrl i err with ⟨-, he⟩ | hc
      · rw [he]
      · exact hc.devices

variable {l : Label} {s s' : Sys} {d : DevIx}

theorem step_blocks (h : s.step l = some s') (hl : l.blocks = false) :
    BlocksKept s.ctrl s'.ctrl := by
  cases l with
  | submit job completion context now =>
      obtain ⟨jobs, ticket, rfl⟩ := step_submit h
      exact submit_blocks s.ctrl job completion context now
  | cancelJob | cancelSource | cancelDevice =>
      obtain ⟨g, rfl, hc⟩ := step_cancels h rfl
      exact hc.blocks
  | blockDevice | unblockDevice => cases hl
  | acquireLease request completion context =>
      obtain ⟨requests, ticket, rfl⟩ := step_acquire h
      exact acquireLease_blocks s.ctrl request completion context
  | releaseLease id =>
      cases h
      exact releaseLease_blocks s.ctrl id
  | worker now answer =>
      rcases step_worker h with ⟨-, rfl⟩ | ⟨final, pc, -, rfl⟩
      · exact .refl _
      · exact procStep_blocks s _ _ now answer
  | dcsComplete k result =>
      obtain ⟨-, ⟨⟩⟩ := Option.ite_none_right_eq_some.mp h
      rcases dcsComplete_cases s.ctrl k result with he | ⟨i, hc⟩
      · exact .of_eq (congrArg CtrlState.devices he)
      · exact .of_eq hc.devices
  | deinitMark | deinitStop | deinitReturn =>
      obtain ⟨-, ⟨⟩⟩ := Option.ite_none_right_eq_some.mp h
      exact .of_eq rfl

/-! ## Searches -/

/-- An entry in use stays in use, for the same device. -/
def EntriesKept (g g' : CtrlState) : Prop :=
  ∀ d, (g.devices d).used = true →
    (g'.devices d).used = true ∧ (g'.devices d).deviceId = (g.devices d).deviceId

theorem EntriesKept.of_move {g g' : CtrlState} (h : DevicesMove g g') : EntriesKept g g' := by
  intro d hu
  obtain ⟨hu', -, hid⟩ := (h.entry d).kept hu
  exact ⟨hu', hid⟩

/-- An entry that is not in use after a section was not in use before it. -/
theorem EntriesKept.unused {g g' : CtrlState} (h : EntriesKept g g')
    (hu' : (g'.devices d).used = false) : (g.devices d).used = false := by
  by_contra hu
  rw [(h d (by simpa using hu)).1] at hu'
  cases hu'

theorem EntriesKept.of_same {g g' : CtrlState}
    (h : ∀ d, (g'.devices d).used = (g.devices d).used ∧
      (g'.devices d).deviceId = (g.devices d).deviceId) : EntriesKept g g' :=
  fun d hu => ⟨(h d).1.trans hu, (h d).2⟩

theorem step_entries (h : s.step l = some s') :
    EntriesKept s.ctrl s'.ctrl := by
  cases step_slots h with
  | quiet hq _ _ => exact .of_move hq.devices
  | called _ hctrl _ _ _ | cleared _ hctrl _ _ =>
      rw [hctrl]
      exact .of_same fun _ => ⟨rfl, rfl⟩
  | accepted _ _ ha _ _ _ => exact .of_move ha.devices
  | completed hc _ _ => exact .of_move (.of_eq hc.devices)
  | dispatched _ _ _ hctrl _ _ =>
      rw [hctrl]
      exact .of_same (startDispatch_entries s.ctrl _)
  | reported _ _ hctrl _ _ _ =>
      rw [hctrl]
      exact .of_same (releaseTransport_entries s.ctrl _)

/-- The entry a search finds, when it was in use before, is the one the search found before. -/
theorem EntriesKept.findDevice_back {g g' : CtrlState} (h : EntriesKept g g') (hd : DeviceInv g)
    {id : CString} (hu : (g.devices d).used = true) (hf : findDevice g' id = some d) :
    findDevice g id = some d := by
  obtain ⟨hself, hbefore⟩ := Fin.find?_eq_some_iff.mp hf
  refine Fin.find?_eq_some_iff.mpr ⟨?_, fun d' hlt => ?_⟩
  · have hid := (h d hu).2
    simpa [hu, (h d hu).1, hid] using hself
  · -- the entries in front of `d` were in use as well
    have hu' := hd.first d hu d' hlt
    have hid := (h d' hu').2
    simpa [hu', (h d' hu').1, hid] using hbefore d' hlt

/-- An entry that is not in use is not blocked. -/
def FreshOpen (g : CtrlState) : Prop :=
  ∀ d, (g.devices d).used = false → (g.devices d).blocked = false

/-- An entry that is found and blocked after a step was found before it, with its old flag. -/
theorem found_before (h : s.step l = some s') (hd : DeviceInv s.ctrl) (hfresh : FreshOpen s.ctrl)
    {id : CString} (hf : findDevice s'.ctrl id = some d) (hb : (s.ctrl.devices d).blocked = true) :
    findDevice s.ctrl id = some d := by
  have hu : (s.ctrl.devices d).used = true := by
    by_contra hu
    rw [hfresh d (by simpa using hu)] at hb
    cases hb
  exact (step_entries h).findDevice_back hd hu hf

/-! ## Blocking and unblocking -/

/-- A block is refused and writes no flag, or it writes the flag of the entry it found or made. -/
theorem blockDevice_cases (g : CtrlState) (id : Option CString) :
    ((blockDevice g id).2 ≠ .ok ∧ BlocksKept g (blockDevice g id).1) ∨
    ∃ text d, id = some text ∧ (findOrCreateDevice g text).2 = some d ∧
      blockDevice g id =
        ((findOrCreateDevice g text).1.setDevice d
          { (findOrCreateDevice g text).1.devices d with blocked := true }, .ok) := by
  unfold blockDevice
  split
  · exact Or.inl ⟨by simp, .refl g⟩
  · exact Or.inl ⟨by simp, .refl g⟩
  · rename_i text _
    have hb := findOrCreateDevice_blocks g text
    generalize hr : findOrCreateDevice g text = r at hb ⊢
    obtain ⟨g₀, _ | d⟩ := r
    · exact Or.inl ⟨by simp, hb⟩
    · exact Or.inr ⟨text, d, rfl, by rw [hr], by rw [hr]⟩

/-- A block sets the flag of the entry of its device and of no other. -/
theorem blockDevice_blocked {g : CtrlState} {id : DeviceId}
    (hb : ((blockDevice g (some id.text)).1.devices d).blocked = true) :
    (g.devices d).blocked = true ∨ (blockDevice g (some id.text)).2 = .ok ∧
      ((blockDevice g (some id.text)).1.devices d).deviceId = id := by
  rcases blockDevice_cases g (some id.text) with ⟨-, hk⟩ | ⟨text, d', htext, hd', heq⟩
  · rw [hk d] at hb
    exact Or.inl hb
  · cases htext
    rw [heq] at hb ⊢
    by_cases hdd : d = d'
    · subst hdd
      have hid := (findDevice_spec (findDevice_findOrCreateDevice id.bounded hd')).2
      refine Or.inr ⟨rfl, ?_⟩
      simpa using CharBuf.ext hid
    · -- making the entry of the device writes no flag either
      have hk := findOrCreateDevice_blocks g id.text d
      simp only [CtrlState.setDevice_devices, Function.update_of_ne hdd] at hb
      exact Or.inl (hk ▸ hb)

/-- After an unblock the entry of the device is not blocked, and no flag has been set. -/
theorem unblockDevice_blocked {g : CtrlState} {id : CString}
    (hb : ((unblockDevice g (some id)).1.devices d).blocked = true) :
    (g.devices d).blocked = true ∧ findDevice g id ≠ some d := by
  unfold unblockDevice at hb
  dsimp only at hb
  split at hb
  · rename_i d' hd'
    by_cases hdd : d = d'
    · subst hdd
      simp at hb
    · simp only [CtrlState.setDevice_devices, Function.update_of_ne hdd] at hb
      refine ⟨hb, fun h => hdd ?_⟩
      rw [hd'] at h
      exact (Option.some.inj h).symm
  · rename_i hnone
    exact ⟨hb, by simp [hnone]⟩

/-! ## New entries -/

theorem blockDevice_fresh {g : CtrlState} (hf : FreshOpen g) (id : Option CString) :
    FreshOpen (blockDevice g id).1 := by
  intro d hu'
  rcases blockDevice_cases g id with ⟨-, hk⟩ | ⟨text, d', -, hd', heq⟩
  · rw [hk d]
    exact hf d ((EntriesKept.of_move (blockDevice_spec g id).1.devices).unused hu')
  · rw [heq] at hu' ⊢
    have hmade := findOrCreateDevice_used hd'
    by_cases hdd : d = d'
    · subst hdd
      simp [hmade] at hu'
    · simp only [CtrlState.setDevice_devices, Function.update_of_ne hdd] at hu' ⊢
      rw [findOrCreateDevice_blocks g text d]
      exact hf d ((EntriesKept.of_move (findOrCreateDevice_quiet g text).devices).unused hu')

/-- **Entries that are not in use are not blocked**, whatever a step does. -/
theorem FreshOpen.step (hf : FreshOpen s.ctrl) (h : s.step l = some s') : FreshOpen s'.ctrl := by
  have hunused (d : DevIx) (hu' : (s'.ctrl.devices d).used = false) :
      (s.ctrl.devices d).used = false := (step_entries h).unused hu'
  cases l with
  | blockDevice id =>
      cases h
      exact blockDevice_fresh hf id
  | unblockDevice id =>
      intro d hu'
      have hopen := hf d (hunused d hu')
      cases h
      cases id with
      | none => exact hopen
      | some id =>
          by_contra hb
          rw [Bool.not_eq_false] at hb
          have hold := (unblockDevice_blocked hb).1
          rw [hopen] at hold
          cases hold
  | _ =>
      intro d hu'
      rw [step_blocks h rfl d]
      exact hf d (hunused d hu')

theorem FreshOpen.boot : FreshOpen boot.ctrl := fun _ _ => rfl

end BleGateway.Scheduler
