import BleGateway.BleCentral.Slots

/-! # Device records and connection slots

A registered record names a slot exactly when the slot is not FREE and carries the index of the
record, so no two records share a slot. Two sections can break this. A rollback looks for the
record by the slot alone, so a stale reference takes the slot from the record that has it now. And
a record may be finalized, and its place registered again, while a slot still carries the index.
-/

namespace BleGateway.BleCentral

namespace Central

variable {c c' : Central}

/-- The slot is not FREE and carries the index of the record. -/
def Carries (c : Central) (i : SlotIx) (d : DeviceIx) : Prop :=
  (c.slots i).state ≠ .free ∧ (c.slots i).deviceIndex = some d

/-- Registered records and slots that are not FREE name each other. -/
def Linked (c : Central) : Prop :=
  ∀ d, (c.devices d).inUse = true → ∀ i, (c.devices d).connectionSlot = some i ↔ c.Carries i d

/-- At most one slot is CONNECTING. -/
def OneConnecting (c : Central) : Prop :=
  ∀ i j, (c.slots i).state = .connecting → (c.slots j).state = .connecting → i = j

/-- **The mapping between device records and slots.** -/
structure Mapped (c : Central) : Prop where
  device_iff : ∀ d, (c.devices d).inUse = true → ∀ i,
    (c.devices d).connectionSlot = some i ↔
      (c.slots i).state ≠ .free ∧ (c.slots i).deviceIndex = some d
  not_shared : ∀ d e i, (c.devices d).inUse = true → (c.devices e).inUse = true →
    (c.devices d).connectionSlot = some i → (c.devices e).connectionSlot = some i → d = e
  connecting : ∀ i j, (c.slots i).state = .connecting → (c.slots j).state = .connecting → i = j

variable {d : DeviceIx} {i : SlotIx}

theorem Linked.not_shared (h : c.Linked) {e : DeviceIx} (hd : (c.devices d).inUse = true)
    (he : (c.devices e).inUse = true) (hdi : (c.devices d).connectionSlot = some i)
    (hei : (c.devices e).connectionSlot = some i) :
    d = e := by
  have hcd := ((h d hd i).mp hdi).2
  have hce := ((h e he i).mp hei).2
  exact Option.some.inj (hcd.symm.trans hce)

theorem Linked.mapped (h : c.Linked) (hone : c.OneConnecting) : c.Mapped :=
  ⟨h, fun _ _ _ hd he hdi hei => h.not_shared hd he hdi hei, hone⟩

theorem deviceOf_spec (h : c.deviceOf i = some d) :
    (c.devices d).inUse = true ∧ (c.devices d).connectionSlot = some i := by
  simpa using (Fin.find?_eq_some_iff.mp h).1

theorem deviceOf_eq_none : c.deviceOf i = none ↔
    ∀ d, (c.devices d).inUse = true → (c.devices d).connectionSlot ≠ some i := by
  simp [deviceOf]

/-! ## Records and slots -/

/-- Only whether a record is registered, the slot it names and what the slots carry counts. -/
theorem Linked.congr (h : c.Linked)
    (hd : ∀ d, (c'.devices d).inUse = true → (c.devices d).inUse = true ∧
      (c'.devices d).connectionSlot = (c.devices d).connectionSlot)
    (hs : ∀ i, ((c'.slots i).state = .free ↔ (c.slots i).state = .free) ∧
      (c'.slots i).deviceIndex = (c.slots i).deviceIndex) : c'.Linked := by
  intro d hu i
  obtain ⟨hu', hslot⟩ := hd d hu
  obtain ⟨hfree, hix⟩ := hs i
  rw [hslot, h d hu' i, Carries, Carries, hix, ne_eq, ne_eq, not_congr hfree]

/-- A slot becomes FREE, and the records that named it name none. -/
theorem Linked.unlink (h : c.Linked) (hs : c'.slots = Function.update c.slots i (c.slots i).free)
    (hd : ∀ d, (c'.devices d).inUse = true → (c.devices d).inUse = true ∧
      (c'.devices d).connectionSlot =
        if (c.devices d).connectionSlot = some i then none else (c.devices d).connectionSlot) :
    c'.Linked := by
  intro d hu j
  obtain ⟨hu', hslot⟩ := hd d hu
  rw [hslot, Carries, hs]
  have hj := h d hu' j
  by_cases hji : j = i
  · subst hji
    rw [Function.update_self]
    simp [Slot.free]
  · rw [Function.update_of_ne hji]
    split
    · rename_i hi
      have hne : ¬ c.Carries j d := fun hc => hji (Option.some.inj ((hj.mpr hc).symm.trans hi))
      exact iff_of_false (by simp) hne
    · exact hj

/-- A slot becomes FREE together with the record that names it. -/
theorem Linked.unlinkDevice (h : c.Linked) {dev : Device} (hu : (c.devices d).inUse = true)
    (hslot : (c.devices d).connectionSlot = some i) (hnone : dev.connectionSlot = none) :
    ((c.setSlot i (c.slots i).free).setDevice d dev).Linked := by
  refine h.unlink rfl (fun e he => ?_)
  simp only [setDevice_devices, setSlot_devices, Function.update_apply] at he ⊢
  by_cases hed : e = d
  · subst hed
    rw [if_pos rfl, if_pos hslot]
    exact ⟨hu, hnone⟩
  · rw [if_neg hed] at he ⊢
    rw [if_neg (fun hei => hed (h.not_shared he hu hei hslot))]
    exact ⟨he, rfl⟩

theorem Linked.nextDevice (h : c.Linked) (nowMs : Int) : (c.nextDevice nowMs).1.Linked := by
  unfold Central.nextDevice
  split <;> exact h

/-- A record is registered in a place whose index no slot carries. -/
theorem Linked.findOrRegister (h : c.Linked) (id : DeviceId)
    (hnew : ∀ d, c.find id = none → Directory.vacant Device.inUse c.devices = some d →
      ∀ i, ¬ c.Carries i d) : (c.findOrRegister id).1.Linked := by
  unfold Central.findOrRegister
  split
  · refine h.congr (fun e he => ?_) (fun i => ⟨Iff.rfl, rfl⟩)
    simp only [setDevice_devices, Function.update_apply] at he ⊢
    split at he <;> simp_all
  · rename_i hnone
    split
    · rename_i d hvac
      intro e he i
      simp only [Carries, setDevice_devices, setDevice_slots, Function.update_apply] at he ⊢
      split at he <;> rename_i hed
      · subst hed
        have hni := hnew e hnone hvac i
        simpa [Device.registered, Carries] using hni
      · rw [if_neg hed]
        exact h e he i
    · exact h

theorem Linked.reserveConnection (h : c.Linked) {nowMs : Int} {ref : Ref}
    (hr : c.reserveConnection d nowMs = .ok (c', ref)) : c'.Linked := by
  obtain ⟨hu, hnone, -, -, hfree, -, rfl⟩ := reserveConnection_ok hr
  -- no slot carried the record, and no record named the slot
  have hd : ∀ i, ¬ c.Carries i d := by
    intro i hc
    have hi := (h d hu i).mpr hc
    rw [hnone] at hi
    cases hi
  have hi : ∀ e, (c.devices e).inUse = true → (c.devices e).connectionSlot ≠ some ref.slotIndex :=
    fun e he hei => ((h e he _).mp hei).1 hfree
  intro e he i
  simp only [Carries, setDevice_devices, setDevice_slots, setSlot_devices, setSlot_slots,
    Function.update_apply] at he ⊢
  by_cases hed : e = d
  · subst hed
    by_cases hir : i = ref.slotIndex
    · subst hir
      simp [Device.reserve, Slot.newLifetime]
    · have hne : ref.slotIndex ≠ i := fun he => hir he.symm
      have hnot := hd i
      simpa [Device.reserve, hir, hne, Carries] using hnot
  · rw [if_neg hed] at he ⊢
    by_cases hir : i = ref.slotIndex
    · subst hir
      have hne : d ≠ e := fun h => hed h.symm
      simpa [Slot.newLifetime, hne] using hi e he
    · rw [if_neg hir]
      exact h e he i

/-- A rollback finds its own slot, or no record names the slot any more. -/
def RollsBack (c : Central) (ref : Ref) : Prop :=
  c.refValid ref = true ∨ c.deviceOf ref.slotIndex = none

theorem Device.rollBack_inUse (dev : Device) (nowMs : Int) :
    (dev.rollBack nowMs).inUse = dev.inUse := by
  unfold Device.rollBack Device.scheduleRetry
  split <;> rfl

theorem Device.rollBack_slot (dev : Device) (nowMs : Int) :
    (dev.rollBack nowMs).connectionSlot = none := by
  unfold Device.rollBack Device.scheduleRetry
  split <;> rfl

theorem Linked.rollbackConnectionStart (h : c.Linked) {ref : Ref} (hok : c.RollsBack ref)
    (nowMs : Int) : (c.rollbackConnectionStart ref nowMs).Linked := by
  dsimp only [Central.rollbackConnectionStart]
  cases hdev : c.deviceOf ref.slotIndex with
  | none =>
      have hno := deviceOf_eq_none.mp hdev
      simp only
      split
      · refine h.unlink rfl (fun d hd => ⟨hd, ?_⟩)
        rw [if_neg (hno d hd), setSlot_devices]
      · exact h
  | some d =>
      obtain ⟨hu, hslot⟩ := deviceOf_spec hdev
      have hvalid : c.refValid ref = true := by
        rcases hok with hv | hn
        · exact hv
        · rw [hdev] at hn
          cases hn
      have hix : (c.slots ref.slotIndex).deviceIndex = some d := ((h d hu _).mp hslot).2
      have hfree : c.refValid ref = true ∧ (c.slots ref.slotIndex).deviceIndex ≠ none := by
        rw [hix]
        exact ⟨hvalid, by simp⟩
      simp only [if_pos hfree]
      exact h.unlinkDevice hu hslot (Device.rollBack_slot ..)

theorem Linked.noteFailure (h : c.Linked) (d : DeviceIx) (nowMs : Int) :
    (c.noteFailure d nowMs).Linked := by
  simp only [Central.noteFailure]
  split
  · rename_i hd
    cases hslot : (c.devices d).connectionSlot with
    | none =>
        refine h.congr (fun e he => ?_) (fun i => ⟨Iff.rfl, rfl⟩)
        simp only [setDevice_devices, Function.update_apply] at he ⊢
        by_cases hed : e = d
        · subst hed
          rw [if_pos rfl, hslot]
          exact ⟨hd.1, rfl⟩
        · rw [if_neg hed] at he ⊢
          exact ⟨he, rfl⟩
    | some i =>
        have hix : (c.slots i).deviceIndex = some d := ((h d hd.1 i).mp hslot).2
        simp only [if_pos hix]
        exact h.unlinkDevice hd.1 hslot rfl
  · exact h

theorem Device.disconnect_inUse (dev : Device) (nowMs : Int) :
    (dev.disconnect nowMs).inUse = dev.inUse := by
  unfold Device.disconnect Device.scheduleRetry
  split <;> rfl

theorem Device.disconnect_slot (dev : Device) (nowMs : Int) :
    (dev.disconnect nowMs).connectionSlot = none := by
  unfold Device.disconnect Device.scheduleRetry
  split <;> rfl

/-- A valid reference leads to the slot, and the slot to the record that names it. -/
theorem Linked.onDisconnect (h : c.Linked) (ref : Ref) (handle : UInt16) (nowMs : Int) :
    (c.onDisconnect ref handle nowMs).1.Linked := by
  simp only [Central.onDisconnect]
  split
  swap
  · exact h
  rename_i hok
  have hlive : (c.slots ref.slotIndex).state ≠ .free := by
    have := hok.1
    simp only [refValid, Bool.and_eq_true, decide_eq_true_eq] at this
    exact this.1
  -- what a registered record names is what the slot carries
  have hnames : ∀ e, (c.devices e).inUse = true →
      ((c.devices e).connectionSlot = some ref.slotIndex ↔
        (c.slots ref.slotIndex).deviceIndex = some e) := by
    intro e he
    rw [h e he, Carries]
    exact and_iff_right hlive
  cases hix : (c.slots ref.slotIndex).deviceIndex with
  | none =>
      refine h.unlink rfl (fun e he => ⟨he, ?_⟩)
      rw [if_neg (by rw [hnames e he, hix]; simp), setSlot_devices]
  | some d =>
      simp only
      split
      · rename_i hu
        exact h.unlinkDevice hu ((hnames d hu).mpr hix) (Device.disconnect_slot ..)
      · rename_i hu
        refine h.unlink rfl (fun e he => ⟨he, ?_⟩)
        have hne : d ≠ e := by
          rintro rfl
          exact hu he
        rw [if_neg (by rw [hnames e he, hix]; simpa using hne), setSlot_devices]

theorem Device.hostReset_slot (dev : Device) (h : dev.hostReset.inUse = true) :
    dev.hostReset.connectionSlot = none := by
  unfold Device.hostReset at h ⊢
  split at h
  · simp_all
  · rename_i hu
    rw [if_neg hu]
    split at h
    · cases h
    · rename_i hrem
      rw [if_neg hrem]

theorem Slot.hostReset_state (slot : Slot) : slot.hostReset.state = .free := by
  unfold Slot.hostReset
  split
  · assumption
  · rfl

theorem Linked.handleHostReset (c : Central) : c.handleHostReset.Linked := by
  intro d hu i
  have hnone : (c.handleHostReset.devices d).connectionSlot = none :=
    Device.hostReset_slot (c.devices d) hu
  have hfree : (c.handleHostReset.slots i).state = .free := Slot.hostReset_state (c.slots i)
  rw [hnone]
  exact iff_of_false (by simp) (fun hc => hc.1 hfree)

/-- A record is changed without its slot, or ceases to be registered. -/
theorem Linked.setDevice (h : c.Linked) {dev : Device}
    (hd : dev.inUse = true → (c.devices d).inUse = true ∧
      dev.connectionSlot = (c.devices d).connectionSlot) :
    (c.setDevice d dev).Linked := by
  refine h.congr (fun e he => ?_) (fun i => ⟨Iff.rfl, rfl⟩)
  simp only [setDevice_devices, Function.update_apply] at he ⊢
  by_cases hed : e = d
  · subst hed
    rw [if_pos rfl] at he ⊢
    exact hd he
  · rw [if_neg hed] at he ⊢
    exact ⟨he, rfl⟩

/-- A slot that is not FREE is changed and keeps its record. -/
theorem Linked.setSlot (h : c.Linked) {slot : Slot} (hlive : (c.slots i).state ≠ .free)
    (hlive' : slot.state ≠ .free) (hix : slot.deviceIndex = (c.slots i).deviceIndex) :
    (c.setSlot i slot).Linked := by
  refine h.congr (fun e he => ⟨he, rfl⟩) (fun j => ?_)
  rw [setSlot_slots]
  by_cases hji : j = i
  · subst hji
    rw [Function.update_self]
    exact ⟨iff_of_false hlive' hlive, hix⟩
  · rw [Function.update_of_ne hji]
    exact ⟨Iff.rfl, rfl⟩

theorem Linked.requestDisconnect (h : c.Linked) (d : DeviceIx) :
    (c.requestDisconnect d).Linked := by
  dsimp only [Central.requestDisconnect]
  split
  · split
    · exact h
    · rename_i hlive
      exact h.setSlot (fun hf => hlive (.inl hf)) (by simp) rfl
  · exact h

theorem Linked.requestForget (h : c.Linked) (d : DeviceIx) : (c.requestForget d).1.Linked := by
  have hmarked : (c.setDevice d (c.devices d).remove).Linked := by
    refine h.setDevice fun hu => ?_
    unfold Device.remove at hu ⊢
    split at hu <;> rename_i hrem
    · rw [if_pos hrem]
      exact ⟨hu, rfl⟩
    · rw [if_neg hrem]
      exact ⟨hu, rfl⟩
  dsimp only [Central.requestForget]
  split
  · split
    · exact hmarked
    · split
      · exact hmarked
      · rename_i hlive _
        exact hmarked.setSlot hlive (by simp) rfl
  · exact hmarked

theorem Linked.finalizeRemove (h : c.Linked) (d : DeviceIx) : (c.finalizeRemove d).Linked := by
  unfold Central.finalizeRemove
  split
  · exact h.setDevice (by simp)
  · exact h

theorem Linked.onConnectSuccess (h : c.Linked) (ref : Ref) (handle : UInt16) :
    (c.onConnectSuccess ref handle).1.Linked := by
  dsimp only [Central.onConnectSuccess]
  split
  · rename_i hok
    have hset : (c.setSlot ref.slotIndex { c.slots ref.slotIndex with
        connHandle := handle
        state := .securing }).Linked := h.setSlot (refValid_iff.mp hok.1).1 (by simp) rfl
    split <;> exact hset
  · exact h

/-- A device that is registered now would get a place whose index no slot carries. -/
def Places (c : Central) (id : DeviceId) : Prop :=
  ∀ d, c.find id = none → Directory.vacant Device.inUse c.devices = some d → ∀ i, ¬ c.Carries i d

end Central

/-! ## Runs -/

open Central

/-- The condition of the mapping: rollbacks find their own slot or no record, and registered
records get places that no slot carries. -/
def Keeps (s : Sys) : Label → Prop
  | .request id => s.central.Places id
  | .call k _ _ =>
      match s.calls[k]? with
      | some (.rollback _ _ ref _) => s.central.RollsBack ref
      | _ => True
  | _ => True

namespace Sys

variable {s s' : Sys} {l : Label}

theorem linked_step (h : s.central.Linked) (hok : Keeps s l) (hs : s.step l = some s') :
    s'.central.Linked := by
  have hmove := step_move hs
  generalize s'.central = c at hmove ⊢
  cases hmove with
  | same => exact h
  | nextDevice => exact h.nextDevice _
  | registered => exact h.findOrRegister _ hok
  | reserved call reserve => exact h.reserveConnection reserve
  | acquired call =>
      unfold Central.ctxAcquire
      split
      · split <;> exact h
      · exact h
  | released call | ctxReleased host =>
      unfold Central.ctxReleaseByRef
      split <;> exact h
  | rolledBack call =>
      simp only [Keeps, call] at hok
      exact h.rollbackConnectionStart hok _
  | failureNoted call => exact h.noteFailure _ _
  | disconnectAsked call => exact h.requestDisconnect _
  | forgetAsked call => exact h.requestForget _
  | finalized call | removed host => exact h.finalizeRemove _
  | linked host => exact h.onConnectSuccess _ _
  | identified host =>
      unfold Central.setPeerAddr
      split
      · rename_i hu
        exact h.setDevice fun _ => ⟨hu, rfl⟩
      · exact h
  | lost host => exact h.onDisconnect _ _ _
  | discovering host =>
      dsimp only [Central.beginDiscovery]
      split
      · rename_i hv
        exact h.setSlot (refValid_iff.mp hv.1).1 (by simp) rfl
      · exact h
  | ready host =>
      unfold Central.setReady
      split
      · rename_i hv
        exact h.setSlot (refValid_iff.mp hv).1 (by simp) rfl
      · exact h
  | succeeded host =>
      unfold Central.noteSuccess
      split
      · rename_i hu
        exact h.setDevice fun _ => ⟨hu.1, rfl⟩
      · exact h
  | reset => exact .handleHostReset _

variable {i : SlotIx}

/-- Only a reservation makes a slot CONNECTING. -/
theorem slotMove_connecting {slot : Slot} (h : SlotMove s l i slot)
    (hc : slot.state = .connecting) :
    (s.central.slots i).state = .connecting ∨
      ∃ k ok nowMs caller d ref c, l = .call k ok nowMs ∧ s.calls[k]? = some (.start caller d) ∧
        s.central.reserveConnection d nowMs = .ok (c, ref) ∧ ref.slotIndex = i := by
  cases h with
  | same => exact .inl hc
  | reserved label call reserve slot => exact .inr ⟨_, _, _, _, _, _, _, label, call, reserve, slot⟩
  | freed | linked | discovering | ready | disconnecting => cases hc
  | reset label =>
      rw [Slot.hostReset_state] at hc
      cases hc

theorem oneConnecting_step (h : s.central.OneConnecting) (hs : s.step l = some s') :
    s'.central.OneConnecting := by
  intro i j hi hj
  rcases slotMove_connecting (slot_move (step_move hs) i) hi with hi' |
    ⟨k, ok, nowMs, caller, d, ref, c, rfl, hcall, hres, rfl⟩ <;>
  rcases slotMove_connecting (slot_move (step_move hs) j) hj with hj' |
    ⟨k', ok', nowMs', caller', d', ref', c', hl, hcall', hres', rfl⟩
  · exact h i j hi' hj'
  · exact absurd hi' ((reserveConnection_ok hres').2.2.2.1 i)
  · exact absurd hj' ((reserveConnection_ok hres).2.2.2.1 j)
  · -- both are the slot that this step reserves
    obtain ⟨rfl, rfl, rfl⟩ := Label.call.inj hl
    obtain ⟨rfl, rfl⟩ := Call.start.inj (Option.some.inj (hcall.symm.trans hcall'))
    have href := (Prod.mk.inj (Except.ok.inj (hres.symm.trans hres'))).2
    rw [href]

theorem Initial.linked (h : s.Initial) : s.central.Linked := by
  intro d hu i
  have hslot : (s.central.devices d).connectionSlot = none := by
    rcases h.devices d with hd | ⟨id, hd⟩
    · rw [hd] at hu
      cases hu
    · rw [hd]
      rfl
  rw [hslot, Carries, h.rest]
  simp

theorem Initial.oneConnecting (h : s.Initial) : s.central.OneConnecting := by
  intro i j hi
  rw [h.rest] at hi
  cases hi

end Sys

/-- **The mapping holds** in every state of every run whose rollbacks find their own slot or no
record and whose records are registered in places that no slot carries. -/
theorem slots_mapped {s : Sys} (hs : machine.ReachableWhen Keeps s) : s.central.Mapped := by
  have hlinked : s.central.Linked :=
    Machine.ReachableWhen.invariant (M := machine) (I := fun s => s.central.Linked)
      (fun _ h => Sys.Initial.linked h) (fun _ _ _ h hok hstep => Sys.linked_step h hok hstep) hs
  have hone : s.central.OneConnecting :=
    Machine.Reachable.invariant (M := machine) (I := fun s => s.central.OneConnecting)
      (fun _ h => Sys.Initial.oneConnecting h)
      (fun _ _ _ h hstep => Sys.oneConnecting_step h hstep) hs.reachable
  exact hlinked.mapped hone

/-! ## A stale rollback -/

def lamp : DeviceId := strlcpy _ [1]

def plug : DeviceId := strlcpy _ [2]

def lampIx : DeviceIx := ⟨0, devices_pos⟩

theorem one_lt_devices : 1 < DEVICE_STORE_MAX_DEVICES := by decide

def plugIx : DeviceIx := ⟨1, one_lt_devices⟩

/-- The first slot. -/
def slotA : SlotIx := ⟨0, slots_pos⟩

theorem one_lt_slots : 1 < BLE_CENTRAL_MAX_CONN := by decide

/-- The second slot. -/
def slotB : SlotIx := ⟨1, one_lt_slots⟩

/-- The component with two devices of the device store. -/
def twoDevices : Sys :=
  { central := { devices := fun d =>
      if d = lampIx then .registered lamp true
      else if d = plugIx then .registered plug true else {} } }

theorem twoDevices_initial : twoDevices.Initial where
  devices := by
    intro d
    dsimp only [twoDevices]
    split
    · exact .inr ⟨lamp, rfl⟩
    · split
      · exact .inr ⟨plug, rfl⟩
      · exact .inl rfl
  rest := rfl

/-- The supervisor's attempt for the lamp is overtaken by a reset of the host and by an attempt
for the plug, which gets the same slot. -/
def overtakenAttempt : List Label :=
  [.supervise 0, .call 0 true 0, .hostReset, .request plug, .call 1 true 0] ++
    [.call 0 true 0, .call 1 true 0, .call 1 true 0, .call 1 true 0]

/-- A slot is not FREE and the registered record whose index it carries names no slot. -/
def Central.unlinked (c : Central) (i : SlotIx) (d : DeviceIx) : Bool :=
  decide ((c.slots i).state ≠ .free) && decide ((c.slots i).deviceIndex = some d) &&
    (c.devices d).inUse && decide ((c.devices d).connectionSlot = none)

variable {d : DeviceIx} {i : SlotIx}

theorem Central.unlinked.not_mapped {c : Central} (h : c.unlinked i d = true) : ¬ c.Mapped := by
  intro hm
  simp only [unlinked, Bool.and_eq_true, decide_eq_true_eq] at h
  obtain ⟨⟨⟨hlive, hix⟩, hu⟩, hnone⟩ := h
  have hslot := (hm.device_iff d hu i).mpr ⟨hlive, hix⟩
  rw [hnone] at hslot
  cases hslot

set_option maxRecDepth 100000 in
/-- The rollback of the lamp's attempt takes the slot from the plug. -/
theorem stale_rollback : ¬ ∀ s, machine.Reachable s → s.central.Mapped := by
  intro h
  have hrun : (machine.run twoDevices overtakenAttempt).map (fun s =>
      s.central.unlinked slotA plugIx) = some true := by decide +kernel
  obtain ⟨s, hs, hun⟩ := Machine.exists_reachable_of_run twoDevices_initial hrun
  exact Central.unlinked.not_mapped hun (h s hs)

instance (c : Central) (i : SlotIx) (d : DeviceIx) : Decidable (c.Carries i d) :=
  inferInstanceAs (Decidable (_ ∧ _))

instance (c : Central) (id : DeviceId) : Decidable (c.Places id) :=
  inferInstanceAs (Decidable (∀ d, _ → _ → ∀ i, ¬ c.Carries i d))

instance (c : Central) (ref : Ref) : Decidable (c.RollsBack ref) :=
  inferInstanceAs (Decidable (_ ∨ _))

instance (s : Sys) : (l : Label) → Decidable (Keeps s l)
  | .request id => inferInstanceAs (Decidable (s.central.Places id))
  | .call k _ _ => by
      unfold Keeps
      dsimp only
      generalize s.calls[k]? = call
      exact match call with
        | some (.rollback _ _ ref _) => inferInstanceAs (Decidable (s.central.RollsBack ref))
        | some (.start ..) | some (.getDeviceId ..) | some (.getPeerAddr ..) | some (.acquire ..)
        | some (.connect ..) | some (.release ..) | some (.noteFailure ..) | some (.disconnect ..)
        | some (.forget ..) | some (.finalize ..) | none => instDecidableTrue
  | .supervise _ | .disconnect _ | .forget _ | .connectEvent _ | .disconnectEvent _
  | .encrypted .. | .subscribed .. | .host .. | .hostReset => instDecidableTrue

/-- An attempt for the lamp gives a link. -/
def linkLamp : List Label :=
  .request lamp :: List.replicate 5 (.call 0 true 0) ++ [.connectEvent (some 7)]

/-- The link is recorded. -/
def connectLamp : List Label := linkLamp ++ [.host true 0, .host true 0]

set_option maxRecDepth 100000 in
theorem slots_mapped_connectLamp :
    ∃ s : Sys, (s.central.slots slotA).state = .securing ∧ s.central.Mapped := by
  have hrun : (machine.runWhen Keeps twoDevices connectLamp).map (fun s =>
      decide ((s.central.slots slotA).state = .securing)) = some true := by decide +kernel
  obtain ⟨s, hs, hp⟩ := Machine.exists_reachableWhen_of_run twoDevices_initial hrun
  exact ⟨s, of_decide_eq_true hp, slots_mapped hs⟩

end BleGateway.BleCentral
