import BleGateway.BleCentral.Mapping

/-! # What a step does to a device record

`DeviceMove` lists what a step can do to one record.
-/

namespace BleGateway.BleCentral

/-- The step with this label finalizes the removal of record `d`. -/
inductive Finalizes (s : Sys) (d : DeviceIx) : Label → Prop
  | call {k : Nat} {ok : Bool} {nowMs : Int} (call : s.calls[k]? = some (.finalize d)) :
      Finalizes s d (.call k ok nowMs)
  | host {found : Bool} {nowMs : Int} {k : CtxIx} (host : s.host = .finalize k d) :
      Finalizes s d (.host found nowMs)

/-- What the step with this label leaves of record `d`. -/
inductive DeviceMove (s : Sys) (l : Label) (d : DeviceIx) : Device → Prop
  | same : DeviceMove s l d (s.central.devices d)
  | addressed : DeviceMove s l d { s.central.devices d with hasPeerAddr := true }
  | registered {id : DeviceId} : DeviceMove s l d (.registered id true)
  | reserved {i : SlotIx} {nowMs : Int} : DeviceMove s l d ((s.central.devices d).reserve i nowMs)
  | rolledBack {nowMs : Int} : DeviceMove s l d ((s.central.devices d).rollBack nowMs)
  | failed {nowMs : Int} : DeviceMove s l d ((s.central.devices d).fail nowMs)
  | disconnected {nowMs : Int} : DeviceMove s l d ((s.central.devices d).disconnect nowMs)
  | removing : DeviceMove s l d (s.central.devices d).remove
  | finalized (cause : Finalizes s d l) (state : (s.central.devices d).inUse = true ∧
      (s.central.devices d).state = .removing) : DeviceMove s l d {}
  | succeeded {nowMs : Int} : DeviceMove s l d
      { s.central.devices d with retryCount := 0, lastAttemptMs := nowMs, nextRetryMs := 0 }
  | reset (label : l = .hostReset) : DeviceMove s l d (s.central.devices d).hostReset

namespace Sys

variable {s s' : Sys} {l : Label}

theorem deviceMove_update {e : DeviceIx} {dev : Device} (h : DeviceMove s l e dev) (d : DeviceIx) :
    DeviceMove s l d (Function.update s.central.devices e dev d) := by
  by_cases hde : d = e
  · subst hde
    rw [Function.update_self]
    exact h
  · rw [Function.update_of_ne hde]
    exact .same

/-- A section writes at most one record, or resets them all. -/
theorem device_move {c : Central} (h : Move s l c) (d : DeviceIx) :
    DeviceMove s l d (c.devices d) := by
  cases h with
  | same => exact .same
  | nextDevice =>
      unfold Central.nextDevice
      split <;> exact .same
  | registered =>
      unfold Central.findOrRegister
      split
      · exact deviceMove_update .addressed d
      · split
        · exact deviceMove_update .registered d
        · exact .same
  | reserved call reserve =>
      obtain ⟨-, -, -, -, -, -, rfl⟩ := Central.reserveConnection_ok reserve
      exact deviceMove_update .reserved d
  | acquired call =>
      unfold Central.ctxAcquire
      split
      · split <;> exact .same
      · exact .same
  | released call | ctxReleased host =>
      unfold Central.ctxReleaseByRef
      split <;> exact .same
  | rolledBack call =>
      dsimp only [Central.rollbackConnectionStart]
      split <;> split <;> first | exact deviceMove_update .rolledBack d | exact .same
  | failureNoted call =>
      dsimp only [Central.noteFailure]
      split
      · split
        · split <;> exact deviceMove_update .failed d
        · exact deviceMove_update .failed d
      · exact .same
  | disconnectAsked call =>
      dsimp only [Central.requestDisconnect]
      split
      · split <;> exact .same
      · exact .same
  | forgetAsked call =>
      dsimp only [Central.requestForget]
      split
      · split
        · exact deviceMove_update .removing d
        · split <;> exact deviceMove_update .removing d
      · exact deviceMove_update .removing d
  | finalized call =>
      unfold Central.finalizeRemove
      split
      · rename_i hrem
        exact deviceMove_update (.finalized (.call call) hrem) d
      · exact .same
  | linked host =>
      dsimp only [Central.onConnectSuccess]
      split
      · split <;> exact .same
      · exact .same
  | identified host =>
      unfold Central.setPeerAddr
      split
      · exact deviceMove_update .addressed d
      · exact .same
  | lost host =>
      dsimp only [Central.onDisconnect]
      split
      · split
        · split
          · exact deviceMove_update .disconnected d
          · exact .same
        · exact .same
      · exact .same
  | removed host =>
      unfold Central.finalizeRemove
      split
      · rename_i hrem
        exact deviceMove_update (.finalized (.host host) hrem) d
      · exact .same
  | discovering host =>
      dsimp only [Central.beginDiscovery]
      split <;> exact .same
  | ready host =>
      unfold Central.setReady
      split <;> exact .same
  | succeeded host =>
      unfold Central.noteSuccess
      split
      · exact deviceMove_update .succeeded d
      · exact .same
  | reset => exact .reset rfl

end Sys

/-! ## What the records keep -/

namespace Central

/-- A record names a slot only while it is CONNECTING or REMOVING. The code never writes
CONNECTED. -/
def Busy (c : Central) : Prop :=
  ∀ d, (c.devices d).inUse = true → (c.devices d).connectionSlot ≠ none →
    (c.devices d).state = .connecting ∨ (c.devices d).state = .removing

/-- A slot that is not FREE carries a registered record. -/
def Owned (c : Central) : Prop :=
  ∀ i, (c.slots i).state ≠ .free →
    ∃ d, (c.slots i).deviceIndex = some d ∧ (c.devices d).inUse = true

/-- The removal of a record that no slot carries. -/
def Removable (c : Central) (d : DeviceIx) : Prop :=
  (c.devices d).inUse = true → (c.devices d).state = .removing → ∀ i, ¬ c.Carries i d

end Central

open Central

namespace Sys

variable {s s' : Sys} {l : Label}

theorem busy_step (h : s.central.Busy) (hs : s.step l = some s') : s'.central.Busy := by
  intro d
  have hmove := device_move (step_move hs) d
  generalize s'.central.devices d = dev at hmove ⊢
  cases hmove with
  | same | addressed | succeeded => exact h d
  | registered => exact fun _ hslot => absurd rfl hslot
  | reserved => exact fun _ _ => .inl rfl
  | rolledBack => exact fun _ hslot => absurd (Device.rollBack_slot _ _) hslot
  | failed => exact fun _ hslot => absurd rfl hslot
  | disconnected => exact fun _ hslot => absurd (Device.disconnect_slot _ _) hslot
  | removing =>
      intro hu hslot
      unfold Device.remove at hu hslot ⊢
      split
      · exact .inr rfl
      · rename_i hrem
        exact .inr (not_not.mp hrem)
  | finalized cause state =>
      intro hu
      cases hu
  | reset label => exact fun hu hslot => absurd (Device.hostReset_slot _ hu) hslot

/-- A registered record stays registered, unless it is finalized or the host resets. -/
theorem deviceMove_inUse {d : DeviceIx} {dev : Device} (h : DeviceMove s l d dev)
    (hu : (s.central.devices d).inUse = true) : dev.inUse = true ∨ l = .hostReset ∨
      (Finalizes s d l ∧ (s.central.devices d).state = .removing) := by
  cases h with
  | same | addressed | reserved | failed | succeeded => exact .inl hu
  | registered => exact .inl rfl
  | rolledBack => exact .inl ((Device.rollBack_inUse _ _).trans hu)
  | disconnected => exact .inl ((Device.disconnect_inUse _ _).trans hu)
  | removing =>
      refine .inl ?_
      unfold Device.remove
      split <;> exact hu
  | finalized cause state => exact .inr (.inr ⟨cause, state.2⟩)
  | reset label => exact .inr (.inl label)

/-- A slot that is live after a step was live with the same record, or the step reserves it. -/
theorem slotMove_live {i : SlotIx} {slot : Slot} (h : SlotMove s l i slot)
    (hlive : slot.state ≠ .free) :
    ((s.central.slots i).state ≠ .free ∧ slot.deviceIndex = (s.central.slots i).deviceIndex) ∨
      ∃ k ok nowMs caller d, l = .call k ok nowMs ∧ s.calls[k]? = some (.start caller d) ∧
        slot.deviceIndex = some d ∧ (s.central.devices d).inUse = true := by
  cases h with
  | same => exact .inl ⟨hlive, rfl⟩
  | reserved label call reserve hslot =>
      exact .inr ⟨_, _, _, _, _, label, call, rfl, (reserveConnection_ok reserve).1⟩
  | freed => exact absurd rfl hlive
  | linked state | discovering state =>
      refine .inl ⟨?_, rfl⟩
      rw [state]
      simp
  | ready label host valid hslot =>
      subst hslot
      exact .inl ⟨(refValid_iff.mp valid).1, rfl⟩
  | disconnecting live => exact .inl ⟨live, rfl⟩
  | reset label => exact absurd (Slot.hostReset_state _) hlive

theorem hostReset_central (hs : s.step .hostReset = some s') :
    s'.central = s.central.handleHostReset := by
  dsimp only [step] at hs
  split at hs
  · cases hs
    rfl
  · cases hs

theorem owned_step (h : s.central.Owned) (hok : ∀ d, Finalizes s d l → s.central.Removable d)
    (hs : s.step l = some s') : s'.central.Owned := by
  intro i hlive
  have hmove := step_move hs
  by_cases hl : l = .hostReset
  · subst hl
    rw [hostReset_central hs] at hlive
    exact absurd (Slot.hostReset_state _) hlive
  -- the record that the slot carries was registered and is not finalized
  obtain ⟨d, hix, hu, hkeep⟩ : ∃ d, (s'.central.slots i).deviceIndex = some d ∧
      (s.central.devices d).inUse = true ∧
        ¬ (Finalizes s d l ∧ (s.central.devices d).state = .removing) := by
    rcases slotMove_live (slot_move hmove i) hlive with ⟨hlive₀, hix⟩ |
      ⟨k, ok, nowMs, caller, d, rfl, hcall, hix, hu⟩
    · obtain ⟨d, hd, hu⟩ := h i hlive₀
      exact ⟨d, hix.trans hd, hu, fun ⟨hfin, hrem⟩ => hok d hfin hu hrem i ⟨hlive₀, hd⟩⟩
    · refine ⟨d, hix, hu, fun ⟨hfin, _⟩ => ?_⟩
      cases hfin with
      | call hfin =>
          rw [hcall] at hfin
          cases hfin
  refine ⟨d, hix, ?_⟩
  rcases deviceMove_inUse (device_move hmove d) hu with hu' | hreset | hfin
  · exact hu'
  · exact absurd hreset hl
  · exact absurd hfin hkeep

end Sys

end BleGateway.BleCentral
