import BleGateway.BleCentral.Sections

/-! # What a step does to a connection slot

`SlotMove` lists what a step can do to one slot, with what the section that does it has checked.
-/

namespace BleGateway.BleCentral

namespace Central

variable {c c' : Central}

theorem firstSlot_spec {state : ConnState} {i : SlotIx} (h : c.firstSlot state = some i) :
    (c.slots i).state = state := by
  simpa using (Fin.find?_eq_some_iff.mp h).1

theorem firstSlot_eq_none {state : ConnState} :
    c.firstSlot state = none ↔ ∀ i, (c.slots i).state ≠ state := by
  simp [firstSlot]

/-- What `ble_state_reserve_connection` has checked when it succeeds. -/
theorem reserveConnection_ok {d : DeviceIx} {nowMs : Int} {ref : Ref}
    (h : c.reserveConnection d nowMs = .ok (c', ref)) :
    (c.devices d).inUse = true ∧ (c.devices d).connectionSlot = none ∧
      ((c.devices d).state = .offline ∨ (c.devices d).state = .backoff) ∧
      (∀ i, (c.slots i).state ≠ .connecting) ∧ (c.slots ref.slotIndex).state = .free ∧
      ref.generation = (c.slots ref.slotIndex).generation + 1 ∧
      c' = (c.setSlot ref.slotIndex ((c.slots ref.slotIndex).newLifetime d)).setDevice d
        ((c.devices d).reserve ref.slotIndex nowMs) := by
  simp only [reserveConnection] at h
  split at h
  · cases h
  rename_i huse
  split at h
  · cases h
  rename_i hstate
  split at h
  · cases h
  rename_i hslot
  split at h
  · cases h
  rename_i hconn
  split at h
  · cases h
  rename_i i hfree
  cases h
  refine ⟨by simpa using huse, by simpa using hslot, by grind, ?_, firstSlot_spec hfree, rfl, rfl⟩
  exact firstSlot_eq_none.mp (by simpa using hconn)

theorem refValid_iff {ref : Ref} : c.refValid ref = true ↔
    (c.slots ref.slotIndex).state ≠ .free ∧
      (c.slots ref.slotIndex).generation = ref.generation := by
  simp [refValid]

end Central

/-- What the step with this label leaves of slot `i`. -/
inductive SlotMove (s : Sys) (l : Label) (i : SlotIx) : Slot → Prop
  | same : SlotMove s l i (s.central.slots i)
  | reserved {k : Nat} {ok : Bool} {nowMs : Int} {caller : Caller} {d : DeviceIx} {ref : Ref}
      {c : Central} (label : l = .call k ok nowMs)
      (call : s.calls[k]? = some (.start caller d))
      (reserve : s.central.reserveConnection d nowMs = .ok (c, ref)) (slot : ref.slotIndex = i) :
      SlotMove s l i ((s.central.slots i).newLifetime d)
  | freed : SlotMove s l i (s.central.slots i).free
  | linked {handle : UInt16} (state : (s.central.slots i).state = .connecting) :
      SlotMove s l i { s.central.slots i with connHandle := handle, state := .securing }
  | discovering (state : (s.central.slots i).state = .securing) :
      SlotMove s l i { s.central.slots i with state := .discovering }
  | ready {found : Bool} {nowMs : Int} {k : CtxIx} {d : Option DeviceIx}
      (label : l = .host found nowMs) (host : s.host = .subscribed k d)
      (valid : s.central.refValid (s.central.ctxs k).ref = true)
      (slot : (s.central.ctxs k).ref.slotIndex = i) :
      SlotMove s l i { s.central.slots i with state := .ready }
  | disconnecting (live : (s.central.slots i).state ≠ .free) :
      SlotMove s l i { s.central.slots i with state := .disconnecting }
  | reset (label : l = .hostReset) : SlotMove s l i (s.central.slots i).hostReset

namespace Sys

variable {s s' : Sys} {l : Label}

/-- A slot that a section writes has moved if what is written is a move of it. -/
theorem slotMove_update {j : SlotIx} {slot : Slot} (h : SlotMove s l j slot) (i : SlotIx) :
    SlotMove s l i (Function.update s.central.slots j slot i) := by
  by_cases hij : i = j
  · subst hij
    rw [Function.update_self]
    exact h
  · rw [Function.update_of_ne hij]
    exact .same

/-- The sections that write a slot do one of the moves to it. -/
theorem slot_move {c : Central} (h : Move s l c) (i : SlotIx) : SlotMove s l i (c.slots i) := by
  cases h with
  | same => exact .same
  | nextDevice =>
      unfold Central.nextDevice
      split <;> exact .same
  | registered =>
      unfold Central.findOrRegister
      split
      · exact .same
      · split <;> exact .same
  | reserved call reserve =>
      obtain ⟨-, -, -, -, -, -, rfl⟩ := Central.reserveConnection_ok reserve
      exact slotMove_update (.reserved rfl call reserve rfl) i
  | acquired call =>
      unfold Central.ctxAcquire
      split
      · split <;> exact .same
      · exact .same
  | released call | ctxReleased host =>
      unfold Central.ctxReleaseByRef
      split <;> exact .same
  | @rolledBack k ok nowMs caller d ref err call =>
      dsimp only [Central.rollbackConnectionStart]
      split <;> split <;> first | exact slotMove_update .freed i | exact .same
  | failureNoted call =>
      dsimp only [Central.noteFailure]
      split
      · split
        · split
          · exact slotMove_update .freed i
          · exact .same
        · exact .same
      · exact .same
  | disconnectAsked call =>
      dsimp only [Central.requestDisconnect]
      split
      · split
        · exact .same
        · rename_i hlive
          exact slotMove_update (.disconnecting fun hf => hlive (.inl hf)) i
      · exact .same
  | forgetAsked call =>
      dsimp only [Central.requestForget]
      split
      · split
        · exact .same
        · split
          · exact .same
          · rename_i hlive _
            exact slotMove_update (.disconnecting hlive) i
      · exact .same
  | finalized call | removed host =>
      unfold Central.finalizeRemove
      split <;> exact .same
  | linked host =>
      dsimp only [Central.onConnectSuccess]
      split
      · rename_i hok
        split <;> exact slotMove_update (.linked hok.2) i
      · exact .same
  | identified host =>
      unfold Central.setPeerAddr
      split <;> exact .same
  | lost host =>
      dsimp only [Central.onDisconnect]
      split
      · split
        · split <;> exact slotMove_update .freed i
        · exact slotMove_update .freed i
      · exact .same
  | discovering host =>
      dsimp only [Central.beginDiscovery]
      split
      · rename_i hok
        exact slotMove_update (.discovering hok.2) i
      · exact .same
  | ready host =>
      unfold Central.setReady
      split
      · rename_i hok
        exact slotMove_update (.ready rfl host hok rfl) i
      · exact .same
  | succeeded host =>
      unfold Central.noteSuccess
      split <;> exact .same
  | reset => exact .reset rfl

end Sys

end BleGateway.BleCentral
