import BleGateway.BleCentral.Mapping

/-! # The life cycle of a connection slot

Within one generation the state of a slot moves forward only, from CONNECTING through SECURING,
DISCOVERING, READY and DISCONNECTING to FREE, and a new generation begins in a FREE slot or with
a reset of the host. `ble_state_set_ready` does not look at the state: a CCCD write that
completes late makes a slot READY that is DISCONNECTING.
-/

namespace BleGateway.BleCentral

/-- The place of a state in the life of a connection. -/
def ConnState.rank : ConnState → Nat
  | .connecting => 0
  | .securing => 1
  | .discovering => 2
  | .ready => 3
  | .disconnecting => 4
  | .free => 5

/-- A slot may become another one in one step: within the generation the state does not go back,
and a new generation begins in a FREE slot, or leaves the slot FREE. -/
def Follows (a b : Slot) : Prop :=
  b.generation = a.generation ∧ a.state.rank ≤ b.state.rank ∨
    b.generation = a.generation + 1 ∧
      (a.state = .free ∧ b.state = .connecting ∨ b.state = .free)

theorem ConnState.rank_le_free (state : ConnState) : state.rank ≤ ConnState.rank .free := by
  cases state <;> decide

theorem ConnState.rank_le_disconnecting {state : ConnState} (h : state ≠ .free) :
    state.rank ≤ ConnState.rank .disconnecting := by
  cases state <;> first | decide | exact absurd rfl h

theorem ConnState.rank_le_ready {state : ConnState} (h : state ≠ .free)
    (h' : state ≠ .disconnecting) :
    state.rank ≤ ConnState.rank .ready := by
  cases state <;> first | decide | exact absurd rfl h | exact absurd rfl h'

theorem Follows.refl (a : Slot) : Follows a a := .inl ⟨rfl, le_refl _⟩

/-- While the generation stays, the state does not go back. -/
theorem Follows.rank_le {a b : Slot} (h : Follows a b) (hgen : b.generation = a.generation) :
    a.state.rank ≤ b.state.rank := by
  rcases h with ⟨-, hle⟩ | ⟨hnext, -⟩
  · exact hle
  · rw [hgen] at hnext
    have hnat := congrArg UInt32.toNat hnext
    rw [UInt32.toNat_add] at hnat
    have hlt := a.generation.toNat_lt
    have hone : UInt32.toNat 1 = 1 := rfl
    omega

/-- A completed CCCD write does not find the slot of its reference DISCONNECTING. -/
def Timely (s : Sys) : Label → Prop
  | .host _ _ =>
      match s.host with
      | .subscribed k _ =>
          let ref := (s.central.ctxs k).ref
          ¬ (s.central.refValid ref = true ∧
            (s.central.slots ref.slotIndex).state = .disconnecting)
      | _ => True
  | _ => True

namespace Sys

variable {s s' : Sys} {l : Label}

/-- **Every timely step moves every slot forward.** -/
theorem follows_step (hok : Timely s l) (hs : s.step l = some s') (i : SlotIx) :
    Follows (s.central.slots i) (s'.central.slots i) := by
  have hmove := slot_move (step_move hs) i
  generalize s'.central.slots i = slot at hmove ⊢
  cases hmove with
  | same => exact .refl _
  | reserved label call reserve hslot =>
      subst hslot
      obtain ⟨-, -, -, -, hfree, -, -⟩ := Central.reserveConnection_ok reserve
      exact .inr ⟨rfl, .inl ⟨hfree, rfl⟩⟩
  | freed => exact .inl ⟨rfl, ConnState.rank_le_free _⟩
  | linked state | discovering state =>
      refine .inl ⟨rfl, ?_⟩
      rw [state]
      exact Nat.le_succ _
  | ready label host valid hslot =>
      subst hslot
      subst label
      simp only [Timely, host] at hok
      have hlive := (Central.refValid_iff.mp valid).1
      have hopen := fun hd => hok ⟨valid, hd⟩
      exact .inl ⟨rfl, ConnState.rank_le_ready hlive hopen⟩
  | disconnecting live => exact .inl ⟨rfl, ConnState.rank_le_disconnecting live⟩
  | reset label =>
      unfold Slot.hostReset
      split
      · exact .refl _
      · exact .inr ⟨rfl, .inr rfl⟩

end Sys

/-- The steps that leave slot `i` in its generation. -/
def SameGeneration (i : SlotIx) (s s' : Sys) : Prop :=
  (s'.central.slots i).generation = (s.central.slots i).generation

/-- **Connections move forward.** In every stretch of a run of timely steps that stays in one
generation of a slot, the state of the slot does not go back; and the next timely step moves the
slot forward too, or begins a new generation in a FREE slot or by a reset of the host. -/
theorem slot_moves_forward (i : SlotIx) {s t u : Sys} {l : Label}
    (hst : machine.Continues Timely (SameGeneration i) s t) (hok : Timely t l)
    (htu : machine.step t l = some u) :
    (s.central.slots i).state.rank ≤ (t.central.slots i).state.rank ∧
      Follows (t.central.slots i) (u.central.slots i) := by
  refine ⟨?_, Sys.follows_step hok htu i⟩
  refine hst.relates (R := fun s t : Sys =>
      (s.central.slots i).state.rank ≤ (t.central.slots i).state.rank)
    (fun _ => le_refl _) (fun _ _ _ h h' => h.trans h') ?_
  intro s l t hok hstep hsame
  exact (Sys.follows_step hok hstep i).rank_le hsame

/-! ## A late CCCD write -/

/-- The lamp is connected and encrypted, and its disconnection is asked for. -/
def closeLamp : List Label :=
  connectLamp ++ [.encrypted slotA 7, .host true 0, .disconnect lamp, .call 0 true 0]

/-- The CCCD write of the lamp completes. -/
def writeCompleted : List Label := closeLamp ++ [.subscribed slotA 7]

instance (a b : Slot) : Decidable (Follows a b) := inferInstanceAs (Decidable (_ ∨ _))

instance (i : SlotIx) (s s' : Sys) : Decidable (SameGeneration i s s') :=
  inferInstanceAs (Decidable (_ = _))

set_option maxRecDepth 100000 in
/-- The slot of the lamp goes from DISCONNECTING back to READY. -/
theorem ready_again : ¬ ∀ s, machine.Reachable s → ∀ l s', machine.step s l = some s' →
    ∀ i, Follows (s.central.slots i) (s'.central.slots i) := by
  intro h
  have hrun : (machine.run twoDevices writeCompleted).map (fun s =>
      (machine.step s (.host true 0)).any fun s' =>
        !decide (Follows (s.central.slots slotA) (s'.central.slots slotA))) =
          some true := by decide +kernel
  obtain ⟨s, hs, hback⟩ := Machine.exists_reachable_of_run twoDevices_initial hrun
  obtain ⟨s', hs', hnot⟩ := (Option.any_eq_true _ _).mp hback
  rw [Bool.not_eq_true', decide_eq_false_iff_not] at hnot
  exact hnot (h s hs _ s' hs' _)

instance (s : Sys) : (l : Label) → Decidable (Timely s l)
  | .host _ _ => by
      unfold Timely
      dsimp only
      generalize s.host = h
      exact match h with
        | .subscribed _ _ => inferInstanceAs (Decidable (¬ (_ ∧ _)))
        | .idle | .connected .. | .identified _ | .connectFailed _ | .disconnected ..
        | .readState ..
        | .findRemoved .. | .finalize .. | .release _ | .encrypted _ | .noteSuccess _ =>
          instDecidableTrue
  | .supervise _ | .request _ | .disconnect _ | .forget _ | .call .. | .connectEvent _
  | .disconnectEvent _ | .encrypted .. | .subscribed .. | .hostReset => instDecidableTrue

set_option maxRecDepth 100000 in
/-- The slot of the lamp goes from CONNECTING to SECURING. -/
theorem slot_moves_forward_lamp : ∃ s t u : Sys,
    (s.central.slots slotA).state = .connecting ∧
      (t.central.slots slotA).state = .securing ∧
        (s.central.slots slotA).state.rank ≤ (t.central.slots slotA).state.rank ∧
          Follows (t.central.slots slotA) (u.central.slots slotA) := by
  have hrun : (machine.run twoDevices linkLamp).any (fun s =>
      (machine.step s (.host true 0)).any fun t =>
        (machine.step t (.host true 0)).isSome &&
          decide (Timely s (.host true 0) ∧ SameGeneration slotA s t ∧
            Timely t (.host true 0) ∧ (s.central.slots slotA).state = .connecting ∧
              (t.central.slots slotA).state = .securing)) = true := by decide +kernel
  obtain ⟨s, -, hs⟩ := (Option.any_eq_true _ _).mp hrun
  obtain ⟨t, hst, ht⟩ := (Option.any_eq_true _ _).mp hs
  rw [Bool.and_eq_true, Option.isSome_iff_exists, decide_eq_true_eq] at ht
  obtain ⟨⟨u, htu⟩, hok, hsame, hok', hconn, hsec⟩ := ht
  exact ⟨s, t, u, hconn, hsec,
    slot_moves_forward slotA (.step .refl hok hst hsame) hok' htu⟩

end BleGateway.BleCentral
