import BleGateway.BleCentral.Records

/-! # Failed connection attempts

An attempt to connect leaves every connection alone that is not its own, whether it fails or not.
Three steps break this or the record of a READY slot. A rollback with a stale reference takes the
record from a slot that it does not free. The supervisor notes the failure of a start by device:
after BUSY the record may be CONNECTING through another attempt, or even through a live link, and
noting the failure frees that slot. And a removal may be finalized under a live connection.
-/

namespace BleGateway.BleCentral

open Central

/-- The calls that belong to an attempt to connect, with the slot it has reserved. -/
def Call.attempt : Call → Option (Option Ref)
  | .start .. => some none
  | .getDeviceId _ _ ref | .getPeerAddr _ _ ref | .acquire _ _ ref => some (some ref)
  | .connect _ _ ref _ | .release _ _ ref _ | .rollback _ _ ref _ => some (some ref)
  | .noteFailure _ => some none
  | .disconnect _ | .forget _ | .finalize _ => none

namespace Central

variable {c c' : Central}

/-- Every connection but the one through the attempt's own slot is left alone: its slot, and the
state and the retry bookkeeping of its record. -/
def Spared (own : Option Ref) (c c' : Central) : Prop :=
  ∀ i d, c.Carries i d → own ≠ some ⟨i, (c.slots i).generation⟩ →
    c'.slots i = c.slots i ∧ c'.devices d = c.devices d

/-- The record of a READY slot has the connection. -/
def ReadyConnected (c : Central) : Prop :=
  ∀ i, (c.slots i).state = .ready → ∃ d, (c.slots i).deviceIndex = some d ∧
    (c.devices d).inUse = true ∧ (c.devices d).connectionSlot = some i ∧
      ((c.devices d).state = .connecting ∨ (c.devices d).state = .removing)

theorem Spared.refl (own : Option Ref) (c : Central) : Spared own c c :=
  fun _ _ _ _ => ⟨rfl, rfl⟩

/-- What a slot carries is registered and names the slot. -/
theorem Owned.names (ho : c.Owned) (hl : c.Linked) {i : SlotIx} {d : DeviceIx}
    (hc : c.Carries i d) :
    (c.devices d).inUse = true ∧ (c.devices d).connectionSlot = some i := by
  obtain ⟨e, he, hu⟩ := ho i hc.1
  obtain rfl := Option.some.inj (hc.2.symm.trans he)
  exact ⟨hu, (hl d hu i).mpr hc⟩

theorem Owned.readyConnected (ho : c.Owned) (hl : c.Linked) (hb : c.Busy) : c.ReadyConnected := by
  intro i hready
  have hlive : (c.slots i).state ≠ .free := by
    rw [hready]
    simp
  obtain ⟨d, hix, hu⟩ := ho i hlive
  have hslot := (hl d hu i).mpr ⟨hlive, hix⟩
  refine ⟨d, hix, hu, hslot, hb d hu ?_⟩
  rw [hslot]
  simp

/-- No slot that is not FREE carries a record in a new place. -/
theorem Owned.places (ho : c.Owned) (hl : c.Linked) (id : DeviceId) : c.Places id := by
  intro d _ hvac i hc
  have hu := (ho.names hl hc).1
  rw [Directory.vacant_spec hvac] at hu
  cases hu

/-- A reservation takes a FREE slot and a record without a slot. -/
theorem Spared.reserve (ho : c.Owned) (hl : c.Linked) {d : DeviceIx} {nowMs : Int} {ref : Ref}
    (hr : c.reserveConnection d nowMs = .ok (c', ref)) : Spared none c c' := by
  obtain ⟨-, hnone, -, -, hfree, -, rfl⟩ := reserveConnection_ok hr
  intro i e hc _
  have hi : i ≠ ref.slotIndex := by
    rintro rfl
    exact hc.1 hfree
  have hed : e ≠ d := by
    rintro rfl
    rw [(ho.names hl hc).2] at hnone
    cases hnone
  exact ⟨Function.update_of_ne hi _ _, Function.update_of_ne hed _ _⟩

/-- A rollback that finds its own slot, or no record, frees no other slot. -/
theorem Spared.rollback (ho : c.Owned) (hl : c.Linked) {ref : Ref} (hok : c.RollsBack ref)
    (nowMs : Int) : Spared (some ref) c (c.rollbackConnectionStart ref nowMs) := by
  intro i d hc hown
  have hnames := (ho.names hl hc).2
  -- a valid reference is that of the slot that is live now
  have hi : c.refValid ref = true → i ≠ ref.slotIndex := by
    rintro hv rfl
    refine hown (congrArg some ?_)
    rw [(refValid_iff.mp hv).2]
  dsimp only [rollbackConnectionStart]
  split
  · rename_i e hdev
    have hvalid : c.refValid ref = true := by
      rcases hok with hv | hn
      · exact hv
      · rw [hdev] at hn
        cases hn
    have hde : d ≠ e := by
      rintro rfl
      have href := (deviceOf_spec hdev).2
      rw [hnames] at href
      exact hi hvalid (Option.some.inj href)
    split
    · exact ⟨Function.update_of_ne (hi hvalid) _ _, Function.update_of_ne hde _ _⟩
    · exact ⟨rfl, Function.update_of_ne hde _ _⟩
  · split
    · rename_i hv
      exact ⟨Function.update_of_ne (hi hv.1) _ _, rfl⟩
    · exact ⟨rfl, rfl⟩

/-- A failure that is noted for a record without an attempt changes nothing. -/
theorem noteFailure_eq {d : DeviceIx} {nowMs : Int}
    (h : ¬ ((c.devices d).inUse = true ∧ (c.devices d).state = .connecting)) :
    c.noteFailure d nowMs = c := by
  dsimp only [noteFailure]
  rw [if_neg h]

theorem Spared.ctxAcquire (own : Option Ref) (c : Central) (ref : Ref) :
    Spared own c (c.ctxAcquire ref).1 := by
  unfold Central.ctxAcquire
  split
  · split <;> exact .refl own c
  · exact .refl own c

theorem Spared.ctxReleaseByRef (own : Option Ref) (c : Central) (ref : Ref) :
    Spared own c (c.ctxReleaseByRef ref) := by
  unfold Central.ctxReleaseByRef
  split <;> exact .refl own c

end Central

/-! ## Runs -/

/-- The condition of the attempts: a rollback finds its own slot or no record, the record of a
noted failure is not CONNECTING, and a removal is finalized while no slot carries the record. -/
def Spares (s : Sys) : Label → Prop
  | .call k _ _ =>
      match s.calls[k]? with
      | some (.rollback _ _ ref _) => s.central.RollsBack ref
      | some (.noteFailure d) =>
          ¬ ((s.central.devices d).inUse = true ∧ (s.central.devices d).state = .connecting)
      | some (.finalize d) => s.central.Removable d
      | _ => True
  | .host _ _ =>
      match s.host with
      | .finalize _ d => s.central.Removable d
      | _ => True
  | _ => True

namespace Sys

variable {s s' : Sys} {l : Label}

theorem Spares.removable (h : Spares s l) {d : DeviceIx} (hfin : Finalizes s d l) :
    s.central.Removable d := by
  cases hfin with
  | call hcall =>
      simp only [Spares, hcall] at h
      exact h
  | host hhost =>
      simp only [Spares, hhost] at h
      exact h

/-- A run that spares the connections keeps the mapping. -/
theorem Spares.keeps (h : Spares s l) (ho : s.central.Owned) (hl : s.central.Linked) :
    Keeps s l := by
  cases l with
  | request id => exact ho.places hl id
  | call k ok nowMs =>
      unfold Keeps
      unfold Spares at h
      dsimp only at h ⊢
      split
      · rename_i ref _ hcall
        simp only [hcall] at h
        exact h
      · trivial
  | supervise nowMs | disconnect id | forget id | connectEvent linked | disconnectEvent k
  | encrypted k handle | subscribed k handle | host found nowMs | hostReset => trivial

/-- What the runs that spare the connections keep. -/
structure Sound (s : Sys) : Prop where
  linked : s.central.Linked
  owned : s.central.Owned
  busy : s.central.Busy

theorem Sound.step (h : s.Sound) (hok : Spares s l) (hs : s.step l = some s') : s'.Sound where
  linked := linked_step h.linked (Spares.keeps hok h.owned h.linked) hs
  owned := owned_step h.owned (fun _ hfin => Spares.removable hok hfin) hs
  busy := busy_step h.busy hs

theorem Initial.sound (h : s.Initial) : s.Sound where
  linked := h.linked
  owned := by
    intro i hlive
    rw [h.rest] at hlive
    exact absurd rfl hlive
  busy := by
    intro d hu hslot
    rcases h.devices d with hd | ⟨id, hd⟩
    · rw [hd] at hu
      cases hu
    · rw [hd] at hslot
      exact absurd rfl hslot

/-- Every step of an attempt spares the connections that are not its own. -/
theorem Sound.spared (h : s.Sound) {k : Nat} {ok : Bool} {nowMs : Int} {c : Call}
    {own : Option Ref} (hok : Spares s (.call k ok nowMs)) (hc : s.calls[k]? = some c)
    (hown : c.attempt = some own) (hs : s.step (.call k ok nowMs) = some s') :
    Spared own s.central s'.central := by
  have hmove := step_move hs
  generalize s'.central = c' at hmove ⊢
  have hcall : ∀ {c₂ : Call}, s.calls[k]? = some c₂ → c₂ = c := fun h₂ =>
    Option.some.inj (h₂.symm.trans hc)
  cases hmove with
  | same => exact .refl own _
  | reserved call reserve =>
      obtain rfl := hcall call
      cases hown
      exact .reserve h.owned h.linked reserve
  | acquired call => exact .ctxAcquire own _ _
  | released call => exact .ctxReleaseByRef own _ _
  | rolledBack call =>
      obtain rfl := hcall call
      cases hown
      simp only [Spares, call] at hok
      exact .rollback h.owned h.linked hok _
  | failureNoted call =>
      simp only [Spares, call] at hok
      rw [noteFailure_eq hok]
      exact .refl own _
  | disconnectAsked call | forgetAsked call | finalized call =>
      obtain rfl := hcall call
      cases hown

end Sys

/-- **Attempts spare each other.** In every state of a run that meets the condition, the record
of every READY slot has the connection, and every step of an attempt, failed or not, that meets
it leaves alone the connections that are not the attempt's own. -/
theorem attempts_spare {s : Sys} (hs : machine.ReachableWhen Spares s) :
    s.central.ReadyConnected ∧ ∀ k ok nowMs c own s', Spares s (.call k ok nowMs) →
      s.calls[k]? = some c → c.attempt = some own →
        machine.step s (.call k ok nowMs) = some s' → Spared own s.central s'.central := by
  have h : s.Sound :=
    Machine.ReachableWhen.invariant (M := machine) (I := Sys.Sound)
      (fun _ h => Sys.Initial.sound h) (fun _ _ _ h hok hstep => h.step hok hstep) hs
  exact ⟨h.owned.readyConnected h.linked h.busy,
    fun _ _ _ _ _ _ hok hc hown hstep => h.spared hok hc hown hstep⟩

/-! ## Connections that are damaged -/

/-- The supervisor picks the lamp, a request for the lamp reserves a slot first, and the
supervisor's start finds the record BUSY. -/
def busyStart : List Label := [.supervise 0, .request lamp, .call 1 true 0, .call 0 true 0]

/-- After the stale rollback the attempt for the plug goes on until its slot is READY. -/
def readyPlug : List Label :=
  overtakenAttempt ++ .call 0 true 0 :: List.replicate 3 (.call 1 true 0) ++
    [.connectEvent (some 7), .host true 0, .host true 0, .encrypted slotA 7, .host true 0,
      .subscribed slotA 7, .host true 0]

set_option maxRecDepth 100000 in
/-- The supervisor frees the slot of the request that was faster; and the stale rollback leaves a
READY slot whose record waits for its next attempt. -/
theorem damaged_connections :
    (¬ ∀ s, machine.Reachable s → ∀ k ok nowMs c own s', s.calls[k]? = some c →
      c.attempt = some own → machine.step s (.call k ok nowMs) = some s' →
        Spared own s.central s'.central) ∧
      ¬ ∀ s, machine.Reachable s → s.central.ReadyConnected := by
  constructor
  · intro h
    have hrun : (machine.run twoDevices busyStart).map (fun s =>
        decide (s.calls[1]? = some (.noteFailure lampIx)) &&
          decide (s.central.Carries slotA lampIx) &&
            (machine.step s (.call 1 true 0)).any fun s' =>
              decide ((s'.central.slots slotA).state = .free)) = some true := by
      decide +kernel
    obtain ⟨s, hs, hp⟩ := Machine.exists_reachable_of_run twoDevices_initial hrun
    simp only [Bool.and_eq_true, decide_eq_true_eq, Option.any_eq_true] at hp
    obtain ⟨⟨hcall, hcarries⟩, s', hstep, hfree⟩ := hp
    have hspared := (h s hs 1 true 0 _ none s' hcall rfl hstep _ _ hcarries (by simp)).1
    rw [hspared] at hfree
    exact hcarries.1 hfree
  · intro h
    have hrun : (machine.run twoDevices readyPlug).map (fun s =>
        decide ((s.central.slots slotA).state = .ready) &&
          s.central.unlinked slotA plugIx) = some true := by decide +kernel
    obtain ⟨s, hs, hp⟩ := Machine.exists_reachable_of_run twoDevices_initial hrun
    simp only [Central.unlinked, Bool.and_eq_true, decide_eq_true_eq] at hp
    obtain ⟨hready, ⟨⟨-, hix⟩, -⟩, hnone⟩ := hp
    obtain ⟨d, hd, -, hslot, -⟩ := h s hs _ hready
    obtain rfl := Option.some.inj (hix.symm.trans hd)
    rw [hnone] at hslot
    cases hslot

instance (c : Central) (d : DeviceIx) : Decidable (c.Removable d) :=
  inferInstanceAs (Decidable (_ → _ → ∀ i, ¬ c.Carries i d))

instance (s : Sys) : (l : Label) → Decidable (Spares s l)
  | .call k _ _ => by
      unfold Spares
      dsimp only
      generalize s.calls[k]? = call
      exact match call with
        | some (.rollback _ _ ref _) => inferInstanceAs (Decidable (s.central.RollsBack ref))
        | some (.noteFailure _) => inferInstanceAs (Decidable (¬ (_ ∧ _)))
        | some (.finalize d) => inferInstanceAs (Decidable (s.central.Removable d))
        | some (.start ..) | some (.getDeviceId ..) | some (.getPeerAddr ..) | some (.acquire ..)
        | some (.connect ..) | some (.release ..) | some (.disconnect ..) | some (.forget ..)
        | none => instDecidableTrue
  | .host _ _ => by
      unfold Spares
      dsimp only
      generalize s.host = h
      exact match h with
        | .finalize _ d => inferInstanceAs (Decidable (s.central.Removable d))
        | .idle | .connected .. | .identified _ | .connectFailed _ | .disconnected ..
        | .readState ..
        | .findRemoved .. | .subscribed .. | .release _ | .encrypted _ | .noteSuccess _ =>
          instDecidableTrue
  | .supervise _ | .request _ | .disconnect _ | .forget _ | .connectEvent _ | .disconnectEvent _
  | .encrypted .. | .subscribed .. | .hostReset => instDecidableTrue

/-- The lamp is connected, and the stack refuses to connect to the plug. -/
def refusedPlug : List Label :=
  connectLamp ++ .request plug :: List.replicate 4 (.call 0 true 0) ++
    [.call 0 false 0, .call 0 true 0]

/-- What is left to do for the plug. -/
def plugRollback : Call :=
  .rollback .request plugIx ⟨slotB, 1⟩ .stack

set_option maxRecDepth 100000 in
/-- The attempt for the plug spares the link of the lamp when it is rolled back. -/
theorem attempts_spare_lamp : ∃ s s' : Sys,
    ((s.central.slots slotA).state = .securing ∧ s.calls[0]? = some plugRollback) ∧
      s.central.ReadyConnected ∧
        Spared (some ⟨slotB, 1⟩) s.central s'.central := by
  have hrun : (machine.runWhen Spares twoDevices refusedPlug).map (fun s =>
      decide ((s.central.slots slotA).state = .securing ∧
        s.calls[0]? = some plugRollback ∧ Spares s (.call 0 true 0)) &&
          (machine.step s (.call 0 true 0)).isSome) = some true := by decide +kernel
  obtain ⟨s, hs, hp⟩ := Machine.exists_reachableWhen_of_run twoDevices_initial hrun
  rw [Bool.and_eq_true, decide_eq_true_eq, Option.isSome_iff_exists] at hp
  obtain ⟨⟨hsec, hcall, hok⟩, s', hstep⟩ := hp
  obtain ⟨hready, hspared⟩ := attempts_spare hs
  exact ⟨s, s', ⟨hsec, hcall⟩, hready, hspared 0 true 0 _ _ s' hok hcall rfl hstep⟩

end BleGateway.BleCentral
