import BleGateway.Scheduler.Ledger
import BleGateway.Scheduler.WorkConservation

/-! # Whose completion it is

The context of a command is a field of the job slot, and so is the generation it is compared with:
both are rewritten when the slot is used again. A completion that comes late, or twice, or after
the scheduler was stopped and started again finds whatever the slot holds by then.

The system of `System.lean` is extended by restarts and by completions that are delivered at any
time after the dispatch and any number of times. `device_control_scheduler_deinit` waits for the
worker for a limited time: a worker may outlive it.
-/

namespace BleGateway.Scheduler

/-! ## Dispatches and what becomes of them -/

/-- The history no section reads. A dispatch is identified by its position in `issued`. -/
structure History where
  /-- The slot of each dispatch, whose context was handed out. -/
  issued : List SlotIx := []
  /-- The last dispatch of each slot. -/
  current : SlotIx → Nat := fun _ => 0
  /-- The dispatch whose completion was written into the slot, if one was. -/
  writer : SlotIx → Option Nat := fun _ => none
  /-- The last dispatch to each device. -/
  holder : DevIx → Nat := fun _ => 0
  /-- The dispatch a completion was issued for, with the dispatch it has completed. -/
  completed : List (Nat × Nat) := []
  /-- The dispatch whose completion led to a decrement of the counters, if one did, with the
  dispatch that was counted. -/
  countdowns : List (Option Nat × Nat) := []

/-- The slot that a section has put in flight. -/
def started (g g' : CtrlState) : Option SlotIx :=
  Fin.find? fun i => decide ((g.slots i).state ≠ .inflight ∧ (g'.slots i).state = .inflight)

/-- The slot in flight that a section has completed. -/
def written (g g' : CtrlState) : Option SlotIx :=
  Fin.find? fun i =>
    decide ((g.slots i).state = .inflight ∧ (g'.slots i).state = .completionPending)

/-- The device whose command a section has counted down, with the slot of the command. -/
def countedDown (g g' : CtrlState) : Option (DevIx × SlotIx) :=
  (Fin.find? fun d => (g.devices d).used && (g.devices d).inflightSlot.isSome &&
    (g'.devices d).inflightSlot.isNone).bind fun d =>
      (g.devices d).inflightSlot.map fun i => (d, i)

namespace History

variable (h : History)

/-- The dispatch whose completion stands in the slot. -/
def cause (g : CtrlState) (i : SlotIx) : Option Nat :=
  if (g.slots i).completionWritten then h.writer i else none

def dispatched (i : SlotIx) (d : DevIx) : History :=
  { h with
    issued := h.issued ++ [i]
    current := Function.update h.current i h.issued.length
    writer := Function.update h.writer i none
    holder := Function.update h.holder d h.issued.length }

def released (g : CtrlState) (d : DevIx) (i : SlotIx) : History :=
  { h with countdowns := h.countdowns ++ [(h.cause g i, h.holder d)] }

def delivered (n : Nat) (i : SlotIx) : History :=
  { h with
    completed := h.completed ++ [(n, h.current i)]
    writer := Function.update h.writer i (some n) }

/-- The history after a section that is not the completion of a command. -/
def after (g g' : CtrlState) : History :=
  let h := match countedDown g g' with
    | some (d, i) => h.released g d i
    | none => h
  match started g g' with
  | some i => h.dispatched i (g.slots i).deviceIndex
  | none => h

/-- The history after the delivery of the completion of dispatch `n`. -/
def afterDelivery (n : Nat) (g g' : CtrlState) : History :=
  match written g g' with
  | some i => h.delivered n i
  | none => h

end History

/-! ## The system with restarts -/

structure Lives where
  sys : Sys
  /-- The workers of earlier lives. -/
  stale : List WorkerPc := []
  history : History := {}

inductive Act
  /-- An interface function or the worker. -/
  | call (l : Label)
  /-- A worker of an earlier life. -/
  | stale (w : Nat) (now : Int) (answer : EspErr)
  /-- The command service delivers the completion of dispatch `n`. -/
  | deliver (n : Nat) (result : Option DeviceCommandResult)
  /-- `device_control_scheduler_init`. -/
  | init (created : Bool)

/-- Before the first start: `g_ctrl` is zero and there is no worker. -/
def off : Lives where
  sys := { boot with ctrl := {}, worker := .exited, shutdown := .down }

namespace Lives

/-- The system as another worker sees it. -/
def seenBy (x : Lives) (w : WorkerPc) : Sys := { x.sys with worker := w }

def step (x : Lives) : Act → Option Lives
  | .call (.dcsComplete _ _) => none
  | .call l =>
      (x.sys.step l).map fun s => { x with sys := s, history := x.history.after x.sys.ctrl s.ctrl }
  | .stale w now answer =>
      (x.stale[w]?).bind fun pc => ((x.seenBy pc).workerStep now answer).map fun s =>
        { x with
          sys := { s with worker := x.sys.worker }
          stale := x.stale.set w s.worker
          history := x.history.after x.sys.ctrl s.ctrl }
  | .deliver n result =>
      (x.history.issued[n]?).map fun k =>
        let g := dcsComplete x.sys.ctrl k result
        { x with
          sys := x.sys.setCtrl g
          history := x.history.afterDelivery n x.sys.ctrl g }
  | .init created =>
      if x.sys.ctrl.task then some x
      else if created then
        some { x with
          sys := { x.sys with
            ctrl := (init x.sys.ctrl true).1, worker := .waiting, shutdown := .up }
          stale := x.stale ++ [x.sys.worker] }
      else some { x with sys := { x.sys with ctrl := (init x.sys.ctrl false).1 } }

end Lives

/-- The scheduler over its lives as a machine. -/
def lives : Machine Lives Act where
  init x := x = off
  step := Lives.step

/-- Each delivered completion has completed the dispatch it was issued for, each dispatch was
counted down once, and no completion has led to two decrements. -/
structure Identified (h : History) : Prop where
  own : ∀ p ∈ h.completed, p.1 = p.2
  once : (h.countdowns.map Prod.snd).Nodup
  caused : (h.countdowns.filterMap Prod.fst).Nodup

/-- A completion is delivered while its dispatch is the one in flight in the slot, or while there is
none. -/
def Lives.Own (x : Lives) : Act → Prop
  | .deliver n _ => ∀ k, x.history.issued[n]? = some k →
      (x.sys.ctrl.slots k).state = .inflight → x.history.current k = n
  | _ => True

/-! ## Slots and their contexts -/

/-- The context of a slot is empty or its own, and its own while the job is in flight. -/
structure Slot.Sound (s : Slot) (i : SlotIx) : Prop where
  context : s.dcsContext = {} ∨ s.dcsContext = ⟨i, s.generation⟩
  opened : s.state = .inflight → s.Open i
  unwritten : s.waiting = true → s.completionWritten = false
  generation : s.state ≠ .free → s.generation ≠ 0

section Slots

variable {g g' : CtrlState}

theorem SlotMove.sound {s s' : Slot} {i : SlotIx} (hm : SlotMove s s') (h : s.Sound i) :
    s'.Sound i where
  context := by cases hm <;> exact h.context
  opened hs := by
    have hsame := hm.inflight hs
    rw [hsame] at hs ⊢
    exact h.opened hs
  unwritten hs := by
    have hold := h.unwritten (hm.waiting hs)
    cases hm <;> exact hold
  generation hs := by
    rw [hm.generation]
    exact h.generation fun hfree => hs (hm.free_iff.mpr hfree)

/-- A slot that holds nothing. -/
theorem sound_free (gen : UInt32) (i : SlotIx) : Slot.Sound { generation := gen } i where
  context := Or.inl rfl
  opened hs := by cases hs
  unwritten hs := by cases hs
  generation hs := absurd rfl hs

theorem sound_step {s s' : Sys} {l : Label} (h : ∀ i, (s.ctrl.slots i).Sound i)
    (hs : s.step l = some s') (i : SlotIx) : (s'.ctrl.slots i).Sound i := by
  -- a section that writes slot `k` leaves the others alone
  have of_update {k : SlotIx} {e : Slot} (he : e.Sound k) :
      (Function.update s.ctrl.slots k e i).Sound i := by
    by_cases hik : i = k
    · rw [hik, Function.update_self]
      exact he
    · rw [Function.update_of_ne hik]
      exact h i
  cases step_slots hs with
  | quiet hq _ _ => exact (hq.slots i).sound (h i)
  | called _ hctrl _ _ _ =>
      rw [hctrl]
      exact h i
  | @accepted job completion context now k _ _ ha _ _ _ =>
      by_cases hik : i = k
      · obtain ⟨id, d, hslot, -⟩ := ha.slot
        rw [hik, hslot]
        refine ⟨Or.inl rfl, (fun hst => by cases hst), fun _ => rfl, fun _ => ?_⟩
        show (if (s.ctrl.slots k).generation + 1 = 0 then (1 : UInt32)
          else (s.ctrl.slots k).generation + 1) ≠ 0
        split
        · decide
        · assumption
      · exact (ha.move hik).sound (h i)
  | @completed k hc _ _ =>
      obtain ⟨r, hslots⟩ := hc.slots
      rw [hslots]
      refine of_update ⟨(h k).context, (fun hst => by cases hst), (fun hw => by cases hw),
        fun _ => ?_⟩
      exact (h k).generation (by simp [hc.inflight])
  | @dispatched final n k _ _ hsel hctrl _ _ =>
      have hqueued := (selectSlotLocked_spec hsel).1
      rw [hctrl]
      refine of_update ⟨Or.inr rfl, fun _ => ⟨rfl, ?_, rfl⟩, (fun hw => by cases hw), fun _ => ?_⟩
      · exact (h k).unwritten (by simp [Slot.waiting, hqueued])
      · exact (h k).generation (by simp [hqueued])
  | @reported final k call _ hst hctrl _ _ _ =>
      rw [hctrl, CtrlState.setSlot_slots, releaseTransport_slots]
      refine of_update ⟨(h k).context, (fun hst => by cases hst), (fun hw => by cases hw),
        fun _ => ?_⟩
      exact (h k).generation (by simp [hst])
  | @cleared final k _ hctrl _ _ =>
      rw [hctrl]
      exact of_update (sound_free _ k)

/-- A completion with the context of slot `k` reaches what is in flight there. -/
theorem dcsComplete_sound (h : ∀ i, (g.slots i).Sound i) (k : SlotIx)
    (result : Option DeviceCommandResult) :
    dcsComplete g k result =
      if (g.slots k).state = .inflight then
        g.setSlot k ((g.slots k).complete (result.getD { status := .internal }))
      else g := by
  by_cases hk : (g.slots k).state = .inflight
  · have hopen := (h k).opened hk
    rw [if_pos hk, dcsComplete_eq hk hopen.unwritten hopen.own]
  · rw [if_neg hk]
    unfold dcsComplete
    dsimp only
    rcases (h k).context with hempty | hown
    · -- an empty context points at slot zero, with a generation that no job has
      rw [hempty]
      by_cases hzero : (g.slots 0).state = .inflight
      · have hgen := (h 0).generation (by simp [hzero])
        exact if_pos (Or.inr (Or.inl hgen))
      · exact if_pos (Or.inl hzero)
    · rw [hown]
      dsimp only
      rw [dif_pos k.isLt, if_pos (Or.inl hk)]

end Slots

/-! ## What a section notes -/

/-- A command is under way on the device. -/
def Device.Holds (e : Device) : Prop := e.used = true ∧ e.inflightSlot ≠ none

/-- The section hands over nothing and counts nothing down. -/
structure Keeps (g g' : CtrlState) : Prop where
  held : ∀ d, (g.devices d).Holds → (g'.devices d).inflightSlot = (g.devices d).inflightSlot
  holding : ∀ d, (g'.devices d).Holds → (g.devices d).Holds
  inflight : ∀ i, (g'.slots i).state = .inflight →
    (g.slots i).state = .inflight ∧ (g'.slots i).deviceIndex = (g.slots i).deviceIndex
  written : ∀ i, (g'.slots i).state ≠ .free → (g'.slots i).completionWritten = true →
    (g.slots i).state = .inflight ∨ ((g.slots i).state ≠ .free ∧
      (g.slots i).completionWritten = true ∧ (g'.slots i).deviceIndex = (g.slots i).deviceIndex)

theorem find?_eq_some_of_unique {n : Nat} {p : Fin n → Bool} {i : Fin n} (h : p i = true)
    (hunique : ∀ j, p j = true → j = i) : Fin.find? p = some i := by
  refine Fin.find?_eq_some_iff.mpr ⟨h, fun j hj => ?_⟩
  by_contra hp
  exact absurd (hunique j (by simpa using hp)) (ne_of_lt hj)

section Notes

variable {g g' : CtrlState}

theorem started_eq_none (h : ∀ i, (g'.slots i).state = .inflight → (g.slots i).state = .inflight) :
    started g g' = none := by
  refine Fin.find?_eq_none_iff.mpr fun i => decide_eq_false ?_
  rintro ⟨hne, hi⟩
  exact hne (h i hi)

theorem countedDown_eq_none
    (h : ∀ d, (g.devices d).Holds → (g'.devices d).inflightSlot = (g.devices d).inflightSlot) :
    countedDown g g' = none := by
  have hnone : (Fin.find? fun d => (g.devices d).used && (g.devices d).inflightSlot.isSome &&
      (g'.devices d).inflightSlot.isNone) = none := by
    refine Fin.find?_eq_none_iff.mpr fun d => ?_
    by_contra hd
    simp only [Bool.not_eq_false, Bool.and_eq_true, Option.isNone_iff_eq_none] at hd
    have hholds : (g.devices d).Holds := ⟨hd.1.1, Option.isSome_iff_ne_none.mp hd.1.2⟩
    exact hholds.2 ((h d hholds).symm.trans hd.2)
  unfold countedDown
  rw [hnone]
  rfl

theorem Keeps.after (h : Keeps g g') (hist : History) : hist.after g g' = hist := by
  unfold History.after
  rw [countedDown_eq_none h.held, started_eq_none fun i hi => (h.inflight i hi).1]

theorem started_eq_some {i : SlotIx} (hi : (g.slots i).state ≠ .inflight)
    (hi' : (g'.slots i).state = .inflight)
    (hothers : ∀ j, j ≠ i → (g'.slots j).state = .inflight → (g.slots j).state = .inflight) :
    started g g' = some i := by
  refine find?_eq_some_of_unique (decide_eq_true ⟨hi, hi'⟩) fun j hj => ?_
  obtain ⟨hne, hj'⟩ := of_decide_eq_true hj
  by_contra hji
  exact hne (hothers j hji hj')

theorem written_eq_some {i : SlotIx} (hi : (g.slots i).state = .inflight)
    (hi' : (g'.slots i).state = .completionPending)
    (hothers : ∀ j, j ≠ i → g'.slots j = g.slots j) : written g g' = some i := by
  refine find?_eq_some_of_unique (decide_eq_true ⟨hi, hi'⟩) fun j hj => ?_
  obtain ⟨hj, hj'⟩ := of_decide_eq_true hj
  by_contra hji
  rw [hothers j hji, hj] at hj'
  cases hj'

theorem written_self (g : CtrlState) : written g g = none := by
  refine Fin.find?_eq_none_iff.mpr fun i => decide_eq_false ?_
  rintro ⟨hi, hi'⟩
  rw [hi] at hi'
  cases hi'

theorem countedDown_eq_some {d : DevIx} {i : SlotIx} (hused : (g.devices d).used = true)
    (hi : (g.devices d).inflightSlot = some i) (hgone : (g'.devices d).inflightSlot = none)
    (hothers : ∀ e, e ≠ d → (g'.devices e).inflightSlot = (g.devices e).inflightSlot) :
    countedDown g g' = some (d, i) := by
  have hfind : (Fin.find? fun d => (g.devices d).used && (g.devices d).inflightSlot.isSome &&
      (g'.devices d).inflightSlot.isNone) = some d := by
    refine find?_eq_some_of_unique (by simp [hused, hi, hgone]) fun e he => ?_
    by_contra hne
    rw [hothers e hne] at he
    cases hslot : (g.devices e).inflightSlot <;> simp [hslot] at he
  unfold countedDown
  rw [hfind, Option.bind_some, hi]
  rfl

end Notes

/-! ## The history fits the state -/

namespace History

/-- Dispatches are numbered in order; a device with a command under way is counted under the
dispatch that gave it, and a slot keeps the completion that was written into it. -/
structure Fits (h : History) (g : CtrlState) : Prop where
  held : ∀ d, (g.devices d).Holds →
    h.holder d < h.issued.length ∧ h.holder d ∉ h.countdowns.map Prod.snd
  distinct : ∀ d e, (g.devices d).Holds → (g.devices e).Holds → h.holder d = h.holder e → d = e
  counted : ∀ c ∈ h.countdowns, c.2 < h.issued.length
  once : (h.countdowns.map Prod.snd).Nodup
  inflight : ∀ i, (g.slots i).state = .inflight →
    h.holder (g.slots i).deviceIndex = h.current i ∧ h.writer i = none
  written : ∀ i n, (g.slots i).state ≠ .free → (g.slots i).completionWritten = true →
    h.writer i = some n → (n, h.current i) ∈ h.completed ∧
      ((g.deviceOf (g.slots i)).inflightSlot = some i →
        h.holder (g.slots i).deviceIndex = h.current i)
  caused : ∀ c ∈ h.countdowns, ∀ n, c.1 = some n → (n, c.2) ∈ h.completed

variable {h : History} {g g' : CtrlState}

theorem Fits.keeps (hf : h.Fits g) (hg' : TransportInv g') (hk : Keeps g g') : h.Fits g' where
  held d hd := hf.held d (hk.holding d hd)
  distinct d e hd he := hf.distinct d e (hk.holding d hd) (hk.holding e he)
  counted := hf.counted
  once := hf.once
  inflight i hi := by
    obtain ⟨hold, hdevice⟩ := hk.inflight i hi
    rw [hdevice]
    exact hf.inflight i hold
  written i n hi hw hn := by
    rcases hk.written i hi hw with hold | ⟨hold, hw', hdevice⟩
    · rw [(hf.inflight i hold).2] at hn
      cases hn
    · obtain ⟨hmem, hheld⟩ := hf.written i n hold hw' hn
      refine ⟨hmem, fun hslot => ?_⟩
      have hholds : (g'.deviceOf (g'.slots i)).Holds := ⟨hg'.used i hi, by rw [hslot]; simp⟩
      rw [CtrlState.deviceOf, hk.held _ (hk.holding _ hholds), hdevice] at hslot
      rw [hdevice]
      exact hheld hslot
  caused := hf.caused

/-- The selected job is handed over under a new number. -/
theorem Fits.dispatched (hf : h.Fits g) (hg : TransportInv g) {i : SlotIx}
    (hsel : selectSlotLocked g = some i) :
    (h.after g (startDispatch g i)).Fits (startDispatch g i) := by
  obtain ⟨hqueued, hused, -, hfree, -⟩ := selectSlotLocked_spec hsel
  have hnone := hg.inflightSlot_none hused hfree
  generalize hd : (g.slots i).deviceIndex = d at hnone hused
  have hslots (j : SlotIx) (hj : j ≠ i) : (startDispatch g i).slots j = g.slots j := by
    simp [startDispatch, hj]
  have hdevice (e : DevIx) (he : e ≠ d) : (startDispatch g i).devices e = g.devices e := by
    simp [startDispatch, hd, he]
  have hself : ((startDispatch g i).devices d).inflightSlot = some i := by
    simp [startDispatch, hd]
  have hnotheld : ¬ (g.devices d).Holds := fun hholds => hholds.2 hnone
  -- a slot in flight and a device that waits stand on another device
  have haway (j : SlotIx) (hj : (g.slots j).state = .inflight) : (g.slots j).deviceIndex ≠ d := by
    intro hjd
    have hheld := hg.holder j hj
    rw [CtrlState.deviceOf, hjd, hnone] at hheld
    cases hheld
  have hafter : h.after g (startDispatch g i) = h.dispatched i d := by
    have hstarted : started g (startDispatch g i) = some i := by
      refine started_eq_some (by simp [hqueued]) (by simp [startDispatch]) fun j hj hin => ?_
      rw [hslots j hj] at hin
      exact hin
    have hcounted : countedDown g (startDispatch g i) = none := by
      refine countedDown_eq_none fun e he => ?_
      by_cases hed : e = d
      · rw [hed] at he
        exact absurd he hnotheld
      · rw [hdevice e hed]
    unfold History.after
    rw [hcounted, hstarted]
    dsimp only
    rw [hd]
  have holds_of (e : DevIx) (hed : e ≠ d) (he : ((startDispatch g i).devices e).Holds) :
      (g.devices e).Holds := by
    rw [hdevice e hed] at he
    exact he
  have hlength : (h.dispatched i d).issued.length = h.issued.length + 1 := by
    simp [History.dispatched]
  have hnew : (h.dispatched i d).holder d = h.issued.length := Function.update_self ..
  have hold (e : DevIx) (he : e ≠ d) : (h.dispatched i d).holder e = h.holder e :=
    Function.update_of_ne he ..
  rw [hafter]
  constructor
  · intro e he
    rw [hlength]
    by_cases hed : e = d
    · rw [hed, hnew]
      refine ⟨Nat.lt_succ_self _, fun hmem => ?_⟩
      obtain ⟨c, hc, hceq⟩ := List.mem_map.mp hmem
      exact absurd (hf.counted c hc) (by omega)
    · rw [hold e hed]
      obtain ⟨hlt, hnot⟩ := hf.held e (holds_of e hed he)
      exact ⟨Nat.lt_succ_of_lt hlt, hnot⟩
  · intro a b ha hb hab
    by_cases had : a = d
    · by_cases hbd : b = d
      · rw [had, hbd]
      · rw [had, hnew, hold b hbd] at hab
        exact absurd (hf.held b (holds_of b hbd hb)).1 (by omega)
    · by_cases hbd : b = d
      · rw [hbd, hnew, hold a had] at hab
        exact absurd (hf.held a (holds_of a had ha)).1 (by omega)
      · rw [hold a had, hold b hbd] at hab
        exact hf.distinct a b (holds_of a had ha) (holds_of b hbd hb) hab
  · intro c hc
    rw [hlength]
    exact Nat.lt_succ_of_lt (hf.counted c hc)
  · exact hf.once
  · intro j hj
    by_cases hji : j = i
    · have hcurrent : (h.dispatched i d).current i = h.issued.length := Function.update_self ..
      have hwriter : (h.dispatched i d).writer i = none := Function.update_self ..
      rw [hji, show ((startDispatch g i).slots i).deviceIndex = d by simp [startDispatch, hd], hnew]
      exact ⟨hcurrent.symm, hwriter⟩
    · rw [hslots j hji] at hj ⊢
      obtain ⟨heq, hwriter⟩ := hf.inflight j hj
      rw [hold _ (haway j hj), heq]
      exact ⟨(Function.update_of_ne hji ..).symm, (Function.update_of_ne hji ..).trans hwriter⟩
  · intro j n hj hw hn
    have hji : j ≠ i := by
      rintro rfl
      rw [show (h.dispatched j d).writer j = none from Function.update_self ..] at hn
      cases hn
    rw [show (h.dispatched i d).writer j = h.writer j from Function.update_of_ne hji ..] at hn
    rw [show (h.dispatched i d).current j = h.current j from Function.update_of_ne hji ..]
    rw [CtrlState.deviceOf, hslots j hji] at *
    obtain ⟨hmem, hheld⟩ := hf.written j n hj hw hn
    refine ⟨hmem, fun hslot => ?_⟩
    by_cases hjd : (g.slots j).deviceIndex = d
    · rw [hjd, hself] at hslot
      exact absurd (Option.some.inj hslot).symm hji
    · rw [hdevice _ hjd] at hslot
      rw [hold _ hjd]
      exact hheld hslot
  · exact hf.caused

/-- A device gives up the command of slot `i`. -/
theorem Fits.released (hf : h.Fits g) {d : DevIx} {i : SlotIx} (hd : (g.slots i).deviceIndex = d)
    (hfree : (g.slots i).state ≠ .free) (hholds : (g.devices d).Holds)
    (hi : (g.devices d).inflightSlot = some i) (hgone : (g'.devices d).inflightSlot = none)
    (hothers : ∀ e, e ≠ d → g'.devices e = g.devices e) {e : Slot}
    (hslots : g'.slots = Function.update g.slots i e) (he : e.state ≠ .inflight)
    (hdevice : e.deviceIndex = d) (hwritten : e.completionWritten = (g.slots i).completionWritten) :
    (h.released g d i).Fits g' := by
  have holds_of (a : DevIx) (ha : (g'.devices a).Holds) : a ≠ d ∧ (g.devices a).Holds := by
    have had : a ≠ d := by
      rintro rfl
      exact ha.2 hgone
    rw [hothers a had] at ha
    exact ⟨had, ha⟩
  constructor
  · intro a ha
    obtain ⟨had, hbefore⟩ := holds_of a ha
    obtain ⟨hlt, hnot⟩ := hf.held a hbefore
    refine ⟨hlt, fun hmem => ?_⟩
    rw [History.released, List.map_append, List.mem_append] at hmem
    rcases hmem with hmem | hmem
    · exact hnot hmem
    · exact had (hf.distinct a d hbefore hholds (List.mem_singleton.mp hmem))
  · intro a b ha hb hab
    exact hf.distinct a b (holds_of a ha).2 (holds_of b hb).2 hab
  · intro c hc
    rcases List.mem_append.mp hc with hc | hc
    · exact hf.counted c hc
    · rw [List.mem_singleton.mp hc]
      exact (hf.held d hholds).1
  · rw [History.released, List.map_append]
    refine hf.once.append (List.nodup_singleton _) fun x hx hx' => ?_
    rw [List.map_singleton, List.mem_singleton] at hx'
    rw [hx'] at hx
    exact (hf.held d hholds).2 hx
  · intro j hj
    by_cases hji : j = i
    · rw [hji, hslots, Function.update_self] at hj
      exact absurd hj he
    · rw [hslots, Function.update_of_ne hji] at hj ⊢
      exact hf.inflight j hj
  · intro j n hj hw hn
    by_cases hji : j = i
    · rw [hji] at hn ⊢
      rw [hji, hslots, Function.update_self] at hw
      rw [CtrlState.deviceOf, hslots, Function.update_self, hdevice, hgone]
      exact ⟨(hf.written i n hfree (hwritten ▸ hw) hn).1, (fun hslot => by cases hslot)⟩
    · rw [hslots, Function.update_of_ne hji] at hj hw
      rw [CtrlState.deviceOf, hslots, Function.update_of_ne hji]
      obtain ⟨hmem, hsame⟩ := hf.written j n hj hw hn
      refine ⟨hmem, fun hslot => ?_⟩
      by_cases hjd : (g.slots j).deviceIndex = d
      · rw [hjd, hgone] at hslot
        cases hslot
      · rw [hothers _ hjd] at hslot
        exact hsame hslot
  · intro c hc n hn
    rcases List.mem_append.mp hc with hc | hc
    · exact hf.caused c hc n hn
    · -- the completion in the slot has completed the dispatch that is counted down
      rw [List.mem_singleton.mp hc] at hn ⊢
      have hcause : h.cause g i = some n := hn
      unfold cause at hcause
      split at hcause
      · rename_i hw
        obtain ⟨hmem, hsame⟩ := hf.written i n hfree hw hcause
        rw [CtrlState.deviceOf, hd] at hsame
        show (n, h.holder d) ∈ h.completed
        rw [hsame hi]
        exact hmem
      · cases hcause

/-- Reporting a job counts the command of its device down when the job still held it. -/
theorem Fits.reported (hf : h.Fits g) (hg : TransportInv g) (hg' : TransportInv g') {i : SlotIx}
    (hst : (g.slots i).state = .completionPending)
    (heq : g' = (releaseTransport g i).setSlot i { g.slots i with state := .completing }) :
    (h.after g g').Fits g' := by
  have hused : (g.devices (g.slots i).deviceIndex).used = true := hg.used i (by simp [hst])
  have hslots : g'.slots = Function.update g.slots i { g.slots i with state := .completing } := by
    rw [heq, CtrlState.setSlot_slots, releaseTransport_slots]
  have hinflight (j : SlotIx) (hj : (g'.slots j).state = .inflight) :
      (g.slots j).state = .inflight ∧ (g'.slots j).deviceIndex = (g.slots j).deviceIndex := by
    by_cases hji : j = i
    · rw [hji, hslots, Function.update_self] at hj
      cases hj
    · rw [hslots, Function.update_of_ne hji] at hj ⊢
      exact ⟨hj, rfl⟩
  by_cases hheld : (g.devices (g.slots i).deviceIndex).inflightSlot = some i
  · have hdevices : g'.devices = Function.update g.devices (g.slots i).deviceIndex
        { g.devices (g.slots i).deviceIndex with
          inflightSlot := none, transportInflight := false } := by
      rw [heq, CtrlState.setSlot_devices, releaseTransport]
      dsimp only
      rw [if_pos hheld]
      rfl
    have hgone : (g'.devices (g.slots i).deviceIndex).inflightSlot = none := by
      rw [hdevices, Function.update_self]
    have hothers (e : DevIx) (he : e ≠ (g.slots i).deviceIndex) : g'.devices e = g.devices e := by
      rw [hdevices, Function.update_of_ne he]
    have hafter : h.after g g' = h.released g (g.slots i).deviceIndex i := by
      unfold History.after
      rw [countedDown_eq_some hused hheld hgone fun e he => by rw [hothers e he],
        started_eq_none fun j hj => (hinflight j hj).1]
    have hholds : (g.devices (g.slots i).deviceIndex).Holds := ⟨hused, by rw [hheld]; simp⟩
    rw [hafter]
    exact hf.released rfl (by simp [hst]) hholds hheld hgone hothers hslots (by simp) rfl rfl
  · have hdevices : g'.devices = g.devices := by
      rw [heq, CtrlState.setSlot_devices, releaseTransport]
      dsimp only
      rw [if_neg hheld]
    have hkeeps : Keeps g g' := by
      refine ⟨fun d _ => by rw [hdevices], fun d hd => by rwa [hdevices] at hd, hinflight, ?_⟩
      intro j hj hw
      by_cases hji : j = i
      · rw [hji, hslots, Function.update_self] at hw ⊢
        exact Or.inr ⟨by simp [hst], hw, rfl⟩
      · rw [hslots, Function.update_of_ne hji] at hj hw ⊢
        exact Or.inr ⟨hj, hw, rfl⟩
    rw [hkeeps.after]
    exact hf.keeps hg' hkeeps

end History

/-! ## One step -/

theorem SlotMove.written {s s' : Slot} (h : SlotMove s s') :
    s'.completionWritten = s.completionWritten := by
  cases h <;> rfl

/-- Devices that only change their other fields, and slots that move or stop waiting. -/
theorem Keeps.of_devices {g g' : CtrlState} (hd : DevicesMove g g')
    (hslots : ∀ i, SlotMove (g.slots i) (g'.slots i) ∨
      (g'.slots i).state ≠ .inflight ∧ (g'.slots i).completionWritten = false) : Keeps g g' where
  held d h := ((hd.entry d).kept h.1).2.1
  holding d h := by
    by_cases hused : (g.devices d).used = true
    · exact ⟨hused, fun hnone => h.2 (((hd.entry d).kept hused).2.1.trans hnone)⟩
    · exact absurd ((hd.entry d).fresh (by simpa using hused) h.1) h.2
  inflight i hi := by
    rcases hslots i with hm | ⟨hne, -⟩
    · have hsame := hm.inflight hi
      rw [hsame] at hi ⊢
      exact ⟨hi, rfl⟩
    · exact absurd hi hne
  written i hi hw := by
    rcases hslots i with hm | ⟨-, hfalse⟩
    · rw [hm.written] at hw
      exact Or.inr ⟨fun hfree => hi (hm.free_iff.mpr hfree), hw, hm.deviceIndex⟩
    · rw [hfalse] at hw
      cases hw

theorem Keeps.completed {g g' : CtrlState} {i : SlotIx} (hc : Completes g g' i) : Keeps g g' := by
  obtain ⟨r, hslots⟩ := hc.slots
  refine ⟨fun d _ => by rw [hc.devices], fun d hd => by rwa [hc.devices] at hd, ?_, ?_⟩
  · intro j hj
    by_cases hji : j = i
    · rw [hji, hslots, Function.update_self] at hj
      cases hj
    · rw [hslots, Function.update_of_ne hji] at hj ⊢
      exact ⟨hj, rfl⟩
  · intro j hj hw
    by_cases hji : j = i
    · rw [hji]
      exact Or.inl hc.inflight
    · rw [hslots, Function.update_of_ne hji] at hj hw ⊢
      exact Or.inr ⟨hj, hw, rfl⟩

/-- What the history is about: the device table, the slots and their numbers. -/
structure Noted (h : History) (g : CtrlState) : Prop where
  tables : TablesInv g
  sound : ∀ i, (g.slots i).Sound i
  fits : h.Fits g

/-- A section keeps the history fitting. -/
theorem Noted.step {h : History} {s s' : Sys} {l : Label} (hn : Noted h s.ctrl)
    (hs : s.step l = some s') : Noted (h.after s.ctrl s'.ctrl) s'.ctrl := by
  have htables := hn.tables.step hs
  refine ⟨htables, sound_step hn.sound hs, ?_⟩
  have keeps (hk : Keeps s.ctrl s'.ctrl) : (h.after s.ctrl s'.ctrl).Fits s'.ctrl := by
    rw [hk.after]
    exact hn.fits.keeps htables.transport hk
  cases step_slots hs with
  | quiet hq _ _ => exact keeps (.of_devices hq.devices fun i => Or.inl (hq.slots i))
  | called _ hctrl _ _ _ =>
      refine keeps (.of_devices (.of_eq ?_) fun i => Or.inl ?_)
      · rw [hctrl]
      · rw [hctrl]
        exact .stay
  | @accepted job completion context now k _ _ ha _ _ _ =>
      refine keeps (.of_devices ha.devices fun i => ?_)
      by_cases hik : i = k
      · obtain ⟨id, d, hslot, -⟩ := ha.slot
        rw [hik, hslot]
        exact Or.inr ⟨(fun hst => by cases hst), rfl⟩
      · exact Or.inl (ha.move hik)
  | completed hc _ _ => exact keeps (.completed hc)
  | dispatched _ _ hsel hctrl _ _ =>
      rw [hctrl]
      exact hn.fits.dispatched hn.tables.transport hsel
  | reported _ hst hctrl _ _ _ =>
      exact hn.fits.reported hn.tables.transport htables.transport hst hctrl
  | @cleared final k _ hctrl _ _ =>
      refine keeps (.of_devices (.of_eq (by rw [hctrl]; rfl)) fun i => ?_)
      rw [hctrl]
      by_cases hik : i = k
      · rw [hik, clearSlot, CtrlState.setSlot_slots, Function.update_self]
        exact Or.inr ⟨(fun hst => by cases hst), rfl⟩
      · rw [clearSlot, CtrlState.setSlot_slots, Function.update_of_ne hik]
        exact Or.inl .stay

section Delivery

variable {h : History} {g : CtrlState}

/-- A delivery completes what is in flight in the slot of the context. -/
theorem afterDelivery_eq (hn : Noted h g) (n : Nat) (k : SlotIx)
    (result : Option DeviceCommandResult) :
    h.afterDelivery n g (dcsComplete g k result) =
      if (g.slots k).state = .inflight then h.delivered n k else h := by
  rw [dcsComplete_sound hn.sound]
  by_cases hk : (g.slots k).state = .inflight
  · rw [if_pos hk, if_pos hk]
    have hwritten : written g
        (g.setSlot k ((g.slots k).complete (result.getD { status := .internal }))) = some k := by
      refine written_eq_some hk ?_ fun j hj => ?_
      · simp [Slot.complete]
      · simp [hj]
    unfold History.afterDelivery
    rw [hwritten]
  · rw [if_neg hk, if_neg hk]
    unfold History.afterDelivery
    rw [written_self]

theorem Noted.delivered (hn : Noted h g) (n : Nat) (k : SlotIx)
    (result : Option DeviceCommandResult) :
    Noted (h.afterDelivery n g (dcsComplete g k result)) (dcsComplete g k result) := by
  rw [afterDelivery_eq hn, dcsComplete_sound hn.sound]
  by_cases hk : (g.slots k).state = .inflight
  · rw [if_pos hk, if_pos hk]
    generalize hr : result.getD { status := .internal } = r
    have hc : Completes g (g.setSlot k ((g.slots k).complete r)) k := ⟨hk, ⟨r, rfl⟩, rfl, rfl, rfl⟩
    have hothers (j : SlotIx) (hj : j ≠ k) :
        (g.setSlot k ((g.slots k).complete r)).slots j = g.slots j := by
      simp [hj]
    refine ⟨⟨hn.tables.transport.completed hc, hn.tables.lease.kept ⟨rfl, fun _ => rfl⟩,
      hn.tables.device.completed hc⟩, fun j => ?_, ?_⟩
    · by_cases hj : j = k
      · rw [hj, CtrlState.setSlot_slots, Function.update_self]
        exact ⟨(hn.sound k).context, (fun hst => by cases hst), (fun hw => by cases hw),
          fun _ => (hn.sound k).generation (by simp [hk])⟩
      · rw [hothers j hj]
        exact hn.sound j
    · refine ⟨hn.fits.held, hn.fits.distinct, hn.fits.counted, hn.fits.once, ?_, ?_, ?_⟩
      · intro j hj
        by_cases hjk : j = k
        · rw [hjk, CtrlState.setSlot_slots, Function.update_self] at hj
          cases hj
        · rw [hothers j hjk] at hj ⊢
          obtain ⟨hholder, hwriter⟩ := hn.fits.inflight j hj
          exact ⟨hholder, (Function.update_of_ne hjk ..).trans hwriter⟩
      · intro j m hj hw hm
        by_cases hjk : j = k
        · have hself : (h.delivered n k).writer k = some n := Function.update_self ..
          rw [hjk, hself] at hm
          cases hm
          rw [hjk]
          refine ⟨List.mem_append_right _ List.mem_cons_self, fun _ => ?_⟩
          rw [CtrlState.setSlot_slots, Function.update_self]
          exact (hn.fits.inflight k hk).1
        · have hsame : (h.delivered n k).writer j = h.writer j := Function.update_of_ne hjk ..
          rw [hsame] at hm
          rw [hothers j hjk] at hj hw
          rw [CtrlState.deviceOf, hothers j hjk]
          obtain ⟨hmem, hheld⟩ := hn.fits.written j m hj hw hm
          exact ⟨List.mem_append_left _ hmem, hheld⟩
      · intro c hc m hm
        exact List.mem_append_left _ (hn.fits.caused c hc m hm)
  · rw [if_neg hk, if_neg hk]
    exact hn

/-- Nothing is left of an earlier life but the numbers. -/
theorem Noted.fresh (hf : h.Fits g) (task running : Bool) :
    Noted h { task := task, running := running } where
  tables := .fresh task running
  sound i := sound_free 0 i
  fits :=
    { held := fun _ h => by cases h.1
      distinct := fun _ _ h => by cases h.1
      counted := hf.counted
      once := hf.once
      inflight := fun _ h => by cases h
      written := fun _ _ h => absurd rfl h
      caused := hf.caused }

theorem Noted.off : Noted off.history off.sys.ctrl := by
  have hfits : History.Fits {} {} :=
    { held := fun _ h => by cases h.1
      distinct := fun _ _ h => by cases h.1
      counted := fun _ h => absurd h List.not_mem_nil
      once := List.nodup_nil
      inflight := fun _ h => by cases h
      written := fun _ _ h => absurd rfl h
      caused := fun _ h => absurd h List.not_mem_nil }
  exact Noted.fresh hfits false false

/-- Where every completion has found its own dispatch, none has led to two decrements. -/
theorem identified_of_own (hf : h.Fits g) (hown : ∀ p ∈ h.completed, p.1 = p.2) : Identified h := by
  refine ⟨hown, hf.once, ?_⟩
  have hdistinct := List.pairwise_map.mp hf.once
  rw [List.Nodup, List.pairwise_filterMap]
  refine hdistinct.imp_of_mem fun {a b} ha hb hab n hn m hm hnm => hab ?_
  calc a.2 = n := (hown _ (hf.caused a ha n hn)).symm
    _ = m := hnm
    _ = b.2 := hown _ (hf.caused b hb m hm)

end Delivery

theorem after_completed (h : History) (g g' : CtrlState) :
    (h.after g g').completed = h.completed := by
  unfold History.after
  cases countedDown g g' <;> cases started g g' <;> rfl

section Step

variable {x x' : Lives} {a : Act}

theorem Lives.noted_step (hn : Noted x.history x.sys.ctrl) (hs : x.step a = some x') :
    Noted x'.history x'.sys.ctrl := by
  cases a with
  | call l =>
      have hcall : ∃ s, x.sys.step l = some s ∧
          { x with sys := s, history := x.history.after x.sys.ctrl s.ctrl } = x' := by
        cases l <;> first | exact Option.map_eq_some_iff.mp hs | cases hs
      obtain ⟨s, hstep, rfl⟩ := hcall
      exact hn.step hstep
  | stale w now answer =>
      obtain ⟨pc, -, hs⟩ := Option.bind_eq_some_iff.mp hs
      obtain ⟨s, hstep, rfl⟩ := Option.map_eq_some_iff.mp hs
      have hworker : (x.seenBy pc).step (.worker now answer) = some s := hstep
      have hseen : Noted x.history (x.seenBy pc).ctrl := hn
      exact hseen.step hworker
  | deliver n result =>
      obtain ⟨k, -, rfl⟩ := Option.map_eq_some_iff.mp hs
      exact hn.delivered n k result
  | init created =>
      rw [Lives.step] at hs
      have hinit (htask : ¬ x.sys.ctrl.task = true) (created : Bool) :
          (Scheduler.init x.sys.ctrl created).1 = { task := created, running := created } := by
        rw [Scheduler.init, if_neg htask]
        cases created <;> rfl
      split_ifs at hs with htask hcreated
      · cases hs
        exact hn
      · cases hs
        show Noted x.history (Scheduler.init x.sys.ctrl true).1
        rw [hinit htask]
        exact Noted.fresh hn.fits true true
      · cases hs
        show Noted x.history (Scheduler.init x.sys.ctrl false).1
        rw [hinit htask]
        exact Noted.fresh hn.fits false false

/-- **One step** breaks the identity of the dispatches exactly if it delivers a completion to
another dispatch that is in flight in the same slot. -/
theorem identified_step_iff (hn : Noted x.history x.sys.ctrl) (h : Identified x.history)
    (hs : x.step a = some x') : Identified x'.history ↔ x.Own a := by
  have hn' := Lives.noted_step hn hs
  have kept (hsame : x'.history.completed = x.history.completed) : Identified x'.history := by
    refine identified_of_own hn'.fits fun p hp => h.own p ?_
    rwa [hsame] at hp
  cases a with
  | call l =>
      refine iff_of_true (kept ?_) trivial
      have hcall : ∃ s, x.sys.step l = some s ∧
          { x with sys := s, history := x.history.after x.sys.ctrl s.ctrl } = x' := by
        cases l <;> first | exact Option.map_eq_some_iff.mp hs | cases hs
      obtain ⟨s, -, rfl⟩ := hcall
      exact after_completed ..
  | stale w now answer =>
      refine iff_of_true (kept ?_) trivial
      obtain ⟨pc, -, hs⟩ := Option.bind_eq_some_iff.mp hs
      obtain ⟨s, -, rfl⟩ := Option.map_eq_some_iff.mp hs
      exact after_completed ..
  | init created =>
      refine iff_of_true (kept ?_) trivial
      rw [Lives.step] at hs
      split_ifs at hs <;> cases hs <;> rfl
  | deliver n result =>
      obtain ⟨k, hk, heq⟩ := Option.map_eq_some_iff.mp hs
      have hhistory : x'.history =
          if (x.sys.ctrl.slots k).state = .inflight then x.history.delivered n k
          else x.history := by
        rw [← heq]
        exact afterDelivery_eq hn n k result
      by_cases hin : (x.sys.ctrl.slots k).state = .inflight
      · rw [if_pos hin] at hhistory
        constructor
        · intro hid k' hk' _
          obtain rfl := Option.some.inj (hk.symm.trans hk')
          have hmem : (n, x.history.current k) ∈ x'.history.completed := by
            rw [hhistory]
            exact List.mem_append_right _ List.mem_cons_self
          exact (hid.own _ hmem).symm
        · intro hown
          refine identified_of_own hn'.fits fun p hp => ?_
          rw [hhistory] at hp
          rcases List.mem_append.mp hp with hp | hp
          · exact h.own p hp
          · rw [List.mem_singleton.mp hp]
            exact (hown k hk hin).symm
      · rw [if_neg hin] at hhistory
        refine iff_of_true (kept (by rw [hhistory])) fun k' hk' hin' => ?_
        obtain rfl := Option.some.inj (hk.symm.trans hk')
        exact absurd hin' hin

end Step

/-! ## Runs -/

/-- **Dispatch identity.** Along a run each completion completes the dispatch it was issued for, and
leads to one decrement at most, exactly if no completion is delivered while another dispatch is in
flight in the slot of its context. -/
theorem identified_run_iff {as : List Act} {x : Lives} (h : lives.run off as = some x) :
    (∀ ks y, ks <+: as → lives.run off ks = some y → Identified y.history) ↔
      ∀ ks a y, ks ++ [a] <+: as → lives.run off ks = some y → y.Own a := by
  refine Machine.run_holds_iff (I := fun y => Noted y.history y.sys.ctrl)
    (P := fun y => Identified y.history) (fun y a y' hI hstep => Lives.noted_step hI hstep)
    (fun y a y' hI hP hstep => identified_step_iff hI hP hstep) Noted.off ?_ h
  exact identified_of_own Noted.off.fits fun p hp => absurd hp List.not_mem_nil

/-- A start, a job, and a pass of the worker that hands it over. -/
def handOver : List Act :=
  [.init true, .call (.submit (some (jobOn 1 .high)) 1 0 0)] ++ (workerSteps 47).map .call

/-- A stop, with the worker's last pass. -/
def shutDown : List Act :=
  [.call .deinitMark, .call .deinitStop] ++ (workerSteps 46).map .call ++ [.call .deinitReturn]

/-- Each of two lives dispatches a job and completes it. The first completion is delivered twice. -/
def twoLives : List Act :=
  handOver ++ [.deliver 0 none] ++ (workerSteps 48).map .call ++ [.deliver 0 none] ++ shutDown ++
    handOver ++ [.deliver 1 none] ++ (workerSteps 48).map .call

set_option maxRecDepth 100000 in
theorem identified_run_iff_twoLives : ∃ x, lives.run off twoLives = some x ∧
    x.history.completed = [(0, 0), (1, 1)] ∧ x.history.countdowns = [(some 0, 0), (some 1, 1)] ∧
    ((∀ ks y, ks <+: twoLives → lives.run off ks = some y → Identified y.history) ↔
      ∀ ks a y, ks ++ [a] <+: twoLives → lives.run off ks = some y → y.Own a) := by
  have hrun : ((lives.run off twoLives).map fun x => decide (
      x.history.completed = [(0, 0), (1, 1)] ∧
        x.history.countdowns = [(some 0, 0), (some 1, 1)])) = some true := by
    decide +kernel
  obtain ⟨x, hx, hp⟩ := Option.map_eq_some_iff.mp hrun
  obtain ⟨hcompleted, hcounted⟩ := of_decide_eq_true hp
  exact ⟨x, hx, hcompleted, hcounted, identified_run_iff hx⟩

set_option maxRecDepth 100000 in
/-- The scheduler stops with a command in flight, starts again and hands over another job from the
same slot: the completion of the first command, delivered for the first time, completes it. -/
theorem completed_another : ∃ x, lives.Reachable x ∧ (0, 1) ∈ x.history.completed ∧
    ¬ Identified x.history := by
  have hrun : ((lives.run off (handOver ++ shutDown ++ handOver ++ [.deliver 0 none])).map fun x =>
      decide ((0, 1) ∈ x.history.completed)) = some true := by
    decide +kernel
  obtain ⟨x, hx, hp⟩ := Machine.exists_reachable_of_run rfl hrun
  have hmem := of_decide_eq_true hp
  exact ⟨x, hx, hmem, fun h => absurd (h.own _ hmem) (by decide)⟩

end BleGateway.Scheduler
