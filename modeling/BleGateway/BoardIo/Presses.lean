import BleGateway.BoardIo.Button
import BleGateway.Lib.Machine
import Mathlib.Data.List.Nodup

/-! # The events of a press

`board_button_fsm_feed` over arbitrary calls. The time of a press counts from its recorded start.
While the button is held, a clock that has gone back ends the press without an event; the release
has no such test, and there the difference wraps around to a very long press.
-/

namespace BleGateway.BoardIo.Presses

/-! ## The state machine and what it has emitted -/

/-- The arguments of a call of `board_button_fsm_feed`. -/
structure FeedCall where
  pressedNow : Bool
  now : UInt64
  restartMs : UInt32
  factoryMs : UInt32
  deriving DecidableEq

/-- An event, with the number and the recorded start of its press, and the call that emitted it. -/
structure Emission where
  event : IoEvent
  press : Nat
  startMs : UInt64
  call : FeedCall
  deriving DecidableEq

/-- The state machine, the number of presses it has recorded and the events it has emitted. -/
structure Sys where
  fsm : Fsm := {}
  presses : Nat := 0
  emitted : List Emission := []
  deriving DecidableEq

def FeedCall.apply (c : FeedCall) (fsm : Fsm) : Fsm × FeedResult :=
  feed fsm c.pressedNow c.now c.restartMs c.factoryMs

def Sys.emission (s : Sys) (c : FeedCall) (event : IoEvent) : Emission :=
  { event := event, press := s.presses, startMs := s.fsm.pressStartMs, call := c }

def Sys.step (s : Sys) (c : FeedCall) : Option Sys :=
  let fed := c.apply s.fsm
  some
    { fsm := fed.1
      presses := if !s.fsm.pressed && fed.1.pressed then s.presses + 1 else s.presses
      emitted := s.emitted ++ (fed.2.event.map (s.emission c)).toList }

def machine : Machine Sys FeedCall where
  init s := s = {}
  step := Sys.step

/-- The threshold that an event stands for. -/
def IoEvent.threshold (c : FeedCall) : IoEvent → Option UInt32
  | .factoryResetRequest => some c.factoryMs
  | .restartRequest => some c.restartMs
  | .buttonShortPress => none

/-- A request is emitted on a release, and by the clock its threshold has passed since the recorded
start. -/
def Emission.Due (e : Emission) : Prop :=
  ∀ threshold ∈ IoEvent.threshold e.call e.event,
    e.call.pressedNow = false ∧ e.startMs.toNat + threshold.toNat ≤ e.call.now.toNat

/-- **No spurious request:** every request is due, and no press has two events. -/
structure Sys.Sound (s : Sys) : Prop where
  due : ∀ e ∈ s.emitted, e.Due
  once : (s.emitted.map Emission.press).Nodup

/-- A release does not come before the recorded start, or the wrapped difference is below both
thresholds. -/
def Sys.KeepsTime (s : Sys) (c : FeedCall) : Prop :=
  s.fsm.pressed = true → c.pressedNow = false →
    s.fsm.pressStartMs ≤ c.now ∨
      (c.now - s.fsm.pressStartMs < c.restartMs.toUInt64 ∧
        c.now - s.fsm.pressStartMs < c.factoryMs.toUInt64)

/-! ## What a call does -/

variable {c : FeedCall} {s s' : Sys}

/-- A call that releases a press emits its event. -/
theorem apply_release {fsm : Fsm} (hnow : c.pressedNow = false) (hpressed : fsm.pressed = true) :
    c.apply fsm = ({ fsm with state := .released, pressed := false },
      { event := some (classify (c.now - fsm.pressStartMs) c.restartMs c.factoryMs) }) := by
  simp [FeedCall.apply, feed, hnow, hpressed]

/-- Any other call emits nothing. -/
theorem apply_event {fsm : Fsm} (h : ¬(c.pressedNow = false ∧ fsm.pressed = true)) :
    (c.apply fsm).2.event = none := by
  unfold FeedCall.apply feed
  cases hnow : c.pressedNow with
  | false =>
      have hpressed : fsm.pressed = false := by
        cases hp : fsm.pressed with
        | false => rfl
        | true => exact absurd ⟨hnow, hp⟩ h
      simp [hpressed]
  | true =>
      simp only [Bool.not_true, Bool.false_eq_true, if_false]
      split
      · rfl
      · split <;> rfl

/-- The event of a release is due exactly if the clock has not gone back behind the start, or both
thresholds are above the wrapped difference. -/
theorem due_classify_iff (hnow : c.pressedNow = false) (press : Nat) (start : UInt64) :
    Emission.Due ⟨classify (c.now - start) c.restartMs c.factoryMs, press, start, c⟩ ↔
      start ≤ c.now ∨
        (c.now - start < c.restartMs.toUInt64 ∧ c.now - start < c.factoryMs.toUInt64) := by
  have hfactory : c.factoryMs.toUInt64.toNat = c.factoryMs.toNat := UInt32.toNat_toUInt64 _
  have hrestart : c.restartMs.toUInt64.toNat = c.restartMs.toNat := UInt32.toNat_toUInt64 _
  unfold Emission.Due classify
  by_cases hle : start ≤ c.now
  · -- the difference is the time that has passed
    have hsub : (c.now - start).toNat = c.now.toNat - start.toNat :=
      UInt64.toNat_sub_of_le _ _ hle
    have hstart := UInt64.le_iff_toNat_le.mp hle
    refine iff_of_true ?_ (.inl hle)
    intro threshold ht
    split at ht
    · rename_i hd
      obtain rfl : c.factoryMs = threshold := by simpa [IoEvent.threshold] using ht
      rw [ge_iff_le, UInt64.le_iff_toNat_le, hsub, hfactory] at hd
      refine ⟨hnow, ?_⟩
      show start.toNat + c.factoryMs.toNat ≤ c.now.toNat
      omega
    · split at ht
      · rename_i hd
        obtain rfl : c.restartMs = threshold := by simpa [IoEvent.threshold] using ht
        rw [ge_iff_le, UInt64.le_iff_toNat_le, hsub, hrestart] at hd
        refine ⟨hnow, ?_⟩
        show start.toNat + c.restartMs.toNat ≤ c.now.toNat
        omega
      · simp [IoEvent.threshold] at ht
  · have hlt : c.now.toNat < start.toNat := by
      rw [UInt64.le_iff_toNat_le] at hle
      omega
    rw [or_iff_right hle]
    constructor
    · intro h
      split at h
      · have := (h c.factoryMs rfl).2
        dsimp only at this
        omega
      · rename_i hf
        split at h
        · have := (h c.restartMs rfl).2
          dsimp only at this
          omega
        · rename_i hr
          exact ⟨UInt64.not_le.mp hr, UInt64.not_le.mp hf⟩
    · rintro ⟨hr, hf⟩
      rw [if_neg (UInt64.not_le.mpr hf), if_neg (UInt64.not_le.mpr hr)]
      intro threshold ht
      simp [IoEvent.threshold] at ht

/-! ## One event per press -/

/-- The events belong to recorded presses, and the press that is on has none yet. -/
structure Sys.Numbered (s : Sys) : Prop where
  recorded : ∀ e ∈ s.emitted, e.press ≤ s.presses
  current : s.fsm.pressed = true → ∀ e ∈ s.emitted, e.press < s.presses
  once : (s.emitted.map Emission.press).Nodup

/-- Without a release the events stay as they are. -/
theorem step_emitted (h : s.step c = some s')
    (hc : ¬(c.pressedNow = false ∧ s.fsm.pressed = true)) :
    s'.emitted = s.emitted := by
  cases h
  simp [apply_event hc]

/-- A release emits one event and ends the press. -/
theorem step_release (h : s.step c = some s') (hnow : c.pressedNow = false)
    (hpressed : s.fsm.pressed = true) :
    s'.fsm.pressed = false ∧ s'.presses = s.presses ∧ s'.emitted = s.emitted ++
      [s.emission c (classify (c.now - s.fsm.pressStartMs) c.restartMs c.factoryMs)] := by
  cases h
  rw [apply_release hnow hpressed]
  exact ⟨rfl, by simp [hpressed], rfl⟩

theorem Sys.Numbered.step (h : s.Numbered) (hstep : s.step c = some s') :
    s'.Numbered := by
  by_cases hc : c.pressedNow = false ∧ s.fsm.pressed = true
  · obtain ⟨hpressed, hpresses, hemitted⟩ := step_release hstep hc.1 hc.2
    have hold := h.current hc.2
    constructor
    · intro e he
      rw [hemitted, List.mem_append, List.mem_singleton] at he
      rw [hpresses]
      rcases he with he | rfl
      · exact h.recorded e he
      · exact Nat.le_refl _
    · intro hp
      rw [hpressed] at hp
      cases hp
    · rw [hemitted, List.map_append, List.map_singleton]
      refine List.nodup_append.mpr ⟨h.once, List.nodup_singleton _, ?_⟩
      intro k hk k' hk' heq
      obtain ⟨e, he, rfl⟩ := List.mem_map.mp hk
      have hnew : k' = s.presses := List.mem_singleton.mp hk'
      have := hold e he
      omega
  · have hemitted := step_emitted hstep hc
    -- a press that is on without a new number was on before
    have hpresses : (s'.presses = s.presses ∧ (s'.fsm.pressed = true → s.fsm.pressed = true)) ∨
        s'.presses = s.presses + 1 := by
      cases hstep
      dsimp only
      cases s.fsm.pressed <;> cases (c.apply s.fsm).1.pressed <;> simp
    constructor
    · intro e he
      rw [hemitted] at he
      have := h.recorded e he
      omega
    · intro hp e he
      rw [hemitted] at he
      rcases hpresses with ⟨hsame, hon⟩ | hnext
      · rw [hsame]
        exact h.current (hon hp) e he
      · have := h.recorded e he
        omega
    · rw [hemitted]
      exact h.once

/-! ## The requests that are due -/

theorem Sys.Sound.step_iff (hi : s.Numbered) (h : s.Sound) (hstep : s.step c = some s') :
    s'.Sound ↔ s.KeepsTime c := by
  have honce : (s'.emitted.map Emission.press).Nodup := (hi.step hstep).once
  by_cases hc : c.pressedNow = false ∧ s.fsm.pressed = true
  · obtain ⟨-, -, hemitted⟩ := step_release hstep hc.1 hc.2
    have hiff := due_classify_iff hc.1 s.presses s.fsm.pressStartMs
    constructor
    · intro hs _ _
      refine hiff.mp (hs.due _ ?_)
      rw [hemitted]
      exact List.mem_append_right _ (List.mem_singleton.mpr rfl)
    · intro hk
      refine ⟨?_, honce⟩
      intro e he
      rw [hemitted, List.mem_append, List.mem_singleton] at he
      rcases he with he | rfl
      · exact h.due e he
      · exact hiff.mpr (hk hc.2 hc.1)
  · have hemitted := step_emitted hstep hc
    refine iff_of_true ⟨?_, honce⟩ fun hp hn => absurd ⟨hn, hp⟩ hc
    rw [hemitted]
    exact h.due

/-- **No spurious factory reset.** Along the calls each request is due and each press has at most
one event exactly if no release comes before the recorded start of its press with a wrapped
difference that reaches a threshold. -/
theorem sound_run_iff {s t : Sys} {cs : List FeedCall} (h0 : machine.init s)
    (h : machine.run s cs = some t) :
    (∀ ks u, ks <+: cs → machine.run s ks = some u → u.Sound) ↔
      ∀ ks c u, ks ++ [c] <+: cs → machine.run s ks = some u → u.KeepsTime c := by
  have hempty : s = {} := h0
  have hnumbered : s.Numbered := by
    rw [hempty]
    exact ⟨by simp, by simp, by simp⟩
  have hsound : s.Sound := by
    rw [hempty]
    exact ⟨by simp, by simp⟩
  exact Machine.run_holds_iff (fun _ _ _ hi hstep => hi.step hstep)
    (fun _ _ _ hi hs hstep => hs.step_iff hi hstep) hnumbered hsound h

/-- A press of ten seconds. -/
def longPress : List FeedCall :=
  [⟨true, 1000, 3000, 8000⟩, ⟨true, 9000, 3000, 8000⟩, ⟨false, 11000, 3000, 8000⟩]

theorem sound_run_iff_longPress : ∃ t, machine.run {} longPress = some t ∧
    t.emitted.map Emission.event = [.factoryResetRequest] ∧
    ((∀ ks u, ks <+: longPress → machine.run {} ks = some u → u.Sound) ↔
      ∀ ks c u, ks ++ [c] <+: longPress → machine.run {} ks = some u → u.KeepsTime c) := by
  have hrun : ((machine.run {} longPress).map fun t => decide (
      t.emitted.map Emission.event = [.factoryResetRequest])) = some true := by decide
  obtain ⟨t, ht, hp⟩ := Option.map_eq_some_iff.mp hrun
  exact ⟨t, ht, of_decide_eq_true hp, sound_run_iff rfl ht⟩

/-- A press recorded at 1000 ms and released at 999 ms asks for a factory reset. -/
theorem spurious_reset : ¬ ∀ cs t, machine.run {} cs = some t → t.Sound := by
  intro h
  have hrun : ((machine.run {} [⟨true, 1000, 3000, 8000⟩, ⟨false, 999, 3000, 8000⟩]).map fun t =>
      decide (t.emitted = [⟨.factoryResetRequest, 1, 1000, ⟨false, 999, 3000, 8000⟩⟩])) =
        some true := by decide
  obtain ⟨t, ht, hp⟩ := Option.map_eq_some_iff.mp hrun
  have hs := h _ t ht
  have hdue := hs.due ⟨.factoryResetRequest, 1, 1000, ⟨false, 999, 3000, 8000⟩⟩
    (by rw [of_decide_eq_true hp]; exact List.mem_singleton.mpr rfl)
  exact absurd (hdue 8000 rfl).2 (by decide)

end BleGateway.BoardIo.Presses
