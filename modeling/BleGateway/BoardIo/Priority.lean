import BleGateway.BoardIo.Led

/-! # The priority of the LED's sources

The README orders the sources: factory-armed, restart-armed, the error status, identify, activity,
base status. `board_led.c` has one place for an overlay, which each setter takes over. While no
setter takes the place away from a source that is still to be shown, the order is kept; any other
step is wrong at once for some status.
-/

namespace BleGateway.BoardIo.Led

/-! ## The LED and its sources -/

/-- The LED at a time, with the armed sources that the button has not released. -/
structure Sys where
  now : UInt64
  led : LedState
  factory : Bool := false
  restart : Bool := false
  deriving DecidableEq

/-- A call of `board_led.c`, or time that passes. Arming with `none` is the release. -/
inductive Label
  | pass (now : UInt64)
  | status (status : BoardStatus)
  | activity
  | identify
  | arm (overlay : Overlay)
  | process
  deriving DecidableEq

def Sys.step (σ : Sys) : Label → Option Sys
  | .pass now => if σ.now ≤ now then some { σ with now := now } else none
  | .status status => some { σ with led := setBase σ.led status σ.now }
  | .activity => some { σ with led := activityPulse σ.led σ.now }
  | .identify => some { σ with led := identifyStart σ.led σ.now }
  | .arm overlay => some { σ with
      led := setArmed σ.led overlay σ.now
      factory := match overlay with
        | .none => false
        | .restartArmed => σ.factory
        | .factoryArmed => true
      restart := match overlay with
        | .none => false
        | .restartArmed => true
        | .factoryArmed => σ.restart }
  | .process => some { σ with led := Led.process σ.led σ.now }

def machine : Machine Sys Label where
  init σ := σ = { now := σ.now, led := .start σ.now }
  step := Sys.step

/-- Identify is active until its deadline. -/
def Sys.Identifying (σ : Sys) : Prop := σ.now < σ.led.identifyDeadline

/-- Activity is active until its deadline. -/
def Sys.Pulsing (σ : Sys) : Prop := σ.now < σ.led.activityDeadline

instance (σ : Sys) : Decidable σ.Identifying := inferInstanceAs (Decidable (_ < _))
instance (σ : Sys) : Decidable σ.Pulsing := inferInstanceAs (Decidable (_ < _))

/-- The active source of the highest priority. -/
def Sys.highest (σ : Sys) : Source :=
  if σ.factory then .factoryArmed
  else if σ.restart then .restartArmed
  else if σ.led.base = .error then .status .error
  else if σ.Identifying then .identify
  else if σ.Pulsing then .activity
  else .status σ.led.base

/-- No setter takes the overlay's place from a source that is still to be shown: an activity pulse
comes when neither an armed source nor identify is active, an identify request when no armed source
is, restart is not armed over factory, and the button is released when no other overlay is
active. -/
def Orderly (σ : Sys) : Label → Prop
  | .activity => σ.factory = false ∧ σ.restart = false ∧ ¬σ.Identifying
  | .identify => σ.factory = false ∧ σ.restart = false
  | .arm .restartArmed => σ.factory = false
  | .arm .none => σ.factory = true ∨ σ.restart = true → ¬σ.Identifying ∧ ¬σ.Pulsing
  | _ => True

instance (σ : Sys) (l : Label) : Decidable (Orderly σ l) := by
  cases l with
  | arm overlay => cases overlay <;> unfold Orderly <;> infer_instance
  | _ => unfold Orderly; infer_instance

/-! ## The invariant -/

/-- The place for the overlay holds the armed source, if one is active, and else a source that is
active as long as any is. -/
structure Inv (σ : Sys) : Prop where
  factory : σ.factory = true → σ.led.overlay = .factoryArmed
  restart : σ.factory = false → σ.restart = true → σ.led.overlay = .restartArmed
  released : σ.factory = false → σ.restart = false →
    σ.led.overlay ≠ .factoryArmed ∧ σ.led.overlay ≠ .restartArmed
  identify : σ.factory = false → σ.restart = false → σ.Identifying → σ.led.overlay = .identify
  activity : σ.factory = false → σ.restart = false → σ.Pulsing →
    σ.led.overlay = .activity ∨
      (σ.led.overlay = .identify ∧ σ.led.activityDeadline ≤ σ.led.identifyDeadline)
  pulse : σ.led.activityDeadline ≤ deadlineAddMs σ.now ACTIVITY_PULSE_MS

theorem deadlineAddMs_toNat (now : UInt64) (delta : UInt32) :
    (deadlineAddMs now delta).toNat = min (2 ^ 64 - 1) (now.toNat + delta.toNat) := by
  have hmax : UINT64_MAX.toNat = 2 ^ 64 - 1 := rfl
  have hle : now ≤ UINT64_MAX := by
    rw [UInt64.le_iff_toNat_le, hmax]
    have := now.toNat_lt
    omega
  have hsub : (UINT64_MAX - now).toNat = 2 ^ 64 - 1 - now.toNat := by
    rw [UInt64.toNat_sub_of_le _ _ hle, hmax]
  have hdelta : delta.toUInt64.toNat = delta.toNat := UInt32.toNat_toUInt64 delta
  have hnow := now.toNat_lt
  unfold deadlineAddMs
  by_cases h : delta.toUInt64 ≥ UINT64_MAX - now
  · rw [if_pos h, hmax]
    rw [ge_iff_le, UInt64.le_iff_toNat_le, hsub, hdelta] at h
    omega
  · rw [if_neg h, UInt64.toNat_add, hdelta]
    rw [ge_iff_le, UInt64.le_iff_toNat_le, hsub, hdelta] at h
    omega

variable {now : UInt64} {l : Label} {σ' : Sys}

theorem deadlineAddMs_mono {later : UInt64} {delta longer : UInt32} (h : now ≤ later)
    (hd : delta ≤ longer) : deadlineAddMs now delta ≤ deadlineAddMs later longer := by
  rw [UInt64.le_iff_toNat_le, deadlineAddMs_toNat, deadlineAddMs_toNat]
  rw [UInt64.le_iff_toNat_le] at h
  rw [UInt32.le_iff_toNat_le] at hd
  omega

/-- An overlay that is given up has expired. -/
theorem expire_overlay (s : LedState) (now : UInt64) :
    (expire s now).overlay = s.overlay ∨
      ((expire s now).overlay = .none ∧
        ((s.overlay = .activity ∧ ¬now < s.activityDeadline) ∨
          (s.overlay = .identify ∧ ¬now < s.identifyDeadline))) := by
  unfold expire
  by_cases ha : s.overlay = .activity ∧ now ≥ s.activityDeadline
  · right
    simp [ha.1, ha.2]
  · by_cases hi : s.overlay = .identify ∧ now ≥ s.identifyDeadline
    · right
      simp [hi.1, hi.2]
    · left
      simp [ha, hi]

@[simp] theorem expire_deadlines (s : LedState) (now : UInt64) :
    (expire s now).activityDeadline = s.activityDeadline ∧
      (expire s now).identifyDeadline = s.identifyDeadline := by
  unfold expire
  dsimp only
  split <;> split <;> exact ⟨rfl, rfl⟩

/-! ## What is shown -/

/-- The source that is shown, by the overlay in its place. -/
theorem shown_eq (σ : Sys) : σ.led.shown σ.now =
    if σ.led.overlay = .factoryArmed then .factoryArmed
    else if σ.led.overlay = .restartArmed then .restartArmed
    else if σ.led.base = .error then .status .error
    else if σ.led.overlay = .identify ∧ σ.Identifying then .identify
    else if σ.led.overlay = .activity ∧ σ.Pulsing then .activity
    else .status σ.led.base := by
  have hd := expire_deadlines σ.led σ.now
  have hid : (decide (σ.now < σ.led.identifyDeadline) = true) = σ.Identifying := by
    rw [decide_eq_true_eq, Sys.Identifying]
  have hact : (decide (σ.now < σ.led.activityDeadline) = true) = σ.Pulsing := by
    rw [decide_eq_true_eq, Sys.Pulsing]
  unfold LedState.shown LedState.output evaluate
  simp only [LedState.input, expire_base, hd.1, hd.2, hid, hact]
  rcases expire_overlay σ.led σ.now with he | ⟨he, ⟨ho, hlt⟩ | ⟨ho, hlt⟩⟩
  · rw [he]
    split
    · rfl
    · split
      · rfl
      · split
        · rename_i hb
          simp [PatternOutput.of, PatternOutput.source, hb]
        · split
          · rfl
          · split <;> rfl
  -- what has expired is no longer active, so its place counts as free
  · have hno : ¬σ.Pulsing := hlt
    by_cases hb : σ.led.base = .error <;>
      simp [he, ho, hno, PatternOutput.of, PatternOutput.source, hb]
  · have hno : ¬σ.Identifying := hlt
    by_cases hb : σ.led.base = .error <;>
      simp [he, ho, hno, PatternOutput.of, PatternOutput.source, hb]

variable {σ : Sys}

/-- **The invariant suffices.** -/
theorem Inv.shown (h : Inv σ) : σ.led.shown σ.now = σ.highest := by
  rw [shown_eq]
  unfold Sys.highest
  cases hf : σ.factory with
  | true => simp [h.factory hf]
  | false =>
      cases hr : σ.restart with
      | true => simp [h.restart hf hr]
      | false =>
          obtain ⟨hnf, hnr⟩ := h.released hf hr
          simp only [if_neg hnf, if_neg hnr, Bool.false_eq_true, if_false]
          by_cases hi : σ.Identifying
          · simp [h.identify hf hr hi, hi]
          · by_cases hp : σ.Pulsing
            · rcases h.activity hf hr hp with ha | ⟨_, hle⟩
              · simp [ha, hi, hp]
              · -- identify would be active as long as activity is
                exact absurd (UInt64.lt_of_lt_of_le hp hle) hi
            · simp [hi, hp]

/-! ## What one step keeps -/

theorem Inv.pass (h : Inv σ) (hnow : σ.now ≤ now) :
    Inv { σ with now := now } := by
  have hearlier : ∀ d : UInt64, now < d → σ.now < d := fun d hd => UInt64.lt_of_le_of_lt hnow hd
  exact {
    factory := h.factory
    restart := h.restart
    released := h.released
    identify := fun hf hr hi => h.identify hf hr (hearlier _ hi)
    activity := fun hf hr hp => h.activity hf hr (hearlier _ hp)
    pulse := UInt64.le_trans h.pulse (deadlineAddMs_mono hnow (UInt32.le_refl _)) }

theorem Inv.status (h : Inv σ) (status : BoardStatus) :
    Inv { σ with led := setBase σ.led status σ.now } := by
  unfold setBase
  split
  · exact ⟨h.factory, h.restart, h.released, h.identify, h.activity, h.pulse⟩
  · exact h

theorem Inv.activityPulse (ho : Orderly σ .activity) :
    Inv { σ with led := activityPulse σ.led σ.now } := by
  obtain ⟨hf, hr, hi⟩ := ho
  exact {
    factory := fun hf' => absurd (hf.symm.trans hf') (by simp)
    restart := fun _ hr' => absurd (hr.symm.trans hr') (by simp)
    released := fun _ _ => ⟨by simp [Led.activityPulse], by simp [Led.activityPulse]⟩
    identify := fun _ _ hi' => absurd hi' hi
    activity := fun _ _ _ => Or.inl rfl
    pulse := by simp [Led.activityPulse] }

theorem Inv.identifyStart (h : Inv σ) (ho : Orderly σ .identify) :
    Inv { σ with led := identifyStart σ.led σ.now } := by
  obtain ⟨hf, hr⟩ := ho
  -- a pulse that was requested by now ends before identify does
  have hle : σ.led.activityDeadline ≤ deadlineAddMs σ.now IDENTIFY_DURATION_MS :=
    UInt64.le_trans h.pulse (deadlineAddMs_mono (UInt64.le_refl _) (by decide))
  exact {
    factory := fun hf' => absurd (hf.symm.trans hf') (by simp)
    restart := fun _ hr' => absurd (hr.symm.trans hr') (by simp)
    released := fun _ _ => ⟨by simp [Led.identifyStart], by simp [Led.identifyStart]⟩
    identify := fun _ _ _ => rfl
    activity := fun _ _ _ => Or.inr ⟨rfl, by simpa only [Led.identifyStart] using hle⟩
    pulse := h.pulse }

theorem setArmed_deadlines (s : LedState) (overlay : Overlay) (now : UInt64) :
    (setArmed s overlay now).activityDeadline = s.activityDeadline ∧
      (setArmed s overlay now).identifyDeadline = s.identifyDeadline := by
  unfold setArmed
  split
  · split <;> exact ⟨rfl, rfl⟩
  · split <;> exact ⟨rfl, rfl⟩

/-- Arming takes the place. -/
theorem setArmed_overlay {s : LedState} {overlay : Overlay} (h : overlay ≠ .none) :
    (setArmed s overlay now).overlay = armedOverlay overlay := by
  unfold setArmed
  rw [if_neg h]
  split
  · rfl
  · rename_i heq
    exact (not_not.mp heq).symm

/-- The release frees the place of an armed source only. -/
theorem setArmed_none (s : LedState) (now : UInt64) :
    (setArmed s .none now).overlay =
      if s.overlay = .restartArmed ∨ s.overlay = .factoryArmed then .none else s.overlay := by
  unfold setArmed
  rw [if_pos rfl]
  split <;> rfl

theorem Inv.armFactory (h : Inv σ) :
    Inv { σ with led := setArmed σ.led .factoryArmed σ.now, factory := true } := by
  have hplace : (setArmed σ.led .factoryArmed σ.now).overlay = .factoryArmed :=
    setArmed_overlay (by simp)
  exact {
    factory := fun _ => hplace
    restart := fun hf => absurd hf (by simp)
    released := fun hf => absurd hf (by simp)
    identify := fun hf => absurd hf (by simp)
    activity := fun hf => absurd hf (by simp)
    pulse := by
      show (setArmed σ.led .factoryArmed σ.now).activityDeadline ≤ _
      rw [(setArmed_deadlines _ _ _).1]
      exact h.pulse }

theorem Inv.armRestart (h : Inv σ) (ho : Orderly σ (.arm .restartArmed)) :
    Inv { σ with led := setArmed σ.led .restartArmed σ.now, restart := true } := by
  have hf : σ.factory = false := ho
  have hplace : (setArmed σ.led .restartArmed σ.now).overlay = .restartArmed :=
    setArmed_overlay (by simp)
  exact {
    factory := fun hf' => absurd (hf.symm.trans hf') (by simp)
    restart := fun _ _ => hplace
    released := fun _ hr => absurd hr (by simp)
    identify := fun _ hr => absurd hr (by simp)
    activity := fun _ hr => absurd hr (by simp)
    pulse := by
      show (setArmed σ.led .restartArmed σ.now).activityDeadline ≤ _
      rw [(setArmed_deadlines _ _ _).1]
      exact h.pulse }

theorem Inv.release (h : Inv σ) (ho : Orderly σ (.arm .none)) :
    Inv { σ with led := setArmed σ.led .none σ.now, factory := false, restart := false } := by
  obtain ⟨hact, hid⟩ := setArmed_deadlines σ.led .none σ.now
  have hplace := setArmed_none σ.led σ.now
  have hfree : (setArmed σ.led .none σ.now).overlay ≠ .factoryArmed ∧
      (setArmed σ.led .none σ.now).overlay ≠ .restartArmed := by
    rw [hplace]
    split
    · simp
    · rename_i hno
      exact ⟨fun he => hno (Or.inr he), fun he => hno (Or.inl he)⟩
  by_cases harmed : σ.factory = true ∨ σ.restart = true
  · -- the place is free and nothing else is active
    obtain ⟨hi, hp⟩ := ho harmed
    exact {
      factory := fun hf => absurd hf (by simp)
      restart := fun _ hr => absurd hr (by simp)
      released := fun _ _ => hfree
      identify := fun _ _ hi' => absurd (show σ.Identifying by rwa [Sys.Identifying, hid] at hi') hi
      activity := fun _ _ hp' => absurd (show σ.Pulsing by rwa [Sys.Pulsing, hact] at hp') hp
      pulse := by
        show (setArmed σ.led .none σ.now).activityDeadline ≤ _
        rw [hact]
        exact h.pulse }
  · -- nothing was armed, so the place stays as it is
    have hf : σ.factory = false := by simpa using fun hf => harmed (Or.inl hf)
    have hr : σ.restart = false := by simpa using fun hr => harmed (Or.inr hr)
    obtain ⟨hnf, hnr⟩ := h.released hf hr
    have hsame : setArmed σ.led .none σ.now = σ.led := by
      unfold setArmed
      rw [if_pos rfl, if_neg (by tauto)]
    rw [hsame]
    exact {
      factory := fun hf => absurd hf (by simp)
      restart := fun _ hr => absurd hr (by simp)
      released := fun _ _ => ⟨hnf, hnr⟩
      identify := fun _ _ => h.identify hf hr
      activity := fun _ _ => h.activity hf hr
      pulse := h.pulse }

theorem Inv.process (h : Inv σ) : Inv { σ with led := Led.process σ.led σ.now } := by
  obtain ⟨hact, hid⟩ := expire_deadlines σ.led σ.now
  -- what is given up has expired, so a source that is active keeps its place
  have hkeep : ∀ o : LedOverlay, σ.led.overlay = o →
      (o = .activity → σ.Pulsing) → (o = .identify → σ.Identifying) →
      (expire σ.led σ.now).overlay = o := by
    intro o ho hp hi
    rcases expire_overlay σ.led σ.now with he | ⟨_, ⟨ha, hlt⟩ | ⟨ha, hlt⟩⟩
    · rw [he, ho]
    · exact absurd (hp (ho ▸ ha)) hlt
    · exact absurd (hi (ho ▸ ha)) hlt
  exact {
    factory := fun hf => hkeep _ (h.factory hf) (by simp) (by simp)
    restart := fun hf hr => hkeep _ (h.restart hf hr) (by simp) (by simp)
    released := fun hf hr => by
      obtain ⟨hnf, hnr⟩ := h.released hf hr
      show (expire σ.led σ.now).overlay ≠ _ ∧ (expire σ.led σ.now).overlay ≠ _
      rcases expire_overlay σ.led σ.now with he | ⟨he, _⟩
      · rw [he]
        exact ⟨hnf, hnr⟩
      · rw [he]
        simp
    identify := fun hf hr hi => by
      have hi' : σ.Identifying := by rwa [Sys.Identifying, Led.process, hid] at hi
      exact hkeep _ (h.identify hf hr hi') (by simp) fun _ => hi'
    activity := fun hf hr hp => by
      have hp' : σ.Pulsing := by rwa [Sys.Pulsing, Led.process, hact] at hp
      rcases h.activity hf hr hp' with ha | ⟨hi, hle⟩
      · exact Or.inl (hkeep _ ha (fun _ => hp') (by simp))
      · refine Or.inr ⟨hkeep _ hi (by simp) fun _ => UInt64.lt_of_lt_of_le hp' hle, ?_⟩
        show (expire σ.led σ.now).activityDeadline ≤ (expire σ.led σ.now).identifyDeadline
        rw [hact, hid]
        exact hle
    pulse := by
      show (expire σ.led σ.now).activityDeadline ≤ _
      rw [hact]
      exact h.pulse }

theorem Inv.step (h : Inv σ) (ho : Orderly σ l) (hstep : σ.step l = some σ') :
    Inv σ' := by
  cases l with
  | pass now =>
      simp only [Sys.step] at hstep
      split at hstep
      · rename_i hnow
        cases hstep
        exact h.pass hnow
      · simp at hstep
  | status status =>
      cases hstep
      exact h.status status
  | activity =>
      cases hstep
      exact .activityPulse ho
  | identify =>
      cases hstep
      exact h.identifyStart ho
  | arm overlay =>
      cases hstep
      cases overlay with
      | none => exact h.release ho
      | restartArmed => exact h.armRestart ho
      | factoryArmed => exact h.armFactory
  | process =>
      cases hstep
      exact h.process

theorem Inv.init (h : machine.init σ) : Inv σ := by
  rw [show σ = _ from h]
  have hzero : ∀ now : UInt64, ¬now < 0 := fun now => by simp
  exact {
    factory := fun hf => absurd hf (by simp)
    restart := fun _ hr => absurd hr (by simp)
    released := fun _ _ => ⟨by simp [LedState.start], by simp [LedState.start]⟩
    identify := fun _ _ hi => absurd hi (hzero _)
    activity := fun _ _ hp => absurd hp (hzero _)
    pulse := by simp [LedState.start] }

/-! ## Whole runs -/

/-- At the moment, with the status `status`. -/
def Sys.withStatus (σ : Sys) (status : BoardStatus) : Sys :=
  { σ with led := setBase σ.led status σ.now }

/-- The pattern that `board_led_process` drives is that of the highest source. -/
def Prioritized (σ : Sys) : Prop :=
  (Led.process σ.led σ.now).level =
      some (σ.highest.on (σ.now - (expire σ.led σ.now).pickAnchor)) ∧
    σ.led.shown σ.now = σ.highest

instance (σ : Sys) : Decidable (Prioritized σ) := inferInstanceAs (Decidable (_ ∧ _))

theorem prioritized_iff (σ : Sys) : Prioritized σ ↔ σ.led.shown σ.now = σ.highest := by
  refine ⟨fun h => h.2, fun h => ⟨?_, h⟩⟩
  rw [← h]
  exact process_level σ.led σ.now

/-- What every step keeps: a pulse ends soon, and before an identify that took its place. -/
structure Paced (σ : Sys) : Prop where
  pulse : σ.led.activityDeadline ≤ deadlineAddMs σ.now ACTIVITY_PULSE_MS
  sooner : σ.led.overlay = .identify → σ.led.activityDeadline ≤ σ.led.identifyDeadline

theorem Paced.step (h : Paced σ) (hstep : σ.step l = some σ') :
    Paced σ' := by
  cases l with
  | pass now =>
      simp only [Sys.step] at hstep
      split at hstep
      · rename_i hnow
        cases hstep
        exact ⟨UInt64.le_trans h.pulse (deadlineAddMs_mono hnow (UInt32.le_refl _)), h.sooner⟩
      · simp at hstep
  | status status =>
      cases hstep
      unfold setBase
      split
      · exact ⟨h.pulse, h.sooner⟩
      · exact h
  | activity =>
      cases hstep
      exact ⟨by simp [activityPulse], fun ho => absurd ho (by simp [activityPulse])⟩
  | identify =>
      cases hstep
      have hle : σ.led.activityDeadline ≤ deadlineAddMs σ.now IDENTIFY_DURATION_MS :=
        UInt64.le_trans h.pulse (deadlineAddMs_mono (UInt64.le_refl _) (by decide))
      exact ⟨h.pulse, fun _ => by simpa only [identifyStart] using hle⟩
  | arm overlay =>
      cases hstep
      obtain ⟨hact, hid⟩ := setArmed_deadlines σ.led overlay σ.now
      refine ⟨?_, fun ho => ?_⟩
      · show (setArmed σ.led overlay σ.now).activityDeadline ≤ _
        rw [hact]
        exact h.pulse
      · show (setArmed σ.led overlay σ.now).activityDeadline ≤
          (setArmed σ.led overlay σ.now).identifyDeadline
        rw [hact, hid]
        refine h.sooner ?_
        have ho' : (setArmed σ.led overlay σ.now).overlay = .identify := ho
        cases overlay with
        | none =>
            rw [setArmed_none] at ho'
            split at ho'
            · simp at ho'
            · exact ho'
        | restartArmed | factoryArmed =>
            rw [setArmed_overlay (by simp)] at ho'
            simp [armedOverlay] at ho'
  | process =>
      cases hstep
      obtain ⟨hact, hid⟩ := expire_deadlines σ.led σ.now
      refine ⟨?_, fun ho => ?_⟩
      · show (expire σ.led σ.now).activityDeadline ≤ _
        rw [hact]
        exact h.pulse
      · show (expire σ.led σ.now).activityDeadline ≤ (expire σ.led σ.now).identifyDeadline
        rw [hact, hid]
        refine h.sooner ?_
        rcases expire_overlay σ.led σ.now with he | ⟨he, _⟩
        · exact he ▸ ho
        · cases he.symm.trans ho

theorem setBase_base (s : LedState) (status : BoardStatus) (now : UInt64) :
    (setBase s status now).base = status := by
  unfold setBase
  split
  · rfl
  · rename_i h
    exact (not_not.mp h).symm

/-- With the status ready, what is shown tells what is in the place of the overlay. -/
theorem inv_of_ready (hp : Paced σ)
    (h : (σ.withStatus .ready).led.shown σ.now = (σ.withStatus .ready).highest) : Inv σ := by
  have hbase : (σ.withStatus .ready).led.base = .ready := setBase_base _ _ _
  have hrest : (σ.withStatus .ready).led.overlay = σ.led.overlay ∧
      (σ.withStatus .ready).led.activityDeadline = σ.led.activityDeadline ∧
      (σ.withStatus .ready).led.identifyDeadline = σ.led.identifyDeadline := by
    simp only [Sys.withStatus, setBase]
    split <;> exact ⟨rfl, rfl, rfl⟩
  obtain ⟨hov, hact, hid⟩ := hrest
  have hidentifying : (σ.withStatus .ready).Identifying = σ.Identifying := by
    rw [Sys.Identifying, hid, Sys.Identifying]
    rfl
  have hpulsing : (σ.withStatus .ready).Pulsing = σ.Pulsing := by
    rw [Sys.Pulsing, hact, Sys.Pulsing]
    rfl
  have hfactory : (σ.withStatus .ready).factory = σ.factory := rfl
  have hrestart : (σ.withStatus .ready).restart = σ.restart := rfl
  have hshown := shown_eq (σ.withStatus .ready)
  rw [show (σ.withStatus .ready).now = σ.now from rfl, h] at hshown
  simp only [Sys.highest, hfactory, hrestart, hbase, hov, hidentifying, hpulsing] at hshown
  refine ⟨fun hf => ?_, fun hf hr => ?_, fun hf hr => ?_, fun hf hr hi => ?_, fun hf hr hpu => ?_,
    hp.pulse⟩
  · by_contra hno
    simp only [hf, if_true, hno, if_false] at hshown
    split at hshown
    · simp at hshown
    · split at hshown
      · simp at hshown
      · split at hshown
        · simp at hshown
        · split at hshown <;> simp at hshown
  · by_contra hno
    simp [hf, hr, hno] at hshown
    split at hshown
    · simp at hshown
    · split at hshown
      · simp at hshown
      · split at hshown <;> simp at hshown
  · constructor
    · intro ho
      simp [hf, hr, ho] at hshown
      split at hshown
      · simp at hshown
      · split at hshown <;> simp at hshown
    · intro ho
      simp [hf, hr, ho] at hshown
      split at hshown
      · simp at hshown
      · split at hshown <;> simp at hshown
  · cases ho : σ.led.overlay <;> simp [hf, hr, hi, ho] at hshown ⊢
    split at hshown <;> simp at hshown
  · by_cases hi : σ.Identifying
    · right
      have ho : σ.led.overlay = .identify := by
        cases ho : σ.led.overlay <;> simp [hf, hr, hi, hpu, ho] at hshown ⊢
      exact ⟨ho, hp.sooner ho⟩
    · left
      cases ho : σ.led.overlay <;> simp [hf, hr, hi, hpu, ho] at hshown ⊢

/-- A step that keeps the invariant was orderly. -/
theorem orderly_of_inv (h : Inv σ) (hstep : σ.step l = some σ') (h' : Inv σ') :
    Orderly σ l := by
  cases l with
  | pass | status | process => trivial
  | activity =>
      cases hstep
      have hf : σ.factory = false := by
        by_contra hf
        exact absurd (h'.factory (by simpa using hf)) (by simp [activityPulse])
      have hr : σ.restart = false := by
        by_contra hr
        exact absurd (h'.restart hf (by simpa using hr)) (by simp [activityPulse])
      refine ⟨hf, hr, fun hi => ?_⟩
      exact absurd (h'.identify hf hr hi) (by simp [activityPulse])
  | identify =>
      cases hstep
      have hf : σ.factory = false := by
        by_contra hf
        exact absurd (h'.factory (by simpa using hf)) (by simp [identifyStart])
      have hr : σ.restart = false := by
        by_contra hr
        exact absurd (h'.restart hf (by simpa using hr)) (by simp [identifyStart])
      exact ⟨hf, hr⟩
  | arm overlay =>
      cases hstep
      cases overlay with
      | factoryArmed => trivial
      | restartArmed =>
          show σ.factory = false
          by_contra hf
          have hplace : (setArmed σ.led .restartArmed σ.now).overlay = .factoryArmed :=
            h'.factory (by simpa using hf)
          rw [setArmed_overlay (by simp)] at hplace
          simp [armedOverlay] at hplace
      | none =>
          intro harmed
          -- the release has freed the place, which nothing that is active may miss
          have hplace : (setArmed σ.led .none σ.now).overlay = .none := by
            rw [setArmed_none, if_pos]
            cases hf : σ.factory with
            | true => exact Or.inr (h.factory hf)
            | false =>
                have hr : σ.restart = true := by simpa [hf] using harmed
                exact Or.inl (h.restart hf hr)
          obtain ⟨hact, hid⟩ := setArmed_deadlines σ.led .none σ.now
          constructor
          · intro hi
            have ho := h'.identify rfl rfl (show σ.now < _ by rw [hid]; exact hi)
            cases hplace.symm.trans ho
          · intro hp
            have ho := h'.activity rfl rfl (show σ.now < _ by rw [hact]; exact hp)
            rcases ho with ho | ⟨ho, _⟩
            · cases hplace.symm.trans ho
            · cases hplace.symm.trans ho

/-- Whatever the status becomes at the moment, the highest source is shown. -/
def Robust (σ : Sys) : Prop := ∀ status, Prioritized (σ.withStatus status)

theorem robust_iff_inv (hp : Paced σ) : Robust σ ↔ Inv σ := by
  constructor
  · intro h
    exact inv_of_ready hp ((prioritized_iff _).mp (h .ready))
  · intro h status
    exact (prioritized_iff _).mpr (h.status status).shown

/-- **The priority of the sources.** In a run the highest active source is shown at each point,
whatever the status becomes there, exactly if no setter of the run takes the overlay's place from a
source that is still to be shown. -/
theorem priority_kept_iff {σ τ : Sys} {ls : List Label} (h0 : machine.init σ)
    (h : machine.run σ ls = some τ) :
    (∀ ks ρ, ks <+: ls → machine.run σ ks = some ρ → Robust ρ) ↔
      ∀ ks l ρ, ks ++ [l] <+: ls → machine.run σ ks = some ρ → Orderly ρ l := by
  have hinv : Inv σ := Inv.init h0
  have hpaced : Paced σ := by
    rw [show σ = _ from h0]
    exact ⟨by simp [LedState.start], fun ho => absurd ho (by simp [LedState.start])⟩
  refine Machine.run_holds_iff (fun _ _ _ hs hstep => hs.step hstep) ?_ hpaced
    ((robust_iff_inv hpaced).mpr hinv) h
  intro ρ l ρ' hp hr hstep
  have hi := (robust_iff_inv hp).mp hr
  rw [robust_iff_inv (hp.step hstep)]
  exact ⟨fun hi' => orderly_of_inv hi hstep hi', fun ho => hi.step ho hstep⟩

/-- The button is held for eight seconds and released, and the device is identified then. -/
def pressRun : List Label :=
  [.status .ready, .pass 2000, .arm .restartArmed, .pass 8000, .arm .factoryArmed, .process,
    .pass 9000, .arm .none, .identify, .process, .pass 15000, .activity, .process]

theorem priority_kept_iff_pressRun :
    (machine.init ⟨0, .start 0, false, false⟩ ∧
      (machine.run ⟨0, .start 0, false, false⟩ pressRun).isSome) ∧
    ((∀ ks ρ, ks <+: pressRun → machine.run ⟨0, .start 0, false, false⟩ ks = some ρ → Robust ρ) ↔
      ∀ ks l ρ, ks ++ [l] <+: pressRun →
        machine.run ⟨0, .start 0, false, false⟩ ks = some ρ → Orderly ρ l) := by
  have h0 : machine.init ⟨0, .start 0, false, false⟩ := rfl
  have hrun : (machine.run ⟨0, .start 0, false, false⟩ pressRun).isSome = true := by
    decide
  obtain ⟨τ, hτ⟩ := Option.isSome_iff_exists.mp hrun
  exact ⟨⟨h0, hrun⟩, priority_kept_iff h0 hτ⟩

/-- An activity pulse one second after an identify request takes the place of the overlay: the
LED shows activity, and from the end of the pulse on the base status, though identify is active for
four seconds more. -/
theorem identify_hidden : ∃ σ, machine.init σ ∧ ∃ τ,
    machine.run σ [.status .ready, .identify, .pass 1000, .activity, .process, .pass 1080] =
      some τ ∧
      ¬Prioritized τ ∧ τ.highest = .identify ∧ τ.led.shown τ.now = .status .ready := by
  refine ⟨⟨0, .start 0, false, false⟩, rfl, ?_⟩
  have hall : (machine.run ⟨0, .start 0, false, false⟩
      [.status .ready, .identify, .pass 1000, .activity, .process, .pass 1080]).any (fun τ =>
        decide (¬Prioritized τ ∧ τ.highest = .identify ∧ τ.led.shown τ.now = .status .ready)) =
      true := by decide
  obtain ⟨τ, hτ, hp⟩ := (Option.any_eq_true _ _).mp hall
  exact ⟨τ, hτ, of_decide_eq_true hp⟩

end BleGateway.BoardIo.Led
