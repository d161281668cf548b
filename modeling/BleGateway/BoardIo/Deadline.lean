import BleGateway.BoardIo.Priority

/-! # How long the LED's level holds

`board_led_next_deadline` is the time until which the worker may sleep. Each pattern reports how
long its level holds, an overlay reports its expiry, and the earlier of the two is the deadline.
`UINT64_MAX` stands for no deadline, and a time that late is cut down to it.
-/

namespace BleGateway.BoardIo.Led

/-- `board_led_next_deadline`. -/
def nextDeadline (s : LedState) (now : UInt64) : Option UInt64 :=
  let best :=
    match s.overlay with
    | .activity => s.activityDeadline
    | .identify => s.identifyDeadline
    | _ => UINT64_MAX
  let rel := (evaluate (s.input now)).relNextTransitionMs
  let best :=
    if rel ≠ BOARD_LED_PATTERN_NO_TRANSITION then
      if deadlineAddMs now rel < best then deadlineAddMs now rel else best
    else best
  if best ≠ UINT64_MAX then some best else none

/-! ## Patterns hold their level -/

/-- The level of a pattern holds until the time it reports, or for good if it reports none. -/
def Steady (pattern : UInt64 → Bool × UInt32) : Prop :=
  ∀ e e', e ≤ e' →
    ((pattern e).2 ≠ BOARD_LED_PATTERN_NO_TRANSITION →
      e'.toNat < e.toNat + (pattern e).2.toNat) →
    (pattern e').1 = (pattern e).1

theorem steady_const (on : Bool) (rel : UInt32) : Steady fun _ => (on, rel) := fun _ _ _ _ => rfl

/-- The phase of an elapsed time. -/
theorem phase_toNat (e : UInt64) {period : UInt32} (hp : 0 < period.toNat) :
    (e % period.toUInt64).toUInt32.toNat = e.toNat % period.toNat := by
  have hlt := Nat.mod_lt e.toNat hp
  have hperiod := period.toNat_lt
  rw [UInt64.toNat_toUInt32, UInt64.toNat_mod, UInt32.toNat_toUInt64]
  exact Nat.mod_eq_of_lt (by omega)

/-- The phase moves on with the time until the period is over. -/
theorem phase_add {e e' : UInt64} {period : UInt32} (hle : e ≤ e')
    (hlt : e'.toNat < e.toNat + (period.toNat - e.toNat % period.toNat)) :
    e'.toNat % period.toNat = e.toNat % period.toNat + (e'.toNat - e.toNat) := by
  have hle' := UInt64.le_iff_toNat_le.mp hle
  have hsplit := Nat.div_add_mod e.toNat period.toNat
  calc
    e'.toNat % period.toNat
        = (period.toNat * (e.toNat / period.toNat) +
            (e.toNat % period.toNat + (e'.toNat - e.toNat))) % period.toNat := by
          congr 1
          omega
    _ = (e.toNat % period.toNat + (e'.toNat - e.toNat)) % period.toNat := Nat.mul_add_mod ..
    _ = e.toNat % period.toNat + (e'.toNat - e.toNat) := Nat.mod_eq_of_lt (by omega)

theorem steady_blinkRel {period onMs : UInt32} (hon : onMs ≤ period) (hp : 0 < period.toNat)
    (hmax : period < BOARD_LED_PATTERN_NO_TRANSITION) :
    Steady fun e => blinkRel e period onMs := by
  intro e e' hle hrel
  have hon' := UInt32.le_iff_toNat_le.mp hon
  have hmax' := UInt32.lt_iff_toNat_lt.mp hmax
  have hphase := phase_toNat e hp
  have hphase' := phase_toNat e' hp
  have hlt := Nat.mod_lt e.toNat hp
  unfold blinkRel at hrel ⊢
  dsimp only at hrel ⊢
  by_cases h : (e % period.toUInt64).toUInt32 < onMs
  · have hn := UInt32.lt_iff_toNat_lt.mp h
    rw [if_pos h] at hrel ⊢
    dsimp only at hrel ⊢
    have hsub : (onMs - (e % period.toUInt64).toUInt32).toNat =
        onMs.toNat - e.toNat % period.toNat := by
      rw [UInt32.toNat_sub_of_le _ _ (UInt32.le_of_lt h), hphase]
    have hbefore := hrel fun heq => by
      rw [heq] at hsub
      omega
    rw [hsub] at hbefore
    have hadd : e'.toNat % period.toNat = e.toNat % period.toNat + (e'.toNat - e.toNat) :=
      phase_add hle (by omega)
    rw [if_pos]
    rw [UInt32.lt_iff_toNat_lt]
    omega
  · have hn : ¬(e % period.toUInt64).toUInt32.toNat < onMs.toNat := fun hn =>
      h (UInt32.lt_iff_toNat_lt.mpr hn)
    rw [if_neg h] at hrel ⊢
    dsimp only at hrel ⊢
    have hle' : (e % period.toUInt64).toUInt32 ≤ period := by
      rw [UInt32.le_iff_toNat_le]
      omega
    have hsub : (period - (e % period.toUInt64).toUInt32).toNat =
        period.toNat - e.toNat % period.toNat := by
      rw [UInt32.toNat_sub_of_le _ _ hle', hphase]
    have hbefore := hrel fun heq => by
      rw [heq] at hsub
      omega
    rw [hsub] at hbefore
    have hadd := phase_add hle hbefore
    rw [if_neg]
    rw [UInt32.lt_iff_toNat_lt]
    omega

/-- The first bound above `p` in a sorted list is the least one. -/
theorem lt_iff_of_find? {l : List UInt32} {p b : UInt32} (hl : l.Pairwise (· ≤ ·))
    (h : l.find? (fun c => p < c) = some b) {c : UInt32} (hc : c ∈ l) : p < c ↔ b ≤ c := by
  induction l with
  | nil => cases hc
  | cons a l ih =>
      obtain ⟨ha, hl'⟩ := List.pairwise_cons.mp hl
      rw [List.find?_cons] at h
      by_cases hpa : p < a
      · obtain rfl : a = b := by simpa [hpa] using h
        refine iff_of_true ?_ ?_
        · rcases List.mem_cons.mp hc with rfl | hc
          · exact hpa
          · exact UInt32.lt_of_lt_of_le hpa (ha c hc)
        · rcases List.mem_cons.mp hc with rfl | hc
          · exact UInt32.le_refl _
          · exact ha c hc
      · have h' : l.find? (fun c => p < c) = some b := by simpa [hpa] using h
        rcases List.mem_cons.mp hc with rfl | hc
        · refine iff_of_false hpa fun hbc => ?_
          have hpb : p < b := by simpa using List.find?_some h'
          exact hpa (UInt32.lt_of_lt_of_le hpb hbc)
        · exact ih hl' h' hc

/-- The bounds of the triple blink. -/
def errorBounds : List UInt32 := [150, 300, 450, 600, 750, ERROR_CYCLE_MS]

theorem steady_errorBlink : Steady errorBlink := by
  intro e e' hle hrel
  have hcycle : ERROR_CYCLE_MS.toNat = 1750 := rfl
  have hperiod : 0 < ERROR_CYCLE_MS.toNat := by decide
  have hphase := phase_toNat e hperiod
  have hphase' := phase_toNat e' hperiod
  have hsorted : errorBounds.Pairwise (· ≤ ·) := by decide
  have hlt := Nat.mod_lt e.toNat hperiod
  unfold errorBlink at hrel ⊢
  dsimp only at hrel ⊢
  generalize hp : (e % ERROR_CYCLE_MS.toUInt64).toUInt32 = p at *
  generalize hp' : (e' % ERROR_CYCLE_MS.toUInt64).toUInt32 = p' at *
  obtain ⟨b, hb⟩ : ∃ b, errorBounds.find? (fun c => p < c) = some b := by
    refine Option.isSome_iff_exists.mp (List.find?_isSome.mpr ⟨ERROR_CYCLE_MS, by decide, ?_⟩)
    rw [decide_eq_true_eq, UInt32.lt_iff_toNat_lt]
    omega
  have hpb : p < b := by simpa using List.find?_some hb
  have hmem : b ∈ errorBounds := List.mem_of_find?_eq_some hb
  have hbmax : b ≤ ERROR_CYCLE_MS := by
    have hall : errorBounds.all (· ≤ ERROR_CYCLE_MS) = true := by decide
    simpa using List.all_eq_true.mp hall b hmem
  rw [show [150, 300, 450, 600, 750, ERROR_CYCLE_MS].find? (fun c : UInt32 => p < c) = some b
    from hb] at hrel ⊢
  dsimp only at hrel ⊢
  have hpbn := UInt32.lt_iff_toNat_lt.mp hpb
  have hbn := UInt32.le_iff_toNat_le.mp hbmax
  have hsub : (b - p).toNat = b.toNat - p.toNat :=
    UInt32.toNat_sub_of_le _ _ (UInt32.le_of_lt hpb)
  have hbefore := hrel fun heq => by
    rw [heq] at hsub
    have : BOARD_LED_PATTERN_NO_TRANSITION.toNat = 4294967295 := rfl
    omega
  have hadd : e'.toNat % ERROR_CYCLE_MS.toNat =
      e.toNat % ERROR_CYCLE_MS.toNat + (e'.toNat - e.toNat) := phase_add hle (by omega)
  have hle' := UInt64.le_iff_toNat_le.mp hle
  -- the same bounds lie above both phases
  have hsame : ∀ c ∈ errorBounds, (p' < c ↔ p < c) := by
    intro c hc
    rw [lt_iff_of_find? hsorted hb hc, UInt32.lt_iff_toNat_lt, UInt32.le_iff_toNat_le]
    have hiff := lt_iff_of_find? hsorted hb hc
    rw [UInt32.lt_iff_toNat_lt, UInt32.le_iff_toNat_le] at hiff
    omega
  obtain ⟨b', hb'⟩ : ∃ b', errorBounds.find? (fun c => p' < c) = some b' := by
    refine Option.isSome_iff_exists.mp (List.find?_isSome.mpr ⟨b, hmem, ?_⟩)
    rw [decide_eq_true_eq]
    exact (hsame b hmem).mpr hpb
  rw [show [150, 300, 450, 600, 750, ERROR_CYCLE_MS].find? (fun c : UInt32 => p' < c) = some b'
    from hb']
  dsimp only
  have h150 := hsame 150 (by decide)
  have h300 := hsame 300 (by decide)
  have h450 := hsame 450 (by decide)
  have h600 := hsame 600 (by decide)
  have h750 := hsame 750 (by decide)
  simp only [ge_iff_le, ← UInt32.not_lt, h150, h300, h450, h600, h750]

/-! ## The deadline of the LED -/

theorem steady_evaluateBase (status : BoardStatus) : Steady (evaluateBase status) := by
  cases status with
  | booting | provisioning | wifiConnecting =>
      exact steady_blinkRel (by decide) (by decide) (by decide)
  | ready => exact steady_const _ _
  | degraded => exact steady_blinkRel (by decide) (by decide) (by decide)
  | error => exact steady_errorBlink

/-- The overlay, if it is one that expires, has not expired. -/
structure LedState.Current (s : LedState) (now : UInt64) : Prop where
  activity : s.overlay = .activity → now < s.activityDeadline
  identify : s.overlay = .identify → now < s.identifyDeadline

/-- While its overlay is current the LED shows one pattern. -/
theorem exists_pattern (s : LedState) : ∃ effective pattern, Steady pattern ∧
    ∀ now, s.Current now →
      evaluate (s.input now) = .of effective (pattern (now - s.pickAnchor)) := by
  cases ho : s.overlay with
  | factoryArmed =>
      refine ⟨.factoryArmed, fun e => blinkRel e FACTORY_PERIOD_MS FACTORY_ON_MS,
        steady_blinkRel (by decide) (by decide) (by decide), fun now _ => ?_⟩
      simp [evaluate, LedState.input, ho]
  | restartArmed =>
      refine ⟨.restartArmed, _, steady_const true BOARD_LED_PATTERN_NO_TRANSITION,
        fun now _ => ?_⟩
      simp [evaluate, LedState.input, ho]
  | none =>
      refine ⟨.none, _, steady_evaluateBase s.base, fun now _ => ?_⟩
      simp [evaluate, LedState.input, ho]
  | identify =>
      by_cases he : s.base = .error
      · refine ⟨.none, _, steady_evaluateBase s.base, fun now _ => ?_⟩
        simp [evaluate, LedState.input, ho, he]
      · refine ⟨.identify, fun e => blinkRel e IDENTIFY_PERIOD_MS IDENTIFY_ON_MS,
          steady_blinkRel (by decide) (by decide) (by decide), fun now hc => ?_⟩
        simp [evaluate, LedState.input, ho, he, hc.identify ho]
  | activity =>
      by_cases he : s.base = .error
      · refine ⟨.none, _, steady_evaluateBase s.base, fun now _ => ?_⟩
        simp [evaluate, LedState.input, ho, he]
      · refine ⟨.activity, _, steady_const true BOARD_LED_PATTERN_NO_TRANSITION, fun now hc => ?_⟩
        simp [evaluate, LedState.input, ho, he, hc.activity ho]

/-- A current overlay is not given up. -/
theorem expire_current {s : LedState} {now : UInt64} (h : s.Current now) : expire s now = s := by
  have hactivity : ¬(s.overlay = .activity ∧ now ≥ s.activityDeadline) := fun ha =>
    UInt64.not_le.mpr (h.activity ha.1) ha.2
  have hidentify : ¬(s.overlay = .identify ∧ now ≥ s.identifyDeadline) := fun hi =>
    UInt64.not_le.mpr (h.identify hi.1) hi.2
  unfold expire
  rw [if_neg hactivity]
  exact if_neg hidentify

theorem lt_of_deadline {best t : UInt64} (ht : t < UINT64_MAX)
    (h : ∀ d ∈ (if best ≠ UINT64_MAX then some best else none), t < d) : t < best := by
  by_cases hbest : best = UINT64_MAX
  · rw [hbest]
    exact ht
  · rw [if_pos hbest] at h
    exact h best rfl

theorem lt_of_lt_earlier {best candidate t : UInt64}
    (h : t < if candidate < best then candidate else best) : t < best ∧ t < candidate := by
  split at h
  · rename_i hc
    exact ⟨UInt64.lt_trans h hc, h⟩
  · rename_i hc
    exact ⟨h, UInt64.lt_of_lt_of_le h (UInt64.not_lt.mp hc)⟩

/-- A time before the deadline is before the expiry of the overlay and the next transition. -/
theorem before_deadline {s : LedState} {now t : UInt64} (hnow : now ≤ t) (hmax : t ≠ UINT64_MAX)
    (h : ∀ d ∈ nextDeadline s now, t < d) :
    s.Current t ∧ s.Current now ∧
      ((evaluate (s.input now)).relNextTransitionMs ≠ BOARD_LED_PATTERN_NO_TRANSITION →
        t < deadlineAddMs now (evaluate (s.input now)).relNextTransitionMs) := by
  have ht : t < UINT64_MAX := by
    have hne : t.toNat ≠ UINT64_MAX.toNat := fun heq => hmax (UInt64.toNat_inj.mp heq)
    have hlt := t.toNat_lt
    have hnat : UINT64_MAX.toNat = 2 ^ 64 - 1 := rfl
    rw [UInt64.lt_iff_toNat_lt]
    omega
  have hbest := lt_of_deadline ht h
  generalize (evaluate (s.input now)).relNextTransitionMs = rel at hbest ⊢
  have hparts : (t < match s.overlay with
        | .activity => s.activityDeadline
        | .identify => s.identifyDeadline
        | _ => UINT64_MAX) ∧
      (rel ≠ BOARD_LED_PATTERN_NO_TRANSITION → t < deadlineAddMs now rel) := by
    by_cases hrel : rel ≠ BOARD_LED_PATTERN_NO_TRANSITION
    · rw [if_pos hrel] at hbest
      obtain ⟨hoverlay, hcandidate⟩ := lt_of_lt_earlier hbest
      exact ⟨hoverlay, fun _ => hcandidate⟩
    · rw [if_neg hrel] at hbest
      exact ⟨hbest, fun hne => absurd hne hrel⟩
  obtain ⟨hoverlay, htransition⟩ := hparts
  have hcurrent : s.Current t := by
    constructor
    · intro ho
      rw [ho] at hoverlay
      exact hoverlay
    · intro ho
      rw [ho] at hoverlay
      exact hoverlay
  refine ⟨hcurrent, ⟨fun ho => ?_, fun ho => ?_⟩, htransition⟩
  · exact UInt64.lt_of_le_of_lt hnow (hcurrent.activity ho)
  · exact UInt64.lt_of_le_of_lt hnow (hcurrent.identify ho)

/-! ## Reachable states -/

/-- The patterns count from times that have passed. -/
structure Epochs (σ : Sys) : Prop where
  base : σ.led.baseEpoch ≤ σ.now
  overlay : σ.led.overlayEpoch ≤ σ.now

theorem expire_epochs (s : LedState) (now : UInt64) :
    (expire s now).baseEpoch = s.baseEpoch ∧ (expire s now).overlayEpoch = s.overlayEpoch := by
  unfold expire
  dsimp only
  split <;> split <;> exact ⟨rfl, rfl⟩

theorem Epochs.step {σ σ' : Sys} {l : Label} (h : Epochs σ) (hstep : σ.step l = some σ') :
    Epochs σ' := by
  cases l with
  | pass now =>
      obtain ⟨hle, ⟨⟩⟩ := Option.ite_none_right_eq_some.mp hstep
      exact ⟨UInt64.le_trans h.base hle, UInt64.le_trans h.overlay hle⟩
  | status status =>
      cases hstep
      by_cases hs : status ≠ σ.led.base
      · simp only [setBase, if_pos hs]
        exact ⟨UInt64.le_refl _, h.overlay⟩
      · simp only [setBase, if_neg hs]
        exact ⟨h.base, h.overlay⟩
  | activity =>
      cases hstep
      exact ⟨h.base, h.overlay⟩
  | identify =>
      cases hstep
      exact ⟨h.base, UInt64.le_refl _⟩
  | arm overlay =>
      cases hstep
      simp only [setArmed]
      constructor
      · dsimp only
        split
        · split <;> exact h.base
        · split <;> exact h.base
      · dsimp only
        split
        · split <;> exact h.overlay
        · split
          · exact UInt64.le_refl _
          · exact h.overlay
  | process =>
      cases hstep
      obtain ⟨hbase, hoverlay⟩ := expire_epochs σ.led σ.now
      exact ⟨by rw [show (Led.process σ.led σ.now).baseEpoch = _ from hbase]; exact h.base,
        by rw [show (Led.process σ.led σ.now).overlayEpoch = _ from hoverlay]; exact h.overlay⟩

theorem epochs_of_reachable {σ : Sys} (h : machine.Reachable σ) : Epochs σ := by
  refine h.invariant ?_ fun _ _ _ hi hstep => hi.step hstep
  intro σ h0
  rw [show σ = _ from h0]
  exact ⟨UInt64.le_refl _, UInt64.le_refl _⟩

/-- **The deadline suffices.** From a time on that is not before the last update, and until the
deadline that is reported, or for good if none is, the LED shows the level of that time. The last
millisecond of the clock is left out: it stands for no deadline. -/
theorem level_until_deadline {σ : Sys} (hσ : machine.Reachable σ) {now t : UInt64}
    (hupdate : σ.now ≤ now) (hnow : now ≤ t) (hmax : t ≠ UINT64_MAX)
    (h : ∀ d ∈ nextDeadline σ.led now, t < d) :
    (process σ.led t).level = (process σ.led now).level := by
  obtain ⟨hcurrent, hcurrent', htransition⟩ := before_deadline hnow hmax h
  obtain ⟨effective, pattern, hsteady, hpattern⟩ := exists_pattern σ.led
  have hepochs := epochs_of_reachable hσ
  have hanchor : σ.led.pickAnchor ≤ now := by
    refine UInt64.le_trans ?_ hupdate
    unfold LedState.pickAnchor
    split <;> first | exact hepochs.overlay | exact hepochs.base
  have hsub : (now - σ.led.pickAnchor).toNat = now.toNat - σ.led.pickAnchor.toNat :=
    UInt64.toNat_sub_of_le _ _ hanchor
  have hsub' : (t - σ.led.pickAnchor).toNat = t.toNat - σ.led.pickAnchor.toNat :=
    UInt64.toNat_sub_of_le _ _ (UInt64.le_trans hanchor hnow)
  have hanchorn := UInt64.le_iff_toNat_le.mp hanchor
  have hnown := UInt64.le_iff_toNat_le.mp hnow
  unfold process LedState.output
  rw [expire_current hcurrent, expire_current hcurrent', hpattern t hcurrent,
    hpattern now hcurrent']
  rw [hpattern now hcurrent'] at htransition
  show some (pattern (t - σ.led.pickAnchor)).1 = some (pattern (now - σ.led.pickAnchor)).1
  congr 1
  apply hsteady
  · rw [UInt64.le_iff_toNat_le]
    omega
  · intro hrel
    have hlt := UInt64.lt_iff_toNat_lt.mp (htransition hrel)
    rw [deadlineAddMs_toNat] at hlt
    have hrelnat : (PatternOutput.of effective
        (pattern (now - σ.led.pickAnchor))).relNextTransitionMs.toNat =
      (pattern (now - σ.led.pickAnchor)).2.toNat := rfl
    omega

/-- The LED is identified: the first transition is 250 ms later. -/
theorem level_until_deadline_identify :
    ∃ σ, machine.Reachable σ ∧ nextDeadline σ.led 1000 = some 1250 ∧
      (process σ.led 1249).level = (process σ.led 1000).level := by
  have hrun : ((machine.run ⟨0, .start 0, false, false⟩
      [.status .ready, .pass 1000, .identify]).map fun σ => decide (
        nextDeadline σ.led 1000 = some 1250 ∧ σ.now = 1000)) = some true := by decide
  obtain ⟨σ, hσ, hp⟩ := Machine.exists_reachable_of_run rfl hrun
  obtain ⟨hdeadline, hnow⟩ := of_decide_eq_true hp
  refine ⟨σ, hσ, hdeadline,
    level_until_deadline hσ (by rw [hnow]; decide) (by decide) (by decide) ?_⟩
  rw [hdeadline]
  intro d hd
  obtain rfl : 1250 = d := Option.some.inj hd
  decide

/-- While the gateway boots in the last tenth of a second of the clock, no deadline is reported, and
the LED goes off in the last millisecond. -/
theorem last_transition_lost : ¬ ∀ σ, machine.Reachable σ → ∀ now t, σ.now ≤ now → now ≤ t →
    (∀ d ∈ nextDeadline σ.led now, t < d) →
    (process σ.led t).level = (process σ.led now).level := by
  intro h
  have hlevel := h ⟨UINT64_MAX - 100, .start (UINT64_MAX - 100), false, false⟩ (.init rfl)
    (UINT64_MAX - 100) UINT64_MAX (UInt64.le_refl _) (by decide) (by
      intro d hd
      rw [show nextDeadline (.start (UINT64_MAX - 100)) (UINT64_MAX - 100) = none by decide] at hd
      cases hd)
  exact absurd hlevel (by decide)

end BleGateway.BoardIo.Led
