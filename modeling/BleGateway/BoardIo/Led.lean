import BleGateway.BoardIo.Button
import BleGateway.Lib.Machine

set_option autoImplicit false

/-! # The status LED

`board_led_pattern.c` and `board_led.c`: the patterns, and the state of the LED with the base
status, one overlay and the deadlines of the two overlays that expire. Times are milliseconds since
boot. The LED is set up; the pin is `level`, what was last driven.
-/

namespace BleGateway.BoardIo.Led

/-! ## Patterns -/

/-- `board_status_t`. -/
inductive BoardStatus
  | booting | provisioning | wifiConnecting | ready | degraded | error
  deriving DecidableEq

/-- `board_led_overlay_t`. -/
inductive LedOverlay
  | none | activity | identify | restartArmed | factoryArmed
  deriving DecidableEq

def BOARD_LED_PATTERN_NO_TRANSITION : UInt32 := 0xffffffff

def IDENTIFY_PERIOD_MS : UInt32 := 500
def IDENTIFY_ON_MS : UInt32 := 250
def FACTORY_PERIOD_MS : UInt32 := 200
def FACTORY_ON_MS : UInt32 := 100
def BOOTING_PERIOD_MS : UInt32 := 200
def BOOTING_ON_MS : UInt32 := 100
def PROV_PERIOD_MS : UInt32 := 1000
def PROV_ON_MS : UInt32 := 500
def WIFI_CONNECT_PERIOD : UInt32 := 250
def WIFI_CONNECT_ON : UInt32 := 125
def DEGRADED_PERIOD_MS : UInt32 := 1000
def DEGRADED_ON_MS : UInt32 := 150
def ERROR_CYCLE_MS : UInt32 := 1750

/-- `blink_rel`: whether the LED is on, and the time to the next change. -/
def blinkRel (elapsed : UInt64) (period onMs : UInt32) : Bool × UInt32 :=
  let phase := (elapsed % period.toUInt64).toUInt32
  if phase < onMs then (true, onMs - phase) else (false, period - phase)

/-- The triple blink of the error status. -/
def errorBlink (elapsed : UInt64) : Bool × UInt32 :=
  let p := (elapsed % ERROR_CYCLE_MS.toUInt64).toUInt32
  match [150, 300, 450, 600, 750, ERROR_CYCLE_MS].find? (fun bound : UInt32 => p < bound) with
  | some bound => (p < 150 || (p ≥ 300 && p < 450) || (p ≥ 600 && p < 750), bound - p)
  | none => (false, BOARD_LED_PATTERN_NO_TRANSITION)

/-- `evaluate_base`. -/
def evaluateBase (status : BoardStatus) (elapsed : UInt64) : Bool × UInt32 :=
  match status with
  | .booting => blinkRel elapsed BOOTING_PERIOD_MS BOOTING_ON_MS
  | .provisioning => blinkRel elapsed PROV_PERIOD_MS PROV_ON_MS
  | .wifiConnecting => blinkRel elapsed WIFI_CONNECT_PERIOD WIFI_CONNECT_ON
  | .ready => (true, BOARD_LED_PATTERN_NO_TRANSITION)
  | .degraded => blinkRel elapsed DEGRADED_PERIOD_MS DEGRADED_ON_MS
  | .error => errorBlink elapsed

/-- `board_led_pattern_input_t`. -/
structure PatternInput where
  baseStatus : BoardStatus
  overlay : LedOverlay
  identifyActive : Bool
  activityActive : Bool
  patternEpochMs : UInt64
  nowMs : UInt64

/-- `board_led_pattern_output_t`. -/
structure PatternOutput where
  effective : LedOverlay
  logicalOn : Bool
  relNextTransitionMs : UInt32
  deriving DecidableEq

def PatternOutput.of (effective : LedOverlay) (blink : Bool × UInt32) : PatternOutput :=
  ⟨effective, blink.1, blink.2⟩

/-- `board_led_pattern_evaluate`. -/
def evaluate (i : PatternInput) : PatternOutput :=
  let elapsed := i.nowMs - i.patternEpochMs
  if i.overlay = .factoryArmed then
    .of .factoryArmed (blinkRel elapsed FACTORY_PERIOD_MS FACTORY_ON_MS)
  else if i.overlay = .restartArmed then
    .of .restartArmed (true, BOARD_LED_PATTERN_NO_TRANSITION)
  else if i.baseStatus = .error then .of .none (evaluateBase i.baseStatus elapsed)
  else if i.overlay = .identify ∧ i.identifyActive = true then
    .of .identify (blinkRel elapsed IDENTIFY_PERIOD_MS IDENTIFY_ON_MS)
  else if i.overlay = .activity ∧ i.activityActive = true then
    .of .activity (true, BOARD_LED_PATTERN_NO_TRANSITION)
  else .of .none (evaluateBase i.baseStatus elapsed)

/-! ## The LED -/

def ACTIVITY_PULSE_MS : UInt32 := 80
def IDENTIFY_DURATION_MS : UInt32 := 5000

/-- The variables of `board_led.c` after `board_led_init`; `level` is `s_last_on`, and `none` while
`s_has_level` is false. -/
structure LedState where
  base : BoardStatus := .booting
  overlay : LedOverlay := .none
  baseEpoch : UInt64
  overlayEpoch : UInt64
  activityDeadline : UInt64 := 0
  identifyDeadline : UInt64 := 0
  level : Option Bool := some false
  deriving DecidableEq

/-- `board_led_init` at `now`, which drives the LED off. -/
def LedState.start (now : UInt64) : LedState := { baseEpoch := now, overlayEpoch := now }

/-- `pick_anchor`. -/
def LedState.pickAnchor (s : LedState) : UInt64 :=
  match s.overlay with
  | .identify | .restartArmed | .factoryArmed => s.overlayEpoch
  | _ => s.baseEpoch

/-- `board_led_set_base`. -/
def setBase (s : LedState) (status : BoardStatus) (now : UInt64) : LedState :=
  if status ≠ s.base then { s with base := status, baseEpoch := now } else s

/-- `board_led_activity_pulse`. -/
def activityPulse (s : LedState) (now : UInt64) : LedState :=
  { s with overlay := .activity, activityDeadline := deadlineAddMs now ACTIVITY_PULSE_MS }

/-- `board_led_identify_start`. -/
def identifyStart (s : LedState) (now : UInt64) : LedState :=
  { s with
    overlay := .identify
    identifyDeadline := deadlineAddMs now IDENTIFY_DURATION_MS
    overlayEpoch := now }

/-- The overlay that the button asks for. -/
def armedOverlay : Overlay → LedOverlay
  | .none => .none
  | .restartArmed => .restartArmed
  | .factoryArmed => .factoryArmed

/-- `board_led_set_armed`. -/
def setArmed (s : LedState) (overlay : Overlay) (now : UInt64) : LedState :=
  if overlay = .none then
    if s.overlay = .restartArmed ∨ s.overlay = .factoryArmed then { s with overlay := .none } else s
  else if armedOverlay overlay ≠ s.overlay then
    { s with overlay := armedOverlay overlay, overlayEpoch := now }
  else s

/-- An overlay that has expired is given up. -/
def expire (s : LedState) (now : UInt64) : LedState :=
  let s := if s.overlay = .activity ∧ now ≥ s.activityDeadline then { s with overlay := .none }
    else s
  if s.overlay = .identify ∧ now ≥ s.identifyDeadline then { s with overlay := .none } else s

def LedState.input (s : LedState) (now : UInt64) : PatternInput :=
  { baseStatus := s.base
    overlay := s.overlay
    identifyActive := now < s.identifyDeadline
    activityActive := now < s.activityDeadline
    patternEpochMs := s.pickAnchor
    nowMs := now }

/-- What `board_led_process` evaluates. -/
def LedState.output (s : LedState) (now : UInt64) : PatternOutput :=
  evaluate ((expire s now).input now)

/-- `board_led_process`. -/
def process (s : LedState) (now : UInt64) : LedState :=
  { expire s now with level := some (s.output now).logicalOn }

/-! ## Sources -/

/-- What the LED can show. -/
inductive Source
  | factoryArmed | restartArmed | identify | activity
  | status (s : BoardStatus)
  deriving DecidableEq

/-- The pattern of a source: whether the LED is on when `elapsed` has passed since its start. -/
def Source.on (elapsed : UInt64) : Source → Bool
  | .factoryArmed => (blinkRel elapsed FACTORY_PERIOD_MS FACTORY_ON_MS).1
  | .restartArmed => true
  | .identify => (blinkRel elapsed IDENTIFY_PERIOD_MS IDENTIFY_ON_MS).1
  | .activity => true
  | .status s => (evaluateBase s elapsed).1

/-- The source whose pattern an output is. -/
def PatternOutput.source (out : PatternOutput) (base : BoardStatus) : Source :=
  match out.effective with
  | .none => .status base
  | .activity => .activity
  | .identify => .identify
  | .restartArmed => .restartArmed
  | .factoryArmed => .factoryArmed

/-- The source that `board_led_process` shows. -/
def LedState.shown (s : LedState) (now : UInt64) : Source := (s.output now).source s.base

@[simp] theorem expire_base (s : LedState) (now : UInt64) : (expire s now).base = s.base := by
  unfold expire
  dsimp only
  split <;> split <;> rfl

/-- The level is the pattern of the source that is shown, from the time the code counts from. -/
theorem process_level (s : LedState) (now : UInt64) :
    (process s now).level = some ((s.shown now).on (now - (expire s now).pickAnchor)) := by
  unfold process LedState.shown LedState.output evaluate
  simp only [LedState.input, expire_base]
  split
  · rfl
  · split
    · rfl
    · split
      · rfl
      · split
        · rfl
        · split <;> rfl

end BleGateway.BoardIo.Led
