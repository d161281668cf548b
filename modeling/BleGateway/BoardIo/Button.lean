import BleGateway.Types

set_option autoImplicit false

/-! # The button

`board_button_fsm.c` and `board_button.c`: a press state machine that classifies a press by
the time it was held, and around it the debounce window and the hold deadlines. Times are
milliseconds since boot.
-/

namespace BleGateway.BoardIo

/-! ## The press state machine -/

/-- `board_io_event_t`. -/
inductive IoEvent
  | buttonShortPress | restartRequest | factoryResetRequest
  deriving DecidableEq

/-- The `board_led_overlay_t` values the button asks for. -/
inductive Overlay
  | none | restartArmed | factoryArmed
  deriving DecidableEq

/-- `board_button_state_t`. -/
inductive FsmState
  | released | pressed | restartArmed | factoryArmed
  deriving DecidableEq

/-- `board_button_fsm_t`. -/
structure Fsm where
  state : FsmState := .released
  pressed : Bool := false
  pressStartMs : UInt64 := 0
  deriving DecidableEq

/-- `board_button_fsm_result_t`; no event is `has_event == false`. -/
structure FeedResult where
  event : Option IoEvent := none
  overlay : Overlay := .none

/-- The event of a press that was held for `duration`. -/
def classify (duration : UInt64) (restartMs factoryMs : UInt32) : IoEvent :=
  if duration ≥ factoryMs.toUInt64 then .factoryResetRequest
  else if duration ≥ restartMs.toUInt64 then .restartRequest
  else .buttonShortPress

/-- The overlay of a press in this state. -/
def FsmState.overlay : FsmState → Overlay
  | .restartArmed => .restartArmed
  | .factoryArmed => .factoryArmed
  | _ => .none

/-- The state of a press that has been held for `duration`. -/
def FsmState.hold (state : FsmState) (duration : UInt64) (restartMs factoryMs : UInt32) :
    FsmState :=
  match state with
  | .pressed =>
      if duration ≥ factoryMs.toUInt64 then .factoryArmed
      else if duration ≥ restartMs.toUInt64 then .restartArmed
      else .pressed
  | .restartArmed => if duration ≥ factoryMs.toUInt64 then .factoryArmed else .restartArmed
  | s => s

/-- `board_button_fsm_feed`. -/
def feed (fsm : Fsm) (pressedNow : Bool) (now : UInt64) (restartMs factoryMs : UInt32) :
    Fsm × FeedResult :=
  if !pressedNow then
    if !fsm.pressed then (fsm, {})
    else
      ({ fsm with state := .released, pressed := false },
        { event := some (classify (now - fsm.pressStartMs) restartMs factoryMs) })
  else if !fsm.pressed then ({ state := .pressed, pressed := true, pressStartMs := now }, {})
  else if now < fsm.pressStartMs then ({ fsm with state := .released, pressed := false }, {})
  else
    let state := fsm.state.hold (now - fsm.pressStartMs) restartMs factoryMs
    ({ fsm with state := state }, { overlay := state.overlay })

/-! ## Debouncing -/

/-- The parts of `board_button_config_t` that the button uses after its pin is set up. -/
structure Config where
  activeLow : Bool
  debounceMs : UInt32
  restartMs : UInt32
  factoryMs : UInt32
  deriving DecidableEq

def UINT64_MAX : UInt64 := 0xffffffffffffffff

/-- `board_deadline_add_ms`. -/
def deadlineAddMs (now : UInt64) (delta : UInt32) : UInt64 :=
  if delta.toUInt64 ≥ UINT64_MAX - now then UINT64_MAX else now + delta.toUInt64

/-- The variables of `board_button.c`; `armed` is what `board_led_set_armed` was told last. -/
structure Button where
  enabled : Bool
  cfg : Config
  fsm : Fsm := {}
  edgePending : Bool := false
  debouncePending : Bool := false
  debounceDeadline : UInt64 := 0
  holdRestartDl : UInt64 := UINT64_MAX
  holdFactoryDl : UInt64 := UINT64_MAX
  armed : Overlay := .none
  deriving DecidableEq

/-- `board_button_on_edge_notify`. -/
def onEdgeNotify (b : Button) : Button := { b with edgePending := true }

/-- A noted edge opens the debounce window. -/
def openWindow (b : Button) (now : UInt64) : Button :=
  if b.edgePending then
    { b with
      edgePending := false
      debouncePending := true
      debounceDeadline := deadlineAddMs now b.cfg.debounceMs }
  else b

/-- A level of the pin as a press. -/
def Config.isPressed (cfg : Config) (level : Bool) : Bool := if cfg.activeLow then !level else level

/-- At the end of the debounce window the level is read and a change is fed to the state
machine. -/
def closeWindow (b : Button) (now : UInt64) (level : Bool) (maxEvents : Nat) :
    Button × List IoEvent :=
  if b.debouncePending ∧ now ≥ b.debounceDeadline then
    if b.cfg.isPressed level ≠ b.fsm.pressed then
      let fed := feed b.fsm (b.cfg.isPressed level) now b.cfg.restartMs b.cfg.factoryMs
      let b' := { b with debouncePending := false, fsm := fed.1, armed := fed.2.overlay }
      if !b.fsm.pressed then
        ({ b' with
            holdRestartDl := deadlineAddMs now b.cfg.restartMs
            holdFactoryDl := deadlineAddMs now b.cfg.factoryMs }, [])
      else
        ({ b' with holdRestartDl := UINT64_MAX, holdFactoryDl := UINT64_MAX },
          fed.2.event.toList.take maxEvents)
    else ({ b with debouncePending := false }, [])
  else (b, [])

/-- A press that has been held past a deadline is fed to the state machine once more. -/
def feedHold (b : Button) (now : UInt64) : Button :=
  if b.fsm.pressed ∧
      ((now ≥ b.holdFactoryDl ∧ b.fsm.state ≠ .factoryArmed) ∨
        (now ≥ b.holdRestartDl ∧ b.fsm.state = .pressed)) then
    let fed := feed b.fsm true now b.cfg.restartMs b.cfg.factoryMs
    let b' := { b with fsm := fed.1, armed := fed.2.overlay }
    match fed.1.state with
    | .restartArmed => { b' with holdRestartDl := UINT64_MAX }
    | .factoryArmed => { b' with holdRestartDl := UINT64_MAX, holdFactoryDl := UINT64_MAX }
    | _ => b'
  else b

/-- `board_button_process` with a reader that answers `level`. -/
def process (b : Button) (now : UInt64) (level : Bool) (maxEvents : Nat) : Button × List IoEvent :=
  if !b.enabled then (b, [])
  else
    let closed := closeWindow (openWindow b now) now level maxEvents
    (feedHold closed.1 now, closed.2)

/-- `board_button_next_deadline`. -/
def nextDeadline (b : Button) (now : UInt64) : Option UInt64 :=
  if !b.enabled then none
  else
    let window :=
      if b.edgePending && !b.debouncePending then now + b.cfg.debounceMs.toUInt64
      else if b.debouncePending then b.debounceDeadline
      else UINT64_MAX
    let best := if b.fsm.pressed then min window (min b.holdRestartDl b.holdFactoryDl) else window
    if best ≠ UINT64_MAX then some best else none

/-! ## A button that was told of no edge -/

/-- No edge is noted, no window is open and the button counts as released. -/
def Button.Idle (b : Button) : Prop :=
  b.edgePending = false ∧ b.debouncePending = false ∧ b.fsm.pressed = false

/-- **Without a noted edge nothing happens,** whatever the level of the pin is. -/
theorem process_idle {b : Button} (h : b.Idle) (now : UInt64) (level : Bool) (maxEvents : Nat) :
    process b now level maxEvents = (b, []) := by
  obtain ⟨hedge, hwindow, hreleased⟩ := h
  have hopen : openWindow b now = b := by simp [openWindow, hedge]
  have hclose : closeWindow b now level maxEvents = (b, []) := by simp [closeWindow, hwindow]
  have hhold : feedHold b now = b := by simp [feedHold, hreleased]
  simp only [process, hopen, hclose, hhold, ite_self]

/-- The pieces work when the edge is noted: a press of 60 ms with a debounce time of 40 ms. -/
example :
    let b : Button := { enabled := true, cfg := ⟨true, 40, 3000, 8000⟩ }
    let pressed := (process (process (onEdgeNotify b) 1000 false 1).1 1040 false 1).1
    (process (process (onEdgeNotify pressed) 1100 true 1).1 1140 true 1).2 =
      [.buttonShortPress] := by
  decide

end BleGateway.BoardIo
