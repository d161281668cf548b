import BleGateway.BoardIo.Button
import BleGateway.Lib.Machine
import Mathlib.Data.List.Forall2

set_option autoImplicit false

/-! # The button end to end

The worker of `board_io.c` sleeps until the next deadline or a notification, and then lets the
button look at the time and the level. `button_isr` notifies it of every edge of the pin. What
the loop does with the notification bits is here as the source has it: no bit is passed on to
`board_button_on_edge_notify`, which no other code calls either, so the debounce window never
opens and no press becomes an event.
-/

namespace BleGateway.BoardIo

/-! ## The worker -/

def BOARD_NOTIFY_BUTTON_EDGE : UInt32 := 1
def BOARD_NOTIFY_STOP : UInt32 := 32
def BOARD_IO_WAIT_NONE : UInt32 := 0xffffffff

/-- The wait of `worker_loop` that starts at `now`: when it times out, if ever. -/
def waitUntil (b : Button) (now : UInt64) : Option UInt64 :=
  match nextDeadline b now with
  | none => none
  | some best =>
      let timeout : UInt32 := if best > now then (best - now).toUInt32 else 0
      if timeout = BOARD_IO_WAIT_NONE then none else some (now + timeout.toUInt64)

/-- The button, the worker and the pin. `level` is the level of the pin, `bits` the worker's
notification value and `wakeAt` the end of its wait. Of the run so far: `changes` are the times
and the new states of the button at the edges, and `emitted` are the events. -/
structure Sys where
  now : UInt64
  level : Bool
  button : Button
  bits : UInt32
  wakeAt : Option UInt64
  stopped : Bool
  changes : List (UInt64 × Bool)
  emitted : List (UInt64 × IoEvent)
  deriving DecidableEq

/-- An edge of the pin, a notification by another task, time that passes, and an iteration of the
worker that wakes at `now` and waits again from `again` on. -/
inductive Label
  | edge (now : UInt64)
  | notify (bits : UInt32)
  | pass (now : UInt64)
  | wake (now again : UInt64)

/-- Time goes on to `now`, and not past the end of the worker's wait. -/
def Sys.InTime (σ : Sys) (now : UInt64) : Prop :=
  σ.now ≤ now ∧ ∀ d ∈ σ.wakeAt, now ≤ d

instance (σ : Sys) (now : UInt64) : Decidable (σ.InTime now) :=
  decidable_of_iff (σ.now ≤ now ∧ σ.wakeAt.all (fun d => decide (now ≤ d)) = true) (by
    cases h : σ.wakeAt <;> simp [Sys.InTime, h])

/-- `button_isr`. -/
def buttonIsr (bits : UInt32) : UInt32 := bits ||| BOARD_NOTIFY_BUTTON_EDGE

/-- An iteration of `worker_loop` from the return of `xTaskNotifyWait` on. -/
def Sys.iterate (σ : Sys) (now again : UInt64) : Sys :=
  if σ.bits &&& BOARD_NOTIFY_STOP ≠ 0 then { σ with now := now, bits := 0, stopped := true }
  else
    let processed := process σ.button now σ.level 1
    { σ with
      now := now
      bits := 0
      button := processed.1
      wakeAt := waitUntil processed.1 again
      emitted := σ.emitted ++ processed.2.map (now, ·) }

def Sys.step (σ : Sys) : Label → Option Sys
  | .edge now =>
      if σ.InTime now then
        some { σ with
          now := now
          level := !σ.level
          bits := buttonIsr σ.bits
          changes := σ.changes ++ [(now, σ.button.cfg.isPressed !σ.level)] }
      else none
  | .notify bits => some { σ with bits := σ.bits ||| bits }
  | .pass now => if σ.InTime now then some { σ with now := now } else none
  | .wake now again =>
      if σ.InTime now ∧ now ≤ again ∧ σ.stopped = false then some (σ.iterate now again) else none

/-- After `board_io_init` with the button released. -/
def boot (cfg : Config) : Sys where
  now := 0
  level := cfg.activeLow
  button := { enabled := true, cfg := cfg }
  bits := 0
  wakeAt := none
  stopped := false
  changes := []
  emitted := []

def machine : Machine Sys Label := ⟨fun σ => ∃ cfg, σ = boot cfg, Sys.step⟩

/-! ## What the button should report -/

/-- The changes after which the button kept its new state for `debounceMs`, up to the time `now`. -/
def stableChanges (debounceMs : UInt32) (now : UInt64) : List (UInt64 × Bool) → List (UInt64 × Bool)
  | [] => []
  | (t, pressed) :: changes =>
      let next := (changes.head?.map Prod.fst).getD now
      if next - t ≥ debounceMs.toUInt64 then
        (t, pressed) :: stableChanges debounceMs now changes
      else stableChanges debounceMs now changes

/-- The events of stable changes: one for each release of a press, at the time of the release.
`since` is the time of the press, if the button is pressed. -/
def reports (cfg : Config) : Option UInt64 → List (UInt64 × Bool) → List (UInt64 × IoEvent)
  | _, [] => []
  | since, (t, true) :: changes => reports cfg (some (since.getD t)) changes
  | none, (_, false) :: changes => reports cfg none changes
  | some since, (t, false) :: changes =>
      (t, classify (t - since) cfg.restartMs cfg.factoryMs) :: reports cfg none changes

/-- The events that the changes of the run so far call for. -/
def Sys.expected (σ : Sys) : List (UInt64 × IoEvent) :=
  reports σ.button.cfg none (stableChanges σ.button.cfg.debounceMs σ.now σ.changes)

/-- The worker has taken all its notifications and waits without a timeout. -/
def Sys.Settled (σ : Sys) : Prop := σ.bits = 0 ∧ σ.wakeAt = none

/-- **End to end.** Once the worker has nothing left to do, each stable press and release has
produced one event, of its class and not before the release, and nothing else has. -/
def EndToEnd (σ : Sys) : Prop :=
  σ.Settled → List.Forall₂ (fun e r => r.1 ≤ e.1 ∧ e.2 = r.2) σ.emitted σ.expected

/-! ## What it reports -/

/-- The button was never told of an edge, and nothing was emitted. -/
def Sys.Deaf (σ : Sys) : Prop := σ.button.Idle ∧ σ.emitted = []

theorem iterate_deaf {σ : Sys} (h : σ.Deaf) (now again : UInt64) : (σ.iterate now again).Deaf := by
  obtain ⟨hidle, hnone⟩ := h
  unfold Sys.iterate
  split
  · exact ⟨hidle, hnone⟩
  · have hprocess := process_idle hidle now σ.level 1
    simp only [hprocess]
    exact ⟨hidle, by rw [hnone]; rfl⟩

/-- One step leaves the button untold: an edge only sets a bit of the worker, and the iteration
that takes the bit does not pass it on. -/
theorem step_deaf {σ σ' : Sys} {l : Label} (h : σ.Deaf) (hstep : σ.step l = some σ') : σ'.Deaf := by
  cases l with
  | edge | pass =>
      obtain ⟨-, ⟨⟩⟩ := Option.ite_none_right_eq_some.mp hstep
      exact h
  | notify bits =>
      cases hstep
      exact h
  | wake now again =>
      obtain ⟨-, ⟨⟩⟩ := Option.ite_none_right_eq_some.mp hstep
      exact iterate_deaf h now again

theorem reachable_deaf {σ : Sys} (hσ : machine.Reachable σ) : σ.Deaf := by
  refine hσ.invariant ?_ fun _ _ _ => step_deaf
  rintro _ ⟨cfg, rfl⟩
  exact ⟨⟨rfl, rfl, rfl⟩, rfl⟩

/-- **The button reports nothing.** In every reachable state the events are those that the edges
call for exactly when the edges call for none. -/
theorem button_end_to_end_iff {σ : Sys} (hσ : machine.Reachable σ) :
    EndToEnd σ ↔ (σ.Settled → σ.expected = []) := by
  obtain ⟨_, hnone⟩ := reachable_deaf hσ
  rw [EndToEnd, hnone]
  constructor
  · intro h hsettled
    exact List.forall₂_nil_left_iff.mp (h hsettled)
  · intro h hsettled
    exact List.forall₂_nil_left_iff.mpr (h hsettled)

/-- A press from 1000 to `release`. The worker is woken by both edges and once more when the
debounce time is over. -/
def press (release : UInt64) : List Label :=
  [.edge 1000, .wake 1000 1000, .edge release, .wake release release, .notify 2, .wake 1300 1300]

/-- The end of the press in the usual configuration. -/
def afterPress (release : UInt64) : Sys :=
  { boot ⟨true, 40, 3000, 8000⟩ with now := 1300, changes := [(1000, true), (release, false)] }

/-- A bounce of 10 ms calls for no event. -/
theorem button_end_to_end_bounce :
    ∃ σ, machine.Reachable σ ∧ σ.Settled ∧ σ.changes = [(1000, true), (1010, false)] ∧
      EndToEnd σ := by
  have hrun : machine.run (boot ⟨true, 40, 3000, 8000⟩) (press 1010) = some (afterPress 1010) := by
    decide
  have hσ : machine.Reachable (afterPress 1010) := Machine.reachable_of_run (.init ⟨_, rfl⟩) hrun
  exact ⟨_, hσ, ⟨rfl, rfl⟩, rfl, (button_end_to_end_iff hσ).mpr fun _ => by decide⟩

/-- A press of 200 ms should be reported as a short press; the worker has nothing left to do and
has reported nothing. -/
theorem press_not_reported :
    ∃ σ, machine.Reachable σ ∧ σ.Settled ∧ σ.expected = [(1200, .buttonShortPress)] ∧
      σ.emitted = [] ∧ ¬ EndToEnd σ := by
  have hrun : machine.run (boot ⟨true, 40, 3000, 8000⟩) (press 1200) = some (afterPress 1200) := by
    decide
  have hσ : machine.Reachable (afterPress 1200) := Machine.reachable_of_run (.init ⟨_, rfl⟩) hrun
  have hexpected : (afterPress 1200).expected = [(1200, .buttonShortPress)] := by decide
  refine ⟨_, hσ, ⟨rfl, rfl⟩, hexpected, rfl, fun h => ?_⟩
  have hnone := (button_end_to_end_iff hσ).mp h ⟨rfl, rfl⟩
  rw [hexpected] at hnone
  exact absurd hnone (by simp)

end BleGateway.BoardIo
