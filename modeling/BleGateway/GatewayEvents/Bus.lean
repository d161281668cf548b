import BleGateway.Types
import BleGateway.Lib.Machine
import Mathlib.Data.List.FinRange

set_option autoImplicit false

/-! # The event bus

`gateway_events.c`: events get a number and are handed to the registered listeners. The
number is taken and the listeners are copied inside one critical section; the listeners are
called after it, by the task that publishes.
-/

namespace BleGateway.GatewayEvents

/-! ## Events -/

/-- `gateway_event_type_t`. -/
inductive EventType
  | deviceChanged | deviceConnection | deviceSchema | featureState | resyncRequired
  | deviceAdded | deviceRenamed | deviceRemoved
  | settingsChanged | settingsState | settingsTransaction
  deriving DecidableEq, Inhabited

/-- `gateway_event_value_kind_t`. -/
inductive ValueKind
  | none | bool | int
  deriving DecidableEq, Inhabited

/-- `gateway_event_t`. -/
structure GatewayEvent where
  seq : UInt32 := 0
  type : EventType := .deviceChanged
  deviceId : CharBuf DEVICE_ID_MAX_LEN := CharBuf.empty
  featureId : CharBuf DEVICE_FEATURE_ID_MAX_LEN := CharBuf.empty
  propertyId : UInt8 := 0
  valueKind : ValueKind := .none
  boolValue : Bool := false
  intValue : Int32 := 0
  schemaRevision : UInt32 := 0
  configRevision : UInt32 := 0
  transactionId : UInt64 := 0
  expectedRevision : UInt32 := 0
  newRevision : UInt32 := 0
  progressCurrent : UInt16 := 0
  progressTotal : UInt16 := 0
  settingsState : UInt8 := 0
  settingsTxState : UInt8 := 0
  settingsTxResult : UInt8 := 0
  updatedAtMs : Int64 := 0
  deriving DecidableEq, Inhabited

/-! ## The bus -/

def GATEWAY_EVENT_MAX_LISTENERS : Nat := 4

instance : NeZero GATEWAY_EVENT_MAX_LISTENERS := ⟨by decide⟩

/-- A place of `s_listeners`. -/
abbrev Slot := Fin GATEWAY_EVENT_MAX_LISTENERS

/-- `s_seq` and `s_listeners`; a slot in use holds a listener of `φ`, the callback with its
context. -/
structure Bus (φ : Type) where
  seq : UInt32
  listeners : Slot → Option φ

variable {φ : Type}

/-- `gateway_events_init`. -/
def Bus.init : Bus φ := ⟨0, fun _ => none⟩

/-- `gateway_events_register`: the first free slot is taken; `none` is `ESP_ERR_NO_MEM`. -/
def Bus.register (b : Bus φ) (listener : φ) : Option (Slot × Bus φ) :=
  ((List.finRange _).find? fun i => (b.listeners i).isNone).map fun i =>
    (i, { b with listeners := Function.update b.listeners i (some listener) })

/-- The critical section of `gateway_events_publish`: the event with its number, and the copy of
the listeners. -/
def Bus.number (b : Bus φ) (event : GatewayEvent) : Bus φ × GatewayEvent × (Slot → Option φ) :=
  ({ b with seq := b.seq + 1 }, { event with seq := b.seq + 1 }, b.listeners)

/-- The slots of a copy of the listeners that the loop of `gateway_events_publish` calls. -/
def recipients (copy : Slot → Option φ) : List Slot :=
  (List.finRange _).filter fun i => (copy i).isSome

theorem mem_recipients {copy : Slot → Option φ} {i : Slot} :
    i ∈ recipients copy ↔ (copy i).isSome := by
  simp [recipients]

theorem recipients_nodup (copy : Slot → Option φ) : (recipients copy).Nodup :=
  (List.nodup_finRange _).filter _

theorem Bus.register_spec {b b' : Bus φ} {listener : φ} {i : Slot}
    (h : b.register listener = some (i, b')) :
    b.listeners i = none ∧
      b' = { b with listeners := Function.update b.listeners i (some listener) } := by
  rw [Bus.register, Option.map_eq_some_iff] at h
  obtain ⟨j, hj, hpair⟩ := h
  cases hpair
  have hfree := List.find?_some hj
  exact ⟨by simpa using hfree, rfl⟩

/-! ## Publishing tasks

A running call of `gateway_events_publish` still has to call the listeners of `todo`. Between
the call of a listener and the critical section in which that listener takes the event (for the
WebSocket stream: puts it into its ring) the task can be preempted.
-/

/-- A task inside `gateway_events_publish` that has left the critical section. -/
structure Publisher where
  event : GatewayEvent
  todo : List Slot
  inside : Bool
  deriving DecidableEq

/-- A call whose loop is done has returned. -/
def Publisher.settle (p : Publisher) : Option Publisher := if p.todo = [] then none else some p

abbrev Task := Nat

/-- The bus with the tasks that publish. For each slot: the number of the last event published
before its registration, and the numbers its listener was called with and has taken. -/
structure Sys (φ : Type) where
  bus : Bus φ
  running : Task → Option Publisher
  registeredAt : Slot → UInt32
  called : Slot → List UInt32
  entered : Slot → List UInt32

inductive Label (φ : Type)
  | register (listener : φ)
  | publish (t : Task) (event : GatewayEvent)
  | call (t : Task)
  | enter (t : Task)

/-- A listener is registered in slot `i`. -/
def Sys.seat (σ : Sys φ) (i : Slot) (listener : φ) : Sys φ :=
  { σ with
    bus := { σ.bus with listeners := Function.update σ.bus.listeners i (some listener) }
    registeredAt := Function.update σ.registeredAt i σ.bus.seq }

/-- A task takes a number and copies the listeners. -/
def Sys.publish (σ : Sys φ) (t : Task) (event : GatewayEvent) : Sys φ :=
  match σ.bus.number event with
  | (bus, event, copy) =>
      { σ with
        bus := bus
        running := Function.update σ.running t
          (Publisher.settle ⟨event, recipients copy, false⟩) }

/-- A task calls the next listener. -/
def Sys.call (σ : Sys φ) (t : Task) (p : Publisher) (i : Slot) : Sys φ :=
  { σ with
    running := Function.update σ.running t (some { p with inside := true })
    called := Function.update σ.called i (σ.called i ++ [p.event.seq]) }

/-- The listener takes the event and returns. -/
def Sys.enter (σ : Sys φ) (t : Task) (p : Publisher) (i : Slot) (rest : List Slot) : Sys φ :=
  { σ with
    running := Function.update σ.running t
      (Publisher.settle { p with todo := rest, inside := false })
    entered := Function.update σ.entered i (σ.entered i ++ [p.event.seq]) }

def Sys.step (σ : Sys φ) : Label φ → Option (Sys φ)
  | .register listener =>
      (σ.bus.register listener).map fun (i, bus) =>
        { σ with bus := bus, registeredAt := Function.update σ.registeredAt i bus.seq }
  | .publish t event => if (σ.running t).isSome then none else some (σ.publish t event)
  | .call t =>
      match σ.running t with
      | some ⟨event, i :: rest, false⟩ => some (σ.call t ⟨event, i :: rest, false⟩ i)
      | _ => none
  | .enter t =>
      match σ.running t with
      | some ⟨event, i :: rest, true⟩ => some (σ.enter t ⟨event, i :: rest, true⟩ i rest)
      | _ => none

/-- After `gateway_events_init`. -/
def boot : Sys φ := ⟨Bus.init, fun _ => none, fun _ => 0, fun _ => [], fun _ => []⟩

def machine (φ : Type) : Machine (Sys φ) (Label φ) := ⟨(· = boot), Sys.step⟩

/-- **What a step can do.** -/
inductive Stepped (σ : Sys φ) : Label φ → Sys φ → Prop
  | register {listener : φ} {i : Slot} (free : σ.bus.listeners i = none) :
      Stepped σ (.register listener) (σ.seat i listener)
  | publish {t : Task} {event : GatewayEvent} (idle : σ.running t = none) :
      Stepped σ (.publish t event) (σ.publish t event)
  | call {t : Task} {event : GatewayEvent} {i : Slot} {rest : List Slot}
      (at_loop : σ.running t = some ⟨event, i :: rest, false⟩) :
      Stepped σ (.call t) (σ.call t ⟨event, i :: rest, false⟩ i)
  | enter {t : Task} {event : GatewayEvent} {i : Slot} {rest : List Slot}
      (at_call : σ.running t = some ⟨event, i :: rest, true⟩) :
      Stepped σ (.enter t) (σ.enter t ⟨event, i :: rest, true⟩ i rest)

theorem stepped {σ σ' : Sys φ} {l : Label φ} (h : σ.step l = some σ') : Stepped σ l σ' := by
  cases l with
  | register listener =>
      obtain ⟨⟨i, bus⟩, hreg, rfl⟩ := Option.map_eq_some_iff.mp h
      obtain ⟨hfree, rfl⟩ := Bus.register_spec hreg
      exact .register hfree
  | publish t event =>
      obtain ⟨hidle, ⟨⟩⟩ := Option.ite_none_left_eq_some.mp h
      exact .publish (by simpa using hidle)
  | call t =>
      rw [Sys.step] at h
      split at h
      · rename_i hp
        cases h
        exact .call hp
      · cases h
  | enter t =>
      rw [Sys.step] at h
      split at h
      · rename_i hp
        cases h
        exact .enter hp
      · cases h

end BleGateway.GatewayEvents
