import BleGateway.Lib.Machine
import Mathlib.Data.List.Sort

set_option autoImplicit false

/-! # The dashboard's event stream

`core/events.js`: the client of `/ws/events`. Events are buffered until a snapshot has been applied,
`goLive` is called with the number of the last event that the snapshot contains, and what was
buffered behind it is replayed; a gap in the numbers ends the live mode and asks for another
snapshot. Handlers return without calling back.
-/

namespace BleGateway.Dashboard

/-- A parsed message: whether it is an object, its `type` if that is a string, and its `seq` if that
is an integral number. -/
structure Msg where
  object : Bool
  type : Option String
  seq : Option Int
  deriving DecidableEq

/-- A message that `_isValidEvent` lets pass. -/
structure Event where
  type : String
  seq : Nat
  deriving DecidableEq

def MAX_SAFE_INTEGER : Int := 9007199254740991

/-- `_isValidEvent`, with the event that is valid. -/
def Msg.event (m : Msg) : Option Event :=
  match m.object, m.type, m.seq with
  | true, some type, some seq =>
      if type ≠ "" ∧ 0 ≤ seq ∧ seq ≤ MAX_SAFE_INTEGER then some ⟨type, seq.toNat⟩ else none
  | _, _, _ => none

/-- What the listeners get: an event by `_applyEvent`, or a `resync:required`. -/
inductive Out
  | apply (e : Event)
  | resync
  deriving DecidableEq

/-- The fields of `events` that messages go by. -/
structure Client where
  buffer : List Event := []
  lastSeq : Nat := 0
  live : Bool := false
  resyncPending : Bool := false
  sessionId : Nat := 0
  deriving DecidableEq

/-- What is given up when the live mode ends for a resync. -/
def Client.resync (c : Client) : Client := { c with live := false, resyncPending := true }

/-- `_acceptSequencedEvent`. -/
def acceptSequencedEvent (c : Client) (e : Event) : Client × List Out :=
  if e.type = "resync.required" then (c.resync, [.resync])
  else if e.seq ≤ c.lastSeq then (c, [])
  else if c.lastSeq ≠ 0 ∧ e.seq ≠ c.lastSeq + 1 then (c.resync, [.resync])
  else ({ c with lastSeq := e.seq }, [.apply e])

/-- The loop of `_replayBuffered`. -/
def replay (c : Client) : List Event → Client × List Out
  | [] => (c, [])
  | e :: events =>
      let accepted := acceptSequencedEvent c e
      let rest := replay accepted.1 events
      (rest.1, accepted.2 ++ rest.2)

/-- The order that the buffer is sorted by; events of one number keep theirs. -/
def Event.before (a b : Event) : Prop := a.seq ≤ b.seq

instance : DecidableRel Event.before := fun a b => inferInstanceAs (Decidable (a.seq ≤ b.seq))
instance : Std.Total Event.before := ⟨fun a b => Nat.le_total a.seq b.seq⟩
instance : IsTrans Event Event.before := ⟨fun _ _ _ hab hbc => Nat.le_trans hab hbc⟩

/-- The buffered events behind the snapshot, in the order of their numbers. -/
def toReplay (c : Client) : List Event :=
  (c.buffer.filter fun e => e.seq > c.lastSeq).insertionSort Event.before

/-- `_replayBuffered`. -/
def replayBuffered (c : Client) : Client × List Out :=
  if !c.live || c.buffer.length = 0 then (c, []) else replay { c with buffer := [] } (toReplay c)

/-- `goLive`. -/
def goLive (c : Client) (snapshotSeq : Nat) : Client × List Out :=
  replayBuffered { c with
    lastSeq := snapshotSeq
    live := true
    resyncPending := false
    sessionId := c.sessionId + 1 }

def BUFFER_BOUND : Nat := 100
def BUFFER_KEPT : Nat := 64

/-- `_onMessage` for a valid event. -/
def onEvent (c : Client) (e : Event) : Client × List Out :=
  if e.type = "resync.required" then (c.resync, [.resync])
  else if c.live then acceptSequencedEvent c e
  else
    let buffer := c.buffer ++ [e]
    if buffer.length > BUFFER_BOUND then
      ({ c with buffer := buffer.drop (buffer.length - BUFFER_KEPT), resyncPending := true },
        [.resync])
    else ({ c with buffer := buffer }, [])

/-- `_onMessage`. -/
def onMessage (c : Client) (m : Msg) : Client × List Out :=
  match m.event with
  | none => (c, [])
  | some e => onEvent c e

/-- `onclose`. -/
def onClose (c : Client) : Client := { c with live := false, buffer := [], resyncPending := false }

/-! ## The client and what it has done -/

/-- The client, with its history since the last `goLive`: the snapshot's number, what the listeners
got, the events that were buffered then or came after, and whether the socket was closed. -/
structure Sys where
  client : Client := {}
  snapshot : Option Nat := none
  outs : List Out := []
  received : List Event := []
  closed : Bool := false
  deriving DecidableEq

inductive Label
  | message (m : Msg)
  | close
  | goLive (snapshotSeq : Nat)
  deriving DecidableEq

def step (s : Sys) : Label → Sys
  | .message m =>
      let done := onMessage s.client m
      { s with
        client := done.1
        outs := s.outs ++ done.2
        received := s.received ++ m.event.toList }
  | .close => { s with client := onClose s.client, closed := true }
  | .goLive snapshotSeq =>
      let done := goLive s.client snapshotSeq
      { client := done.1
        snapshot := some snapshotSeq
        outs := done.2
        received := s.client.buffer
        closed := false }

def machine : Machine Sys Label := ⟨fun s => s = {}, fun s l => some (step s l)⟩

end BleGateway.Dashboard
