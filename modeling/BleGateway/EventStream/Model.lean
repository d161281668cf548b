import BleGateway.EventStream.Json
import BleGateway.Lib.RingBuffer

set_option autoImplicit false

/-! # The WebSocket event stream

`web_event_ws.c`: publishing tasks put events into a ring and have the server's task drain it.
Every critical section, every call of `httpd_queue_work` and every frame that is sent is a
step of its own. Registering and pruning clients and draining are done by the server's one
task, so they exclude each other.
-/

namespace BleGateway.EventStream

open GatewayEvents

def WEB_WS_MAX_CLIENTS : Nat := 2
def WEB_WS_EVENT_RING_DEPTH : Nat := 32

instance : NeZero WEB_WS_MAX_CLIENTS := ⟨by decide⟩
instance : NeZero WEB_WS_EVENT_RING_DEPTH := ⟨by decide⟩

abbrev ClientSlot := Fin WEB_WS_MAX_CLIENTS

/-- A socket descriptor. -/
abbrev Fd := Nat

/-- `ws_client_t`. -/
structure Client where
  fd : Fd := 0
  active : Bool := false
  deriving DecidableEq

/-- A published event with the number of the `gateway_events_publish` call, which tells two events
apart whose sequence numbers are 2^32 apart. -/
structure Published where
  stamp : Nat
  event : GatewayEvent
  deriving DecidableEq, Inhabited

/-- `web_event_ws_state_t`. -/
structure WsState where
  ring : RingBuffer Published WEB_WS_EVENT_RING_DEPTH
  workPending : Bool
  resyncRequired : Bool
  resyncReason : ResyncReason
  clients : ClientSlot → Client

/-! ## Clients -/

/-- A client's slot after `prune_stale_clients_locked`; `valid` is what `validate_ws_fd` says. -/
def Client.validated (c : Client) (valid : Bool) : Client :=
  if c.active && !valid then { c with active := false } else c

/-- The slot whose client has the descriptor `fd`. -/
def slotOf (clients : ClientSlot → Client) (fd : Fd) : Option ClientSlot :=
  (List.finRange _).find? fun i => (clients i).active && decide ((clients i).fd = fd)

/-- `prune_client`. -/
def pruneClient (clients : ClientSlot → Client) (fd : Fd) : ClientSlot → Client :=
  match slotOf clients fd with
  | none => clients
  | some i => Function.update clients i { clients i with active := false }

/-- `register_client`: the slots afterwards, and the slot that was taken for the client. -/
def registerClient (clients : ClientSlot → Client) (fd : Fd) (valid : ClientSlot → Bool) :
    (ClientSlot → Client) × Option ClientSlot :=
  match slotOf clients fd with
  | some _ => (clients, none)
  | none =>
      let pruned := fun i => (clients i).validated (valid i)
      match (List.finRange _).find? fun i => !(pruned i).active with
      | none => (pruned, none)
      | some i => (Function.update pruned i ⟨fd, true⟩, some i)

/-- The descriptors of the active clients. -/
def activeFds (clients : ClientSlot → Client) : List Fd :=
  ((List.finRange _).filter fun i => (clients i).active).map fun i => (clients i).fd

/-! ## Draining -/

/-- A frame for a client. -/
inductive Frame
  | resync (text : CString)
  | event (stamp : Nat) (text : CString)
  deriving DecidableEq

/-- What a running drain has still to do. -/
inductive Job
  | announce
  | serialize (e : Published)
  | send (fd : Fd) (frame : Frame)
  deriving DecidableEq

/-- A running `web_event_ws_drain` behind its critical section. -/
structure Drain where
  fds : List Fd
  jobs : List Job
  deriving DecidableEq

/-- The critical section of a drain: it empties the ring, takes the flags and the clients. -/
def drainSection (ws : WsState) (valid : ClientSlot → Bool) : WsState × Drain :=
  let batch := RingBuffer.popMany WEB_WS_EVENT_RING_DEPTH ws.ring
  let clients := fun i => (ws.clients i).validated (valid i)
  ({ ws with
      ring := batch.2
      resyncRequired := false
      workPending := false
      clients := clients },
    { fds := activeFds clients
      jobs := (if ws.resyncRequired then [.announce] else []) ++ batch.1.map .serialize })

/-! ## Publishing -/

/-- The first critical section of `on_gateway_event`; the answer is `schedule`. -/
def takeEvent (ws : WsState) (e : Published) : WsState × Bool :=
  let taken : WsState := match ws.ring.push e with
    | none => { ws with resyncRequired := true, resyncReason := .ringOverflow }
    | some ring => { ws with ring := ring }
  if taken.workPending then (taken, false) else ({ taken with workPending := true }, true)

/-- The critical section after a failed `httpd_queue_work`. -/
def queueFailed (ws : WsState) : WsState :=
  { ws with workPending := false, resyncRequired := true, resyncReason := .queueWorkFailed }

/-- The critical section after an event that did not serialize. -/
def serializeFailed (ws : WsState) : WsState :=
  { ws with resyncRequired := true, resyncReason := .serializeFailed }

/-! ## The system -/

/-- Where a task inside `gateway_events_publish` is: it has a number, it is about to call
`httpd_queue_work`, or that call has failed. -/
inductive Phase
  | numbered (e : Published)
  | scheduling
  | failed
  deriving DecidableEq

/-- What happened to a client since its registration. -/
inductive Mark
  | published (stamp : Nat)
  | sent (stamp : Nat)
  | resync
  deriving DecidableEq

/-- The stream, the bus's number, the publishing tasks, the drains that are queued at the server
and the one that runs. `history` is what happened to each client, and `taken` the events in the
order in which they entered the ring. -/
structure Sys where
  seq : UInt32
  stamps : Nat
  ws : WsState
  running : Task → Option Phase
  queued : Nat
  drain : Option Drain
  history : ClientSlot → List Mark
  taken : List Nat

inductive Label
  | publish (t : Task) (event : GatewayEvent)
  | takeEvent (t : Task)
  | queueWork (t : Task) (ok : Bool)
  | queueFailed (t : Task)
  | drainBegin (valid : ClientSlot → Bool)
  | drainJob (sent : Bool)
  | drainEnd
  | connect (fd : Fd) (valid : ClientSlot → Bool)
  | close (fd : Fd)

def Frame.mark : Frame → Mark
  | .resync _ => .resync
  | .event stamp _ => .sent stamp

/-- A frame is sent to the client with the descriptor `fd`. -/
def Sys.deliver (σ : Sys) (fd : Fd) (frame : Frame) : ClientSlot → List Mark := fun i =>
  if (σ.ws.clients i).active ∧ (σ.ws.clients i).fd = fd then σ.history i ++ [frame.mark]
  else σ.history i

/-- One job of a running drain. -/
def Sys.job (σ : Sys) (d : Drain) (rest : List Job) (sent : Bool) : Job → Sys
  | .announce =>
      { σ with drain := some { d with
          jobs := d.fds.map (.send · (.resync (resyncText σ.seq σ.ws.resyncReason))) ++ rest } }
  | .serialize e =>
      match serializeEvent e.event WEB_WS_JSON_MAX with
      | none => { σ with ws := serializeFailed σ.ws, drain := some { d with jobs := rest } }
      | some text =>
          { σ with drain := some { d with
              jobs := d.fds.map (.send · (.event e.stamp text)) ++ rest } }
  | .send fd frame =>
      if sent then { σ with history := σ.deliver fd frame, drain := some { d with jobs := rest } }
      else { σ with
        ws := { σ.ws with clients := pruneClient σ.ws.clients fd }
        drain := some { d with jobs := rest } }

def Sys.step (σ : Sys) : Label → Option Sys
  | .publish t event =>
      if (σ.running t).isSome then none
      else some { σ with
        seq := σ.seq + 1
        stamps := σ.stamps + 1
        running := Function.update σ.running t
          (some (.numbered ⟨σ.stamps, { event with seq := σ.seq + 1 }⟩))
        history := fun i => σ.history i ++ [.published σ.stamps] }
  | .takeEvent t =>
      match σ.running t with
      | some (.numbered e) =>
          some { σ with
            ws := (takeEvent σ.ws e).1
            running := Function.update σ.running t
              (if (takeEvent σ.ws e).2 then some .scheduling else none)
            taken := if σ.ws.ring.push e = none then σ.taken else σ.taken ++ [e.stamp] }
      | _ => none
  | .queueWork t ok =>
      match σ.running t with
      | some .scheduling =>
          if ok then
            some { σ with
              queued := σ.queued + 1
              running := Function.update σ.running t none }
          else some { σ with running := Function.update σ.running t (some .failed) }
      | _ => none
  | .queueFailed t =>
      match σ.running t with
      | some .failed =>
          some { σ with
            ws := queueFailed σ.ws
            running := Function.update σ.running t none }
      | _ => none
  | .drainBegin valid =>
      match σ.queued, σ.drain with
      | queued + 1, none =>
          some { σ with
            ws := (drainSection σ.ws valid).1
            queued := queued
            drain := some (drainSection σ.ws valid).2 }
      | _, _ => none
  | .drainJob sent =>
      match σ.drain with
      | some ⟨fds, job :: rest⟩ => some (σ.job ⟨fds, job :: rest⟩ rest sent job)
      | _ => none
  | .drainEnd =>
      match σ.drain with
      | some ⟨_, []⟩ => some { σ with drain := none }
      | _ => none
  | .connect fd valid =>
      if σ.drain.isSome then none
      else
        let registered := registerClient σ.ws.clients fd valid
        some { σ with
          ws := { σ.ws with clients := registered.1 }
          history := fun i => if registered.2 = some i then [] else σ.history i }
  | .close fd =>
      if σ.drain.isSome then none
      else some { σ with ws := { σ.ws with clients := pruneClient σ.ws.clients fd } }

/-- After `web_event_ws_register`; `seq` events were published before. -/
def boot (seq : UInt32) : Sys where
  seq := seq
  stamps := 0
  ws := ⟨RingBuffer.empty default, false, false, .none, fun _ => {}⟩
  running _ := none
  queued := 0
  drain := none
  history _ := []
  taken := []

def machine : Machine Sys Label := ⟨fun σ => ∃ seq, σ = boot seq, Sys.step⟩

end BleGateway.EventStream
