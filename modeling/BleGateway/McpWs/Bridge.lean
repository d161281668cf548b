import BleGateway.McpWs.Assembly
import BleGateway.Mcp.Core
import BleGateway.Lib.Machine
import BleGateway.Lib.Epoch

set_option autoImplicit false

/-! # The MCP WebSocket bridge

`mcp_ws_bridge.c` and `mcp_ws_bridge_ws.c`: one task serves a queue of events, which the
client library's callbacks, the timers, the Wi-Fi events, the API and the completions of device
commands put there. The task works in sections that each hold the lock or do one call; between two
sections any other actor can act. The point that the task has reached is part of the state.

A connection has a number here, which the code does not have: clients are told apart by their
handle, and a freed handle can be given out again. Events carry the number of the connection
they originate from, and the history records what happened; no step decides by either.
-/

namespace BleGateway.McpWs

open Mcp

/-! ## The bridge -/

/-- `mcp_ws_state_t`. -/
inductive LinkState
  | disabled | waitNetwork | connecting | handshaking | ready | backoff
  deriving DecidableEq

abbrev Handle := Nat
abbrev Conn := Nat

/-- A client of the library: its handle and the connection it stands for. -/
structure Client where
  handle : Handle
  conn : Conn
  deriving DecidableEq

/-- The version that `mcp_ws_handle_rx_message` writes into its status. -/
def NEGOTIATED_VERSION : CString := cstr "2024-11-05"

/-- The parts of `bridge_state_t` that the bridge decides by, and the negotiated version. -/
structure Bridge where
  client : Option Client := none
  generation : Nat := 0
  state : LinkState := .disabled
  initializeResponseSent : Bool := false
  negotiatedProtocolVersion : CString := []
  rx : Rx := {}
  started : Bool := false
  networkUp : Bool := false
  enabled : Bool := false
  endpointSet : Bool := false
  deriving DecidableEq

/-- A new generation, a `uint32_t`: nothing is received or negotiated. This is
`bridge_invalidate_connection_locked`. -/
def Bridge.invalidate (b : Bridge) : Bridge :=
  { b with
    generation := (b.generation + 1) % 2 ^ 32
    initializeResponseSent := false
    negotiatedProtocolVersion := []
    rx := {} }

/-- The client has the handle `h`. -/
def Bridge.hasClient (b : Bridge) (h : Handle) : Bool := b.client.any fun c => c.handle = h

/-- `ws_responder_is_alive`. -/
def Bridge.alive (b : Bridge) (generation : Nat) : Bool :=
  b.generation = generation && b.client.isSome && (b.state = .handshaking || b.state = .ready)

/-- Whether a connection can be made. -/
def Bridge.canConnect (b : Bridge) : Bool :=
  b.started && b.networkUp && b.enabled && b.endpointSet

/-- The state without a connection. -/
def Bridge.idleState (b : Bridge) : LinkState := if b.enabled then .waitNetwork else .disabled

/-- The state while the connection is made anew. -/
def Bridge.reloadState (b : Bridge) : LinkState :=
  if !b.enabled then .disabled else if b.canConnect then .connecting else .waitNetwork

/-! ## Events and points -/

/-- `bridge_event_t`, with the connection that the event originates from. A completed device
command answers with `reply`, or not at all if it was a notification. -/
inductive Event
  | connect | networkDown | reload | stop
  | wsConnected (client : Handle) (origin : Conn)
  | wsDisconnected (client : Handle) (origin : Conn)
  | rxMessage (client : Handle) (generation : Nat) (payload : Bytes) (origin : Conn)
  | txMessage (generation : Nat) (reply : Reply) (origin : Conn)
  | handshakeTimeout (origin : Conn)
  | mcpCompletion (generation : Nat) (reply : Option Reply) (origin : Conn)

/-- What follows when the client is destroyed: the rest of an event's handler, or
`bridge_schedule_reconnect`. The client is then given up because of an event of `origin`, or because
it could not be started. -/
inductive After
  | networkDown | reload | stop
  | reconnect (origin : Option Conn)
  deriving DecidableEq

def After.origin : After → Option Conn
  | .reconnect origin => origin
  | _ => none

/-- What the bridge does when the core has handled a message: depending on the message's
method. -/
inductive Followup
  | nothing | initializeRequest | initialized
  deriving DecidableEq

/-- Where the bridge task is: the section it enters next. -/
inductive Point
  | connectBegin | connectInit | connectStart
  | stopReconnectTimer (k : After) | detach (k : After) | stopHandshakeTimer (k : After)
  | freeClient (k : After) | settle (k : After) | startReconnectTimer | queueConnect
  | connected (client : Handle) (origin : Conn) | startHandshakeTimer (origin : Conn)
  | disconnected (client : Handle) (origin : Conn) | timedOut (origin : Conn)
  | receive (client : Handle) (generation : Nat) (payload : Bytes) (origin : Conn)
  | respond (generation : Nat) (reply : Reply) (k : Followup) (origin : Conn)
  | queueTx (generation : Nat) (reply : Reply) (k : Followup) (origin : Conn)
  | initializeDone (generation : Nat) (origin : Conn)
  | initializedDone (generation : Nat) (origin : Conn)
  | transmit (generation : Nat) (reply : Reply) (origin : Conn)
  | sendFrames (generation : Nat) (client : Client) (reply : Reply) (origin : Conn)
  | sendFailed (generation : Nat) (client : Client) (origin : Conn)

/-- Where an event is handled. -/
def Event.point : Event → Option Point
  | .connect => some .connectBegin
  | .networkDown => some (.stopReconnectTimer .networkDown)
  | .reload => some (.stopReconnectTimer .reload)
  | .stop => some (.stopReconnectTimer .stop)
  | .wsConnected client origin => some (.connected client origin)
  | .wsDisconnected client origin => some (.disconnected client origin)
  | .rxMessage client generation payload origin =>
      some (.receive client generation payload origin)
  | .txMessage generation reply origin => some (.transmit generation reply origin)
  | .handshakeTimeout origin => some (.timedOut origin)
  | .mcpCompletion generation reply origin =>
      reply.map fun reply => .respond generation reply .nothing origin

/-- The message that the task has in hand: its client, its generation and its text. -/
def Point.message : Point → Option (Handle × Nat × Bytes)
  | .receive h generation payload _ => some (h, generation, payload)
  | _ => none

/-! ## The system -/

/-- The configuration and the parts that are not the bridge's own: the core's environment,
`cJSON_ParseWithLength`, and the length of the text that is printed for a reply. -/
structure Cfg where
  eventQueueDepth : Nat
  maxRxMessage : Nat
  maxTxMessage : Nat
  reloadCooldownMs : Nat
  env : Env
  parse : Bytes → Option Json
  printed : Reply → Nat

/-- A client as the library runs it. -/
structure Live where
  client : Client
  started : Bool := false
  opened : Bool := false
  closed : Bool := false
  deriving DecidableEq

def Live.start (l : Live) : Live := { l with started := true }

/-- What has happened. `effects` are pairs of an event's connection and the connection that the
event changed, `executed` the methods that the core executed, each with whether the state was READY.
Of the session of the last connection that was opened, `answered` and `confirmed` tell whether an
initialize request was answered with a result, and whether an initialized notification came after
that; `session` is its generation, unless the task has given it up since. Of the present client,
`received` are the data events, `handed` the messages that were processed, and `broken` tells that
the gateway gave the connection up. -/
structure History where
  effects : List (Conn × Conn) := []
  executed : List (Method × Bool) := []
  answered : Bool := false
  confirmed : Bool := false
  session : Option Nat := none
  received : List DataEvent := []
  handed : List Bytes := []
  broken : Bool := false

/-- The bridge, its queue, its task, what other tasks are about to put into the queue, the timers,
the client and the device commands on their way. `updating` are the calls of
`mcp_ws_bridge_config_update` between their two sections. -/
structure Sys where
  bridge : Bridge := {}
  queue : List Event := []
  task : Option Point := none
  posts : List Event := []
  reconnectTimer : Bool := false
  handshakeTimer : Option Conn := none
  live : Option Live := none
  conns : Nat := 0
  pending : List (Epoch.Stamp Conn) := []
  updating : Nat := 0
  history : History := {}

def Sys.goto (s : Sys) (p : Point) : Sys := { s with task := some p }

def Sys.done (s : Sys) : Sys := { s with task := none }

/-- `bridge_queue_event`. -/
def Sys.enqueue (cfg : Cfg) (s : Sys) (e : Event) : Sys :=
  if s.queue.length < cfg.eventQueueDepth then { s with queue := s.queue ++ [e] } else s

/-- An event of the connection `origin` changes the present connection. -/
def Sys.affect (s : Sys) (origin : Conn) : Sys :=
  { s with history := { s.history with
      effects := s.history.effects ++ (s.bridge.client.map fun c => (origin, c.conn)).toList } }

/-- The present connection is given up. -/
def Sys.breakOff (s : Sys) : Sys := { s with history := { s.history with broken := true } }

/-- The task begins a generation that no connection is opened in. -/
def Sys.endSession (s : Sys) : Sys := { s with history := { s.history with session := none } }

/-! ## Making a connection -/

/-- The first section of `mcp_ws_connect_client`. -/
def Sys.connectBegin (s : Sys) : Sys :=
  if s.bridge.canConnect && s.bridge.client.isNone then
    { s with bridge := { s.bridge with state := .connecting } }.goto .connectInit
  else s.done

/-- `esp_websocket_client_init` gives a client with the handle `h`. -/
def Sys.connectInit (s : Sys) (ok : Bool) (h : Handle) : Sys :=
  if ok then
    { s with
      bridge := { s.bridge with client := some ⟨h, s.conns⟩ }
      live := some { client := ⟨h, s.conns⟩ }
      conns := s.conns + 1
      history := { s.history with received := [], handed := [], broken := false } }.goto
        .connectStart
  else s.goto (.settle (.reconnect none))

/-- `esp_websocket_client_start`. -/
def Sys.connectStart (s : Sys) (ok : Bool) : Sys :=
  if ok then { s with live := s.live.map Live.start }.done
  else s.goto (.detach (.reconnect none))

/-- `mcp_ws_handle_connected`. -/
def Sys.connected (s : Sys) (h : Handle) (origin : Conn) : Sys :=
  if s.bridge.hasClient h then
    let s := s.affect origin
    { s with
      bridge := { s.bridge.invalidate with state := .handshaking }
      history := { s.history with
        answered := false
        confirmed := false
        session := some s.bridge.invalidate.generation } }.goto (.startHandshakeTimer origin)
  else s.done

/-! ## Giving a connection up -/

/-- The section of `bridge_destroy_client`. The state is set later, when the client is gone. -/
def Sys.detach (s : Sys) (k : After) : Sys :=
  let s : Sys := (k.origin.elim s s.affect).breakOff.endSession
  { s with bridge := { s.bridge.invalidate with client := none } }.goto (.stopHandshakeTimer k)

/-- What follows in the handler of the event, or `bridge_schedule_reconnect`. -/
def Sys.settle (cfg : Cfg) (s : Sys) : After → Sys
  | .networkDown => { s with bridge := { s.bridge with state := s.bridge.idleState } }.done
  | .stop => { s with bridge := { s.bridge with state := .disabled } }.done
  | .reload =>
      if s.bridge.canConnect then
        if cfg.reloadCooldownMs = 0 then s.goto .queueConnect else s.goto .startReconnectTimer
      else if !s.bridge.started || !s.bridge.enabled then
        { s with bridge := { s.bridge with state := .disabled } }.done
      else { s with bridge := { s.bridge with state := .waitNetwork } }.done
  | .reconnect _ =>
      if s.bridge.canConnect then
        { s with bridge := { s.bridge with state := .backoff } }.goto .startReconnectTimer
      else { s with bridge := { s.bridge with state := s.bridge.idleState } }.done

/-- `mcp_ws_handle_disconnected` for an event of a client. -/
def Sys.disconnected (s : Sys) (h : Handle) (origin : Conn) : Sys :=
  if s.bridge.hasClient h then s.goto (.detach (.reconnect (some origin))) else s.done

/-- `BRIDGE_EVENT_HANDSHAKE_TIMEOUT`: the event has no client, so `mcp_ws_handle_disconnected` takes
it for one of the present client. -/
def Sys.timedOut (s : Sys) (origin : Conn) : Sys :=
  if s.bridge.state = .handshaking then s.goto (.detach (.reconnect (some origin))) else s.done

/-! ## Messages -/

/-- The wire context that `mcp_ws_handle_rx_message` makes for a message. -/
def rxWire (root : Option Json) : WireContext :=
  if root.bind methodOf = some (cstr "initialize") then {} else wire2024

def followup (root : Option Json) : Followup :=
  if root.bind methodOf = some (cstr "initialize") then .initializeRequest
  else if root.bind methodOf = some (cstr "notifications/initialized") then .initialized
  else .nothing

/-- The message is refused before the session is ready. -/
def Gated (ready : Bool) (root : Option Json) : Prop :=
  root.any (fun r => !decide (HandshakeMethod r)) = true ∧ ready = false

instance (ready : Bool) (root : Option Json) : Decidable (Gated ready root) :=
  inferInstanceAs (Decidable (_ ∧ _))

/-- `send_not_ready`. -/
def notReady (id : Json) : Reply :=
  .error id { code := -32002, message := "Server not initialized" }

/-- The answer of `mcp_ws_handle_rx_message`, its own or the core's. The core refuses an empty
message. -/
def handlePayload (cfg : Cfg) (ready : Bool) (payload : Bytes) : Option Method × Option Action :=
  let root := cfg.parse payload
  if Gated ready root then (none, (root.bind idOf).map fun id => .send (notReady id))
  else if payload = [] then (none, some (.refused .invalidArg))
  else
    let handled := handleJson cfg.env (rxWire root) root
    (handled.1, some handled.2)

/-- An initialized notification. -/
def InitializedNotification (root : Json) : Prop :=
  ValidEnvelope root ∧ methodOf root = some (cstr "notifications/initialized") ∧ idOf root = none

instance (root : Json) : Decidable (InitializedNotification root) :=
  inferInstanceAs (Decidable (_ ∧ _ ∧ _))

/-- The section that follows the core's call. -/
def Followup.point (k : Followup) (generation : Nat) (origin : Conn) : Option Point :=
  match k with
  | .nothing => none
  | .initializeRequest => some (.initializeDone generation origin)
  | .initialized => some (.initializedDone generation origin)

/-- The follow-up of a message, unless it is refused. -/
def rxFollowup (cfg : Cfg) (ready : Bool) (payload : Bytes) : Followup :=
  if Gated ready (cfg.parse payload) then .nothing else followup (cfg.parse payload)

/-- What is recorded of a message that is processed. -/
def Sys.recordMessage (cfg : Cfg) (s : Sys) (payload : Bytes) (origin : Conn) : Sys :=
  let ready := decide (s.bridge.state = .ready)
  let executed := (handlePayload cfg ready payload).1
  let notified := (cfg.parse payload).any fun r => decide (InitializedNotification r)
  let s := s.affect origin
  { s with history := { s.history with
    handed := s.history.handed ++ [payload]
    executed := s.history.executed ++ (executed.map fun m => (m, ready)).toList
    confirmed := s.history.confirmed || (s.history.answered && notified) } }

/-- `mcp_ws_handle_rx_message` up to the responder's call. -/
def Sys.receive (cfg : Cfg) (s : Sys) (h : Handle) (generation : Nat) (payload : Bytes)
    (origin : Conn) : Sys :=
  if s.bridge.hasClient h && s.bridge.generation = generation then
    let ready := decide (s.bridge.state = .ready)
    let k := rxFollowup cfg ready payload
    let s := s.recordMessage cfg payload origin
    match (handlePayload cfg ready payload).2 with
    | some (.send reply) => s.goto (.respond generation reply k origin)
    | some .sendNone => { s with task := k.point generation origin }
    | some .accepted =>
        { s with pending := ⟨generation, origin⟩ :: s.pending, task := k.point generation origin }
    | some (.refused _) | none => s.done
  else s.done

/-- The checks of `ws_responder_send_json`. -/
def Sys.respond (cfg : Cfg) (s : Sys) (generation : Nat) (reply : Reply) (k : Followup)
    (origin : Conn) : Sys :=
  if 0 < cfg.printed reply ∧ cfg.printed reply ≤ cfg.maxTxMessage ∧ s.bridge.alive generation then
    s.goto (.queueTx generation reply k origin)
  else s.done

/-- A request with an id is answered with a result. -/
def Reply.answers : Reply → Bool
  | .result id _ => !id.isNull
  | .error _ _ => false

/-- The rest of `ws_responder_send_json`: the copy is made unless memory is short, and queued. -/
def Sys.queueTx (cfg : Cfg) (s : Sys) (ok : Bool) (generation : Nat) (reply : Reply)
    (k : Followup) (origin : Conn) : Sys :=
  if ok ∧ s.queue.length < cfg.eventQueueDepth then
    { s.enqueue cfg (.txMessage generation reply origin) with
      task := k.point generation origin
      history := { s.history with
        answered := s.history.answered || (k = .initializeRequest && Reply.answers reply) } }
  else s.done

/-- The section after an answered `initialize`. -/
def Bridge.initializeDone (b : Bridge) : Bridge :=
  { b with initializeResponseSent := true, negotiatedProtocolVersion := NEGOTIATED_VERSION }

def Sys.initializeDone (s : Sys) (generation : Nat) (origin : Conn) : Sys :=
  if s.bridge.generation = generation then
    { s.affect origin with bridge := s.bridge.initializeDone }.done
  else s.done

/-- The section after `notifications/initialized`. -/
def Sys.initializedDone (s : Sys) (generation : Nat) (origin : Conn) : Sys :=
  if s.bridge.generation = generation ∧ s.bridge.initializeResponseSent then
    { s.affect origin with
      bridge := { s.bridge with state := .ready }
      handshakeTimer := none }.done
  else s.done

/-- The first section of `mcp_ws_handle_tx_message`. -/
def Sys.transmit (s : Sys) (generation : Nat) (reply : Reply) (origin : Conn) : Sys :=
  match s.bridge.client with
  | some client =>
      if s.bridge.alive generation then s.goto (.sendFrames generation client reply origin)
      else s.done
  | none => s.done

/-- The frames are sent to the client that the first section saw. -/
def Sys.sendFrames (s : Sys) (ok : Bool) (generation : Nat) (client : Client) (origin : Conn) :
    Sys :=
  let s := { s with history := { s.history with
    effects := s.history.effects ++ [(origin, client.conn)] } }
  if ok then s.done else s.goto (.sendFailed generation client origin)

def Sys.sendFailed (s : Sys) (generation : Nat) (client : Client) (origin : Conn) : Sys :=
  if s.bridge.generation = generation ∧ s.bridge.hasClient client.handle then
    { (s.affect origin).breakOff.endSession with bridge := s.bridge.invalidate }.goto
      (.detach (.reconnect (some origin)))
  else s.done

/-! ## Steps -/

/-- The next section of the task; `ok` and `h` are what calls of the libraries return. -/
def Sys.work (cfg : Cfg) (s : Sys) (ok : Bool) (h : Handle) : Point → Sys
  | .connectBegin => s.connectBegin
  | .connectInit => s.connectInit ok h
  | .connectStart => s.connectStart ok
  | .stopReconnectTimer k => { s with reconnectTimer := false }.goto (.detach k)
  | .detach k => s.detach k
  | .stopHandshakeTimer k => { s with handshakeTimer := none }.goto (.freeClient k)
  | .freeClient k => { s with live := none }.goto (.settle k)
  | .settle k => s.settle cfg k
  | .startReconnectTimer => { s with reconnectTimer := true }.done
  | .queueConnect => (s.enqueue cfg .connect).done
  | .connected client origin => s.connected client origin
  | .startHandshakeTimer origin => { s with handshakeTimer := some origin }.done
  | .disconnected client origin => s.disconnected client origin
  | .timedOut origin => s.timedOut origin
  | .receive client generation payload origin => s.receive cfg client generation payload origin
  | .respond generation reply k origin => s.respond cfg generation reply k origin
  | .queueTx generation reply k origin => s.queueTx cfg ok generation reply k origin
  | .initializeDone generation origin => s.initializeDone generation origin
  | .initializedDone generation origin => s.initializedDone generation origin
  | .transmit generation reply origin => s.transmit generation reply origin
  | .sendFrames generation client _ origin => s.sendFrames ok generation client origin
  | .sendFailed generation client origin => s.sendFailed generation client origin

/-- A data event in the client's task: `mcp_ws_websocket_event_handler` from its lock on. -/
def Sys.clientData (cfg : Cfg) (s : Sys) (l : Live) (e : DataEvent) : Sys :=
  let s := { s with history := { s.history with received := s.history.received ++ [e] } }
  if s.bridge.hasClient l.client.handle then
    let r := assemble cfg.maxRxMessage s.bridge.rx e
    let s := { s.affect l.client.conn with bridge := { s.bridge with rx := r.1 } }
    match r.2 with
    | some message =>
        s.enqueue cfg
          (.rxMessage l.client.handle s.bridge.generation message l.client.conn)
    | none => s
  else s

/-- `wifi_event_handler` and the API, each up to its event. -/
def Sys.wifiUp (s : Sys) : Sys :=
  let b := { s.bridge with networkUp := true }
  { s with bridge := b, posts := if b.canConnect then .connect :: s.posts else s.posts }

def Sys.wifiDown (s : Sys) : Sys :=
  { s.breakOff with
    bridge := { s.bridge.invalidate with networkUp := false, state := s.bridge.idleState }
    posts := .networkDown :: s.posts }

def Sys.apiStart (s : Sys) : Sys :=
  let b := { s.bridge with started := true }
  { s with
    bridge := { b with state := b.reloadState }
    posts := if b.canConnect then .connect :: s.posts else s.posts }

def Sys.apiStop (s : Sys) : Sys :=
  { s.breakOff with
    bridge := { s.bridge.invalidate with started := false, state := .disabled }
    posts := .stop :: s.posts }

/-- `mcp_ws_bridge_reload`, and what `mcp_ws_bridge_config_set` and
`mcp_ws_bridge_config_update` do alike. -/
def Sys.apiReload (s : Sys) : Sys :=
  { s.breakOff with
    bridge := { s.bridge.invalidate with state := s.bridge.reloadState }
    posts := .reload :: s.posts }

/-- `mcp_ws_bridge_config_set`. -/
def Sys.configSet (s : Sys) (enabled endpointSet : Bool) : Sys :=
  { s with bridge := { s.bridge with enabled := enabled, endpointSet := endpointSet } }.apiReload

/-- The first section of `mcp_ws_bridge_config_update`. A changed `enabled` waits for a restart;
otherwise a new endpoint makes a started bridge connect anew. -/
def Sys.configUpdate (s : Sys) (enabled endpointSet : Option Bool) : Sys :=
  let changed := enabled.any fun e => e != s.bridge.enabled
  let b := { s.bridge with
    enabled := enabled.getD s.bridge.enabled
    endpointSet := endpointSet.getD s.bridge.endpointSet }
  { s with
    bridge := b
    updating := if !changed && endpointSet.isSome && b.started && b.enabled then s.updating + 1
      else s.updating }

/-- Its second section. It does not ask whether the bridge is still started and enabled. -/
def Sys.configReload (s : Sys) : Sys :=
  { s.breakOff with
    bridge := { s.bridge.invalidate with
      state := if s.bridge.networkUp && s.bridge.endpointSet then .connecting else .waitNetwork }
    posts := .reload :: s.posts
    updating := s.updating - 1 }

/-- `ws_responder_post` up to its event. -/
def Sys.commandDone (s : Sys) (w : Epoch.Stamp Conn) (reply : Option Reply) : Sys :=
  if s.bridge.alive w.epoch then
    { s with posts := .mcpCompletion w.epoch reply w.origin :: s.posts }
  else s

/-- What happens next. -/
inductive Label
  | take
  | work (ok : Bool) (h : Handle)
  | clientConnected | clientDisconnected | clientData (e : DataEvent)
  | expireReconnect | expireHandshake
  | post (i : Nat)
  | wifiUp | wifiDown | apiStart | apiStop | apiReload
  | configSet (enabled endpointSet : Bool)
  | configUpdate (enabled endpointSet : Option Bool)
  | configReload
  | commandDone (i : Nat) (reply : Option Reply)

/-- **One step.** -/
def step (cfg : Cfg) (s : Sys) : Label → Option Sys
  | .take =>
      match s.task, s.queue with
      | none, e :: queue => some { s with queue := queue, task := e.point }
      | _, _ => none
  | .work ok h => s.task.map (s.work cfg ok h)
  | .clientConnected =>
      match s.live with
      | some l =>
          if l.started && !l.opened && !l.closed then
            some ({ s with live := some { l with opened := true } }.enqueue cfg
              (.wsConnected l.client.handle l.client.conn))
          else none
      | none => none
  | .clientDisconnected =>
      match s.live with
      | some l =>
          if l.started then
            some ({ s with live := some { l with closed := true } }.enqueue cfg
              (.wsDisconnected l.client.handle l.client.conn))
          else none
      | none => none
  | .clientData e =>
      match s.live with
      | some l => if l.opened && !l.closed then some (s.clientData cfg l e) else none
      | none => none
  | .expireReconnect =>
      if s.reconnectTimer then
        some { s with reconnectTimer := false, posts := .connect :: s.posts }
      else none
  | .expireHandshake =>
      s.handshakeTimer.map fun origin =>
        { s with handshakeTimer := none, posts := .handshakeTimeout origin :: s.posts }
  | .post i =>
      s.posts[i]?.map fun e => { s with posts := s.posts.eraseIdx i }.enqueue cfg e
  | .wifiUp => some s.wifiUp
  | .wifiDown => some s.wifiDown
  | .apiStart => some s.apiStart
  | .apiStop => some s.apiStop
  | .apiReload => some s.apiReload
  | .configSet enabled endpointSet => some (s.configSet enabled endpointSet)
  | .configUpdate enabled endpointSet => some (s.configUpdate enabled endpointSet)
  | .configReload => if 0 < s.updating then some s.configReload else none
  | .commandDone i reply =>
      s.pending[i]?.map fun w =>
        { s with pending := s.pending.eraseIdx i }.commandDone w reply

/-- The bridge after `mcp_ws_bridge_init`. -/
def initial (networkUp enabled endpointSet : Bool) : Sys where
  bridge := { networkUp := networkUp, enabled := enabled, endpointSet := endpointSet }

/-- **The bridge** among the other actors. -/
def machine (cfg : Cfg) : Machine Sys Label where
  init s := ∃ networkUp enabled endpointSet, s = initial networkUp enabled endpointSet
  step := step cfg

/-- Runs from a bridge that has a network, an endpoint and is enabled. -/
theorem exists_run (cfg : Cfg) (ls : List Label) {p : Sys → Bool}
    (h : ((machine cfg).run (initial true true true) ls).map p = some true) :
    ∃ s, (machine cfg).Reachable s ∧ p s = true :=
  Machine.exists_reachable_of_run ⟨_, _, _, rfl⟩ h

theorem exists_runWhen (cfg : Cfg) (ok : Sys → Label → Prop) [∀ s l, Decidable (ok s l)]
    (ls : List Label) {p : Sys → Bool}
    (h : ((machine cfg).runWhen ok (initial true true true) ls).map p = some true) :
    ∃ s, (machine cfg).ReachableWhen ok s ∧ p s = true :=
  Machine.exists_reachableWhen_of_run ⟨_, _, _, rfl⟩ h

end BleGateway.McpWs
