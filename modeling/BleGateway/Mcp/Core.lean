import BleGateway.Mcp.Protocol

set_option autoImplicit false

/-! # Handling an MCP message

`mcp_core_handle_json` and `route_request` of `mcp_core.c`: a message is checked, its protocol
version is detected, and its method is routed. Whatever the message, the core ends with one
action of the transport's responder. What the tools do is a parameter.
-/

namespace BleGateway.Mcp

/-! ## Replies -/

/-- A JSON-RPC response object. -/
inductive Reply
  | result (id : Json) (payload : Json)
  | error (id : Json) (e : RpcError)

/-- How the core ends: with a response, with none (`202 Accepted`), with a device command that is
accepted and answers later, or with a code alone. -/
inductive Action
  | send (reply : Reply)
  | sendNone
  | accepted
  | refused (code : EspErr)

/-- `duplicate_id`. -/
def duplicateId : Option Json → Json
  | some id => if id.isString || id.isNumber then id else .null
  | none => .null

def sendResult (payload : Json) (id : Option Json) : Action :=
  .send (.result (duplicateId id) payload)

def sendError (code : Int) (message : String) (id : Option Json)
    (httpStatus : Option String := none) : Action :=
  .send (.error (duplicateId id) { code := code, message := message, httpStatus := httpStatus })

def sendErrorDetail (e : RpcError) (id : Option Json) : Action :=
  .send (.error (duplicateId id) e)

/-! ## Routing -/

/-- The methods that `route_request` knows. -/
inductive Method
  | initializeRequest | initialized | ping | discover | toolsList | toolsCall
  deriving DecidableEq

/-- The configuration and the tools: `mcp_codec_decode_name`, the results of `server/discover` and
of `tools/list`, and `handle_tools_call`. -/
structure Env where
  compat2025 : Bool
  decodeName : CString → Option CString
  discovery : Option Json
  toolsList : RequestContext → Option Json
  toolsCall : Json → Option Json → Bool → RequestContext → Action

/-- A result that a notification does not get. -/
def answer (payload : Option Json) (id : Option Json) (notification : Bool) : Action :=
  match payload with
  | none => sendError (-32603) "Internal error" id
  | some payload => if notification then .sendNone else sendResult payload id

/-- `route_request`: the method that is executed, if any, and the action. -/
def routeRequest (env : Env) (root : Json) (id : Option Json) (notification : Bool)
    (context : RequestContext) : Option Method × Action :=
  if context.initializeRequest then
    (some .initializeRequest,
      match buildInitializeResult env.compat2025 (paramsOf root) with
      | .error e => sendErrorDetail e id
      | .ok payload => sendResult payload id)
  else
    let method := (methodOf root).getD []
    if (context.era = .y2024 ∨ context.era = .y2025) ∧
        method = cstr "notifications/initialized" then (some .initialized, .sendNone)
    else if method = cstr "ping" then
      (some .ping, answer (some (.object [])) id notification)
    else if context.era = .y2026 ∧ method = cstr "server/discover" then
      (some .discover, answer env.discovery id notification)
    else if method = cstr "tools/list" then
      (some .toolsList, answer (env.toolsList context) id notification)
    else if method = cstr "tools/call" then
      (some .toolsCall, env.toolsCall root id notification context)
    else (none, sendError (-32601) "Method not found" id
      (if context.era = .y2026 then some "404 Not Found" else none))

/-- What `mcp_core_handle_json` asks of an object before it looks at the protocol. -/
def ValidEnvelope (root : Json) : Prop :=
  root.isObject = true ∧ stringMember root "jsonrpc" = some (cstr "2.0") ∧
    (methodOf root).getD [] ≠ [] ∧ (idOf root).all (fun id => !id.isNull) = true

instance (root : Json) : Decidable (ValidEnvelope root) := inferInstanceAs (Decidable (_ ∧ _))

/-- `mcp_core_handle_json` on what `cJSON_ParseWithLength` made of the text. -/
def handleJson (env : Env) (wire : WireContext) : Option Json → Option Method × Action
  | none => (none, sendError (-32700) "Parse error" none)
  | some root =>
      if ¬ root.isObject then (none, sendError (-32600) "Invalid Request" none)
      else if ¬ ValidEnvelope root then (none, sendError (-32600) "Invalid Request" (idOf root))
      else
        match protocolDetect env.compat2025 env.decodeName root wire with
        | .error e => (none, sendErrorDetail e (idOf root))
        | .ok context =>
            match validateRequest env.compat2025 root context with
            | some e => (none, sendErrorDetail e (idOf root))
            | none => routeRequest env root (idOf root) (idOf root).isNone context

variable {root : Json} {env : Env}

theorem handleJson_invalid (env : Env) (wire : WireContext) (h : ¬ ValidEnvelope root) :
    ∃ id e, handleJson env wire (some root) = (none, .send (.error id e)) := by
  simp only [handleJson]
  split
  · exact ⟨_, _, rfl⟩
  · exact ⟨_, _, rfl⟩

/-- A valid object is routed, or refused with the error of its protocol version. -/
theorem handleJson_valid (env : Env) (wire : WireContext) (h : ValidEnvelope root) :
    handleJson env wire (some root) =
      match protocolDetect env.compat2025 env.decodeName root wire with
      | .error e => (none, sendErrorDetail e (idOf root))
      | .ok context =>
          match validateRequest env.compat2025 root context with
          | some e => (none, sendErrorDetail e (idOf root))
          | none => routeRequest env root (idOf root) (idOf root).isNone context := by
  simp only [handleJson]
  rw [if_neg (not_not_intro h.1), if_neg (not_not_intro h)]

/-! ## The handshake -/

/-- An `initialize` that is answered with a result. -/
def InitializeRequest (env : Env) (root : Json) : Prop :=
  ValidEnvelope root ∧ env.compat2025 = true ∧ InitializeParams (paramsOf root)

instance (env : Env) (root : Json) : Decidable (InitializeRequest env root) :=
  inferInstanceAs (Decidable (_ ∧ _ ∧ _))

theorem validateRequest_legacy (compat2025 : Bool) (root : Json) {context : RequestContext}
    (h : context.era ≠ .y2026) : validateRequest compat2025 root context = none := if_pos h

/-- **A valid `initialize` is answered with a result,** which announces the version selected for
the one it proposes. -/
theorem handleJson_initialize (wire : WireContext)
    (hmethod : methodOf root = some (cstr "initialize")) (h : InitializeRequest env root) :
    ∃ payload, buildInitializeResult true (paramsOf root) = .ok payload ∧
      handleJson env wire (some root) =
        (some .initializeRequest, sendResult payload (idOf root)) := by
  obtain ⟨hvalid, hcompat, hparams⟩ := h
  obtain ⟨payload, hpayload⟩ := (buildInitializeResult_ok_iff _).mpr hparams
  refine ⟨payload, hpayload, ?_⟩
  rw [handleJson_valid env wire hvalid]
  simp only [protocolDetect, hmethod, hcompat, if_true]
  rw [validateRequest_legacy _ _ (by simp only; split <;> simp)]
  simp only [routeRequest, hcompat, if_true, hpayload]

/-- **Any other `initialize` is answered with an error.** -/
theorem handleJson_initialize_error (wire : WireContext)
    (hmethod : methodOf root = some (cstr "initialize")) (h : ¬ InitializeRequest env root) :
    ∃ id e, (handleJson env wire (some root)).2 = .send (.error id e) := by
  by_cases hvalid : ValidEnvelope root
  · rw [handleJson_valid env wire hvalid]
    simp only [protocolDetect, hmethod, if_true]
    cases hcompat : env.compat2025 with
    | false => exact ⟨_, _, rfl⟩
    | true =>
        simp only [if_true]
        rw [validateRequest_legacy _ _ (by simp only; split <;> simp)]
        simp only [routeRequest, hcompat, if_true]
        cases hbuild : buildInitializeResult true (paramsOf root) with
        | error e => exact ⟨_, _, rfl⟩
        | ok payload =>
            have hparams := (buildInitializeResult_ok_iff _).mp ⟨payload, hbuild⟩
            exact absurd ⟨hvalid, hcompat, hparams⟩ h
  · obtain ⟨id, e, he⟩ := handleJson_invalid env wire hvalid
    exact ⟨id, e, by rw [he]⟩

/-- A message of the handshake or a `ping`. -/
def HandshakeMethod (root : Json) : Prop :=
  methodOf root = some (cstr "initialize") ∨
    methodOf root = some (cstr "notifications/initialized") ∨ methodOf root = some (cstr "ping")

instance (root : Json) : Decidable (HandshakeMethod root) :=
  inferInstanceAs (Decidable (_ ∨ _))

/-- The methods that such messages execute. -/
def Method.Handshake (m : Method) : Prop := m = .initializeRequest ∨ m = .initialized ∨ m = .ping

theorem routeRequest_handshake (h : HandshakeMethod root) {id : Option Json} {notification : Bool}
    {context : RequestContext} {m : Method}
    (hm : (routeRequest env root id notification context).1 = some m) : m.Handshake := by
  obtain ⟨s, hs, hthree⟩ : ∃ s, methodOf root = some s ∧ (s = cstr "initialize" ∨
      s = cstr "notifications/initialized" ∨ s = cstr "ping") := by
    rcases h with h | h | h
    · exact ⟨_, h, .inl rfl⟩
    · exact ⟨_, h, .inr (.inl rfl)⟩
    · exact ⟨_, h, .inr (.inr rfl)⟩
  have hother : s ≠ cstr "server/discover" ∧ s ≠ cstr "tools/list" ∧ s ≠ cstr "tools/call" := by
    rcases hthree with rfl | rfl | rfl <;> decide
  unfold routeRequest at hm
  split at hm
  · exact .inl (Option.some.inj hm).symm
  · simp only [hs, Option.getD_some] at hm
    split at hm
    · exact .inr (.inl (Option.some.inj hm).symm)
    · split at hm
      · exact .inr (.inr (Option.some.inj hm).symm)
      · -- no other method has one of these names
        rw [if_neg fun hd => hother.1 hd.2, if_neg hother.2.1, if_neg hother.2.2] at hm
        cases hm

/-- **A message of the handshake executes a method of the handshake,** if any. -/
theorem handleJson_handshake {wire : WireContext} (h : HandshakeMethod root) {m : Method}
    (hm : (handleJson env wire (some root)).1 = some m) :
    m.Handshake := by
  by_cases hvalid : ValidEnvelope root
  · rw [handleJson_valid env wire hvalid] at hm
    split at hm
    · cases hm
    · split at hm
      · cases hm
      · exact routeRequest_handshake h hm
  · obtain ⟨id, e, he⟩ := handleJson_invalid env wire hvalid
    rw [he] at hm
    cases hm

/-- A session's later messages carry the version header that the bridge writes. -/
def wire2024 : WireContext := { protocolVersion := some MCP_PROTOCOL_VERSION_2024 }

theorem protocolDetect_wire2024 (decodeName : CString → Option CString)
    (hmethod : methodOf root ≠ some (cstr "initialize")) :
    protocolDetect true decodeName root wire2024 = .ok
      { era := .y2024
        notification := (idOf root).isNone
        protocolVersion := some MCP_PROTOCOL_VERSION_2024 } := by
  have hheader : headerEra true MCP_PROTOCOL_VERSION_2024 = .ok .y2024 := by
    have hne : MCP_PROTOCOL_VERSION_2024 ≠ MCP_PROTOCOL_VERSION_2026 := by decide
    rw [headerEra, if_neg hne, if_pos rfl, if_pos rfl]
  simp only [protocolDetect, if_neg hmethod, wire2024, hheader, Option.map_none]
  rfl

end BleGateway.Mcp
