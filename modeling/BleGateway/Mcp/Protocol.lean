import BleGateway.Types
import BleGateway.Lib.JsonTree

set_option autoImplicit false

/-! # MCP protocol versions

The part of `mcp_codec.c` that decides which version of the protocol a request belongs to,
checks what that version asks for, and answers `initialize`.
-/

namespace BleGateway.Mcp

/-! ## Versions and errors -/

def MCP_PROTOCOL_VERSION_2024 : CString := cstr "2024-11-05"
def MCP_PROTOCOL_VERSION_2025_06 : CString := cstr "2025-06-18"
def MCP_PROTOCOL_VERSION_2025 : CString := cstr "2025-11-25"
def MCP_PROTOCOL_VERSION_2026 : CString := cstr "2026-07-28"
def MCP_META_KEY_PROTOCOL_VERSION : CString := cstr "io.modelcontextprotocol/protocolVersion"
def MCP_META_KEY_CLIENT_CAPS : CString := cstr "io.modelcontextprotocol/clientCapabilities"

def MCP_ERR_HEADER : Int := -32020
def MCP_ERR_UNSUPPORTED_VERSION : Int := -32022

/-- `mcp_protocol_era_t`. -/
inductive Era
  | y2024 | y2025 | y2026
  deriving DecidableEq

/-- `mcp_rpc_error_detail_t`. -/
structure RpcError where
  code : Int
  message : String
  httpStatus : Option String := none
  data : Option Json := none

/-- `mcp_wire_context_t` without the transport's own fields. -/
structure WireContext where
  protocolVersion : Option CString := none
  methodMetadata : Option CString := none
  nameMetadata : Option CString := none
  deriving DecidableEq

/-- `mcp_request_context_t`. -/
structure RequestContext where
  era : Era
  initializeRequest : Bool := false
  notification : Bool
  protocolVersion : Option CString := none
  mcpMethod : Option CString := none
  mcpName : Option CString := none
  deriving DecidableEq

def badRequest (code : Int) (message : String) : RpcError :=
  { code := code, message := message, httpStatus := some "400 Bad Request" }

/-- `mcp_protocol_build_unsupported_version_data`. -/
def unsupportedVersionData (compat2025 : Bool) (requested : CString) : Json :=
  .object
    [(cstr "supported", .array (([MCP_PROTOCOL_VERSION_2026] ++
        if compat2025 then
          [MCP_PROTOCOL_VERSION_2024, MCP_PROTOCOL_VERSION_2025, MCP_PROTOCOL_VERSION_2025_06]
        else []).map .string)),
      (cstr "requested", .string requested)]

def unsupportedVersion (compat2025 : Bool) (requested : CString) : RpcError where
  code := MCP_ERR_UNSUPPORTED_VERSION
  message := "Unsupported protocol version"
  httpStatus := some "400 Bad Request"
  data := some (unsupportedVersionData compat2025 requested)

/-! ## Reading a message -/

/-- `cJSON_GetStringValue` of a member. -/
def stringMember (j : Json) (key : String) : Option CString :=
  (j.get (cstr key)).bind Json.stringValue

def methodOf (root : Json) : Option CString := stringMember root "method"

def idOf (root : Json) : Option Json := root.get (cstr "id")

def paramsOf (root : Json) : Option Json := root.get (cstr "params")

/-- A member that is an object. -/
def objectMember (j : Json) (key : CString) : Option Json := (j.get key).filter Json.isObject

/-- `body_has_2026_markers`. -/
def bodyHas2026Markers (root : Json) : Bool :=
  match (objectMember root (cstr "params")).bind (objectMember · (cstr "_meta")) with
  | none => false
  | some info =>
      ((info.get MCP_META_KEY_PROTOCOL_VERSION).filter Json.isString).isSome ||
        (objectMember info MCP_META_KEY_CLIENT_CAPS).isSome

/-! ## Detection -/

/-- The version a request or an `initialize` proposes. -/
def proposedVersion (root : Json) : Option CString :=
  (paramsOf root).bind (stringMember · "protocolVersion")

/-- The era of an explicit version header. -/
def headerEra (compat2025 : Bool) (version : CString) : Except RpcError Era :=
  if version = MCP_PROTOCOL_VERSION_2026 then .ok .y2026
  else if version = MCP_PROTOCOL_VERSION_2024 then
    if compat2025 then .ok .y2024
    else .error (unsupportedVersion compat2025 MCP_PROTOCOL_VERSION_2024)
  else if version = MCP_PROTOCOL_VERSION_2025 ∨ version = MCP_PROTOCOL_VERSION_2025_06 then
    if compat2025 then .ok .y2025
    else .error (unsupportedVersion compat2025 MCP_PROTOCOL_VERSION_2025)
  else .error (unsupportedVersion compat2025 version)

/-- `mcp_protocol_detect`; `decodeName` is `mcp_codec_decode_name`. -/
def protocolDetect (compat2025 : Bool) (decodeName : CString → Option CString) (root : Json)
    (wire : WireContext) : Except RpcError RequestContext :=
  let context : RequestContext :=
    { era := .y2025
      notification := (idOf root).isNone
      protocolVersion := wire.protocolVersion
      mcpMethod := wire.methodMetadata
      mcpName := wire.nameMetadata.map fun name => (decodeName name).getD name }
  if methodOf root = some (cstr "initialize") then
    if compat2025 then
      .ok { context with
        era := if proposedVersion root = some MCP_PROTOCOL_VERSION_2024 then .y2024 else .y2025
        initializeRequest := true }
    else
      .error { code := -32601, message := "Method not found", httpStatus := some "404 Not Found" }
  else
    match wire.protocolVersion with
    | some version => (headerEra compat2025 version).map fun era => { context with era := era }
    | none =>
        if bodyHas2026Markers root || wire.methodMetadata.isSome || wire.nameMetadata.isSome then
          .error (badRequest MCP_ERR_HEADER "Missing MCP-Protocol-Version header")
        else if compat2025 then .ok context
        else .error (badRequest MCP_ERR_UNSUPPORTED_VERSION "Unsupported protocol version")

/-! ## Validation -/

/-- `mcp_protocol_validate_request`; `none` is a valid request. -/
def validateRequest (compat2025 : Bool) (root : Json) (context : RequestContext) :
    Option RpcError :=
  if context.era ≠ .y2026 then none
  else
    match objectMember root (cstr "params") with
    | none => some (badRequest (-32602) "Invalid params")
    | some params =>
        match objectMember params (cstr "_meta") with
        | none => some (badRequest (-32602) "Missing required _meta")
        | some info =>
            match (info.get MCP_META_KEY_PROTOCOL_VERSION).bind Json.stringValue with
            | none => some (badRequest (-32602) "Missing _meta.protocolVersion")
            | some version =>
                if version ≠ MCP_PROTOCOL_VERSION_2026 then
                  some (unsupportedVersion compat2025 version)
                else if (objectMember info MCP_META_KEY_CLIENT_CAPS).isNone then
                  some (badRequest (-32602) "Missing _meta.clientCapabilities")
                else if (context.mcpMethod.getD []) = [] then
                  some (badRequest MCP_ERR_HEADER "Missing Mcp-Method header")
                else if methodOf root ≠ context.mcpMethod then
                  some (badRequest MCP_ERR_HEADER "Mcp-Method mismatch")
                else if methodOf root = some (cstr "tools/call") then
                  match context.mcpName with
                  | none => some (badRequest MCP_ERR_HEADER "Missing Mcp-Name header")
                  | some name =>
                      match stringMember params "name" with
                      | none => some (badRequest (-32602) "Missing params.name")
                      | some called =>
                          if name ≠ called then some (badRequest MCP_ERR_HEADER "Mcp-Name mismatch")
                          else none
                else none

/-! ## Initialize -/

/-- The version that `initialize` answers with: the proposed one if it is a legacy version that is
supported, and 2025-11-25 otherwise. -/
def selectedProtocol (requested : Option CString) : CString :=
  if requested = some MCP_PROTOCOL_VERSION_2024 then MCP_PROTOCOL_VERSION_2024
  else if requested = some MCP_PROTOCOL_VERSION_2025_06 then MCP_PROTOCOL_VERSION_2025_06
  else MCP_PROTOCOL_VERSION_2025

/-- `mcp_protocol_build_initialize_result`. -/
def buildInitializeResult (compat2025 : Bool) (params : Option Json) : Except RpcError Json :=
  if !compat2025 then .error { code := -32601, message := "Method not found" }
  else
    match params.filter Json.isObject with
    | none => .error { code := -32602, message := "Invalid params" }
    | some params =>
        match objectMember params (cstr "clientInfo") with
        | none => .error { code := -32602, message := "Missing clientInfo" }
        | some info =>
            if (stringMember info "name").isNone then
              .error { code := -32602, message := "Missing clientInfo.name" }
            else if (stringMember info "version").isNone then
              .error { code := -32602, message := "Missing clientInfo.version" }
            else
              .ok (.object
                [(cstr "protocolVersion",
                    .string (selectedProtocol (stringMember params "protocolVersion"))),
                  (cstr "capabilities",
                    .object [(cstr "tools", .object [(cstr "listChanged", .bool false)])]),
                  (cstr "serverInfo", .object
                    [(cstr "name", .string (cstr "esp32-ble-gateway")),
                      (cstr "version", .string (cstr "1.0.0"))]),
                  (cstr "instructions",
                    .string (cstr "Controls BLE devices managed by this ESP32 gateway."))])

/-- The parameters that `initialize` asks for. -/
def InitializeParams (params : Option Json) : Prop :=
  ∃ p info, params = some p ∧ p.isObject = true ∧ objectMember p (cstr "clientInfo") = some info ∧
    (stringMember info "name").isSome ∧ (stringMember info "version").isSome

/-- **`initialize` succeeds exactly with a client's name and version.** -/
theorem buildInitializeResult_ok_iff (params : Option Json) :
    (∃ result, buildInitializeResult true params = .ok result) ↔ InitializeParams params := by
  unfold buildInitializeResult InitializeParams
  simp only [Bool.not_true, Bool.false_eq_true, if_false]
  cases params with
  | none => simp
  | some p =>
      cases hp : p.isObject with
      | false => simp [Option.filter, hp]
      | true =>
          simp only [Option.filter, hp, if_true]
          cases hinfo : objectMember p (cstr "clientInfo") with
          | none => simp [hinfo]
          | some info =>
              cases hname : stringMember info "name" <;>
                cases hversion : stringMember info "version" <;> simp [hp, hinfo, hname, hversion]

/-- Whether the parameters are right can be computed. -/
instance (params : Option Json) : Decidable (InitializeParams params) :=
  decidable_of_iff ((buildInitializeResult true params).isOk = true) (by
    rw [← buildInitializeResult_ok_iff]
    cases buildInitializeResult true params <;> simp [Except.isOk, Except.toBool])

end BleGateway.Mcp
