import BleGateway.Settings.Transaction
import BleGateway.CborCodec.Json
import BleGateway.Mcp.Auth
import BleGateway.Lib.JsonTree

set_option autoImplicit false

/-! # `PUT /api/devices/settings`

`settings_put_handler` of `web_device_settings_api.c`: it reads the changes out of the JSON body,
typed by the descriptors of the device's schema, and hands them to `device_settings_save`. The
schema is acquired anew for each entry of the body, so it is given by the place of the entry; the
tables that `device_settings_save` finds are those of a later moment still.
-/

namespace BleGateway.WebServer

open Settings

/-! ## JSON values as the handlers see them -/

/-- `valuestring` of a string: its bytes in front of the first NUL. -/
def valuestring (j : Json) : Option CString := j.stringValue.map fun s => s.takeWhile (· ≠ 0)

/-- `cJSON_GetObjectItem`, which does not distinguish cases. -/
def getObjectItem (j : Json) (key : String) : Option Json :=
  j.member fun k => Mcp.strcasecmpEq k (cstr key)

theorem zero_not_mem_takeWhile (s : CString) : (0 : UInt8) ∉ s.takeWhile (· ≠ 0) := by
  intro h
  have hne := List.mem_takeWhile_imp h
  exact absurd hne (by simp)

/-- `web_get_json_string` for a required member: a text of less than `size` bytes, not empty. -/
def webGetJsonString (j : Json) (key : String) (size : Nat) : Option (Text size) :=
  match j.get (cstr key) with
  | some (.string s) =>
      if h : s.takeWhile (· ≠ 0) ≠ [] ∧ (s.takeWhile (· ≠ 0)).length < size then
        some ⟨⟨s.takeWhile (· ≠ 0), h.2⟩, zero_not_mem_takeWhile s⟩
      else none
  | _ => none

/-! ## Answers -/

/-- An error answer: the status line's code and the two texts of the body. -/
structure ApiError where
  status : Nat
  message : String
  code : Option String
  deriving DecidableEq

/-- `web_body_status_t` of a body that cannot be used. -/
inductive BodyStatus
  | empty | invalidJson | tooLarge | timeout | ioError
  deriving DecidableEq

/-- `web_send_body_error`. -/
def bodyError : BodyStatus → ApiError
  | .empty => ⟨400, "Empty request body", some "invalid_request"⟩
  | .invalidJson => ⟨400, "Invalid JSON body", some "invalid_request"⟩
  | .tooLarge => ⟨413, "Request body exceeds the endpoint limit", some "payload_too_large"⟩
  | .timeout => ⟨408, "Request body did not arrive in time", some "request_timeout"⟩
  | .ioError => ⟨400, "Could not read the request body", some "internal_error"⟩

def missingDeviceId : ApiError := ⟨400, "Missing device_id", some "invalid_request"⟩
def deviceNotFound : ApiError := ⟨404, "Device not found", some "device_not_found"⟩
def settingsNotReady : ApiError := ⟨503, "Settings not ready", some "settings_not_ready"⟩
def missingRevision : ApiError := ⟨400, "Missing expected_revision", some "invalid_request"⟩
def missingChanges : ApiError := ⟨400, "Missing changes array", some "invalid_request"⟩
def invalidCount : ApiError := ⟨400, "Invalid changes count", some "invalid_request"⟩
def unsupportedAction : ApiError := ⟨400, "Unsupported secret_action", some "invalid_secret_action"⟩
def schemaUnavailable : ApiError := ⟨503, "Schema unavailable", some "schema_unavailable"⟩
def unknownSetting : ApiError := ⟨400, "Unknown setting id", some "invalid_setting"⟩
def noChanges : ApiError := ⟨400, "No valid changes", some "no_changes"⟩
def activeTransaction : ApiError :=
  ⟨409, "Active transaction in progress", some "active_transaction"⟩
def validationFailed : ApiError := ⟨422, "Validation failed", some "validation_failed"⟩
def saveFailed : ApiError := ⟨500, "Save failed", some "internal_error"⟩
def outOfMemory : ApiError := ⟨500, "Out of memory", none⟩

/-! ## The gateway -/

/-- What the handler finds: the device and its schema state at the start, the schema at each entry
of the changes, and the tables and resources of `device_settings_save`. The last two fields are
the compiler's: the bits of a `float`, and what a number outside `uint32_t` is converted to. -/
structure Env where
  deviceKnown : DeviceId → Bool
  schemaReady : DeviceId → Bool
  schemaAt : Nat → Option Schema
  protocol : Protocol
  txns : TxTable
  txAlloc : Bool := true
  posted : Bool := true
  replyAlloc : Bool := true
  floatBits : ℚ → UInt32
  toUint32 : ℚ → UInt32

/-- `(uint32_t)valuedouble`, defined by the language for numbers whose integral part fits. -/
def expectedRevision (env : Env) (v : ℚ) : UInt32 :=
  if 0 ≤ CborCodec.truncate v ∧ CborCodec.truncate v < 2 ^ 32 then
    UInt32.ofNat (CborCodec.truncate v).toNat
  else env.toUint32 v

/-! ## One entry of the changes -/

/-- The union of a zeroed change, when `front` is written into it. -/
def unionOf (front : List UInt8) : Vector UInt8 DS_CHANGE_UNION_SIZE :=
  Vector.ofFn fun i => front[i.val]?.getD 0

/-- What is written for a value: a value of another JSON type counts as `false`, `0` or the empty
text, a number is brought into the range of `int`, and a text is cut. -/
def valueBytes (env : Env) (type : UInt8) (val : Option Json) : List UInt8 :=
  if type = DS_TYPE_BOOL then
    match val with
    | some (.bool true) => [1]
    | _ => [0]
  else if type = DS_TYPE_INT ∨ type = DS_TYPE_ENUM then
    match val with
    | some (.number v) => littleEndian (Int32.ofInt (CborCodec.valueint v)).toUInt32
    | _ => littleEndian 0
  else if type = DS_TYPE_FLOAT then
    match val with
    | some (.number v) => littleEndian (env.floatBits v)
    | _ => littleEndian 0
  else if type = DS_TYPE_STRING then
    match val.bind valuestring with
    | some s => (strlcpy DS_CHANGE_UNION_SIZE s).text
    | none => []
  else []

def changeOf (env : Env) (id : Text GW_SETTINGS_CBOR_MAX_ID_LEN) (type : UInt8)
    (val : Option Json) : ChangeRequest := ⟨id, type, unionOf (valueBytes env type val)⟩

/-- The id of an entry. -/
def settingId (e : Json) : Option (Text GW_SETTINGS_CBOR_MAX_ID_LEN) :=
  webGetJsonString e "id" GW_SETTINGS_CBOR_MAX_ID_LEN

/-- The secret action of an entry. -/
def secretAction (e : Json) : Option CString := (getObjectItem e "secret_action").bind valuestring

/-- The descriptor of the setting `id`. -/
def describes (schema : Schema) (id : CString) : Option SettingDesc :=
  schema.descriptors.find? fun d => schema.idOf d = id

/-- One entry: its change, or nothing when it is skipped. -/
def readEntry (env : Env) (schema : Option Schema) (e : Json) :
    Except ApiError (Option ChangeRequest) :=
  match settingId e with
  | none => .ok none
  | some id =>
      match secretAction e with
      | some action => if action = cstr "keep" then .ok none else .error unsupportedAction
      | none =>
          match schema with
          | none => .error schemaUnavailable
          | some schema =>
              match describes schema id.text with
              | none => .error unknownSetting
              | some d => .ok (some (changeOf env id d.type (getObjectItem e "value")))

/-- The entries from the place `i` on. -/
def readEntries (env : Env) : Nat → List Json → Except ApiError (List ChangeRequest)
  | _, [] => .ok []
  | i, e :: es =>
      match readEntry env (env.schemaAt i) e with
      | .error x => .error x
      | .ok c => (readEntries env (i + 1) es).map (c.toList ++ ·)

/-! ## The handler -/

/-- The arguments of `device_settings_save`. -/
structure SaveCall where
  deviceId : DeviceId
  changes : List ChangeRequest
  expectedRevision : UInt32
  deriving DecidableEq

/-- The changes of a request. -/
def readChanges (env : Env) (json : Json) : Except ApiError (List ChangeRequest) :=
  match getObjectItem json "changes" with
  | some (.array entries) =>
      if entries = [] ∨ entries.length > DS_TX_MAX_CHANGES then .error invalidCount
      else
        match readEntries env 0 entries with
        | .error x => .error x
        | .ok [] => .error noChanges
        | .ok changes => .ok changes
  | _ => .error missingChanges

/-- The handler up to its call of `device_settings_save`. -/
def readRequest (env : Env) (body : Except BodyStatus Json) : Except ApiError SaveCall :=
  match body with
  | .error status => .error (bodyError status)
  | .ok json =>
      if !json.isObject then .error (bodyError .invalidJson)
      else
        match webGetJsonString json "device_id" DEVICE_ID_MAX_LEN with
        | none => .error missingDeviceId
        | some id =>
            if !env.deviceKnown id.toCharBuf then .error deviceNotFound
            else if !env.schemaReady id.toCharBuf then .error settingsNotReady
            else
              match getObjectItem json "expected_revision" with
              | some (.number v) =>
                  (readChanges env json).map fun changes =>
                    ⟨id.toCharBuf, changes, expectedRevision env v⟩
              | _ => .error missingRevision

/-- The answer, and the call of `device_settings_save` with what came of it. -/
structure Outcome where
  answer : Except ApiError UInt64
  saved : Option (SaveCall × SaveResult) := none

/-- `202` with the id of the operation, or the status of the error. -/
def Outcome.status (o : Outcome) : Nat :=
  match o.answer with
  | .ok _ => 202
  | .error x => x.status

/-- The answer to what `device_settings_save` returns. -/
def saveAnswer (env : Env) (r : SaveResult) : Except ApiError UInt64 :=
  match r.err with
  | .invalidState => .error activeTransaction
  | .invalidArg => .error validationFailed
  | .ok => if env.replyAlloc then .ok (r.transactionId.getD 0) else .error outOfMemory
  | _ => .error saveFailed

/-- `settings_put_handler`. -/
def settingsPut (env : Env) (body : Except BodyStatus Json) : Outcome :=
  match readRequest env body with
  | .error x => { answer := .error x }
  | .ok call =>
      let r := env.txns.save env.protocol call.deviceId call.changes call.expectedRevision 0 0
        env.txAlloc env.posted
      { answer := saveAnswer env r, saved := some (call, r) }

end BleGateway.WebServer
