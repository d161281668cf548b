import BleGateway.GatewayEvents.Bus

set_option autoImplicit false

/-! # The texts of the event stream

`json_escape_string` and `serialize_event` of `web_event_ws.c`. Both write into arrays of a
fixed size and fail when the text does not fit.
-/

namespace BleGateway.EventStream

open GatewayEvents

def WEB_WS_JSON_MAX : Nat := 512

/-! ## Numbers and escapes -/

/-- At most `k` decimal digits of `n`, the last ones. -/
def digits : Nat → Nat → CString
  | 0, _ => []
  | k + 1, n => (if n < 10 then [] else digits k (n / 10)) ++ [UInt8.ofNat (48 + n % 10)]

/-- `%u` and its 64-bit forms: no value has more than 20 digits. -/
def decimal (n : Nat) : CString := digits 20 n

/-- `%d` and its 64-bit form. -/
def signedDecimal (i : Int) : CString :=
  if i < 0 then cstr "-" ++ decimal i.natAbs else decimal i.natAbs

/-- A lower-case hexadecimal digit. -/
def hexDigit (n : Nat) : UInt8 := UInt8.ofNat (if n < 10 then 48 + n else 87 + n)

/-- What `json_escape_string` writes for the character `c`. -/
def escapeChar (c : UInt8) : CString :=
  if c = 34 ∨ c = 92 then [92, c]
  else if c < 0x20 then cstr "\\u00" ++ [hexDigit (c.toNat / 16), hexDigit (c.toNat % 16)]
  else [c]

/-- The loop of `json_escape_string`; `out` is what the array holds. An escape that does not fit
is an error; a full array ends the loop. -/
def escapeLoop (dstLen : Nat) : CString → CString → Option CString
  | [], out => some out
  | c :: src, out =>
      if out.length < dstLen - 2 then
        if (escapeChar c).length > 1 ∧ out.length + (escapeChar c).length ≥ dstLen - 1 then none
        else escapeLoop dstLen src (out ++ escapeChar c)
      else some out

/-- `json_escape_string` into an array of `dstLen` bytes. -/
def jsonEscapeString (src : CString) (dstLen : Nat) : Option CString :=
  (escapeLoop dstLen src [34]).bind fun out =>
    if out.length ≥ dstLen - 1 then none else some (out ++ [34])

/-! ## Events -/

/-- The object with these members, whose values are printed already. -/
def jsonObject (members : List (String × CString)) : CString :=
  cstr "\x7b" ++
    List.intercalate (cstr ",")
      (members.map fun m => cstr "\"" ++ cstr m.1 ++ cstr "\":" ++ m.2) ++
    cstr "\x7d"

def quoted (s : String) : CString := cstr "\"" ++ cstr s ++ cstr "\""

def bool (b : Bool) : CString := cstr (if b then "true" else "false")

def settingsTxStateName (state : UInt8) : String :=
  ["queued", "validating", "starting", "applying", "committing", "confirming",
    "waiting_reboot", "reconnecting", "verifying", "succeeded", "failed", "conflict",
    "cancelled", "outcome_unknown"].getD state.toNat "failed"

def settingsStateName (state : UInt8) : String :=
  ["unknown", "discovering", "reading", "ready", "unsupported", "error"].getD
    state.toNat "unknown"

/-- The members that follow the number of an event. -/
def eventMembers (ev : GatewayEvent) (device feature : CString) : List (String × CString) :=
  match ev.type with
  | .deviceConnection =>
      [("type", quoted "device.connection"), ("deviceId", device), ("connected", bool ev.boolValue)]
  | .deviceChanged | .deviceAdded | .deviceRenamed | .deviceRemoved =>
      [("type", quoted "device.changed"), ("deviceId", device)]
  | .deviceSchema =>
      [("type", quoted "device.schema"), ("deviceId", device),
        ("revision", decimal ev.schemaRevision.toNat)]
  | .featureState =>
      [("type", quoted "feature.state"), ("deviceId", device), ("featureId", feature),
        ("propertyId", decimal ev.propertyId.toNat)] ++
      (match ev.valueKind with
        | .bool => [("valueType", quoted "bool"), ("value", bool ev.boolValue)]
        | .int => [("valueType", quoted "int"), ("value", signedDecimal ev.intValue.toInt)]
        | .none => []) ++
      [("updatedAtMs", signedDecimal ev.updatedAtMs.toInt)]
  | .resyncRequired => [("type", quoted "resync.required")]
  | .settingsChanged =>
      [("type", quoted "settings.changed"), ("deviceId", device),
        ("configRevision", decimal ev.configRevision.toNat)]
  | .settingsState =>
      [("type", quoted "settings.state"), ("deviceId", device),
        ("state", quoted (settingsStateName ev.settingsState)),
        ("schemaRevision", decimal ev.schemaRevision.toNat),
        ("configRevision", decimal ev.configRevision.toNat)]
  | .settingsTransaction =>
      [("type", quoted "settings.transaction"), ("deviceId", device),
        ("operationId", cstr "\"" ++ decimal ev.transactionId.toNat ++ cstr "\""),
        ("state", quoted (settingsTxStateName ev.settingsTxState)),
        ("current", decimal ev.progressCurrent.toNat),
        ("total", decimal ev.progressTotal.toNat),
        ("expectedRevision", decimal ev.expectedRevision.toNat),
        ("newRevision", decimal ev.newRevision.toNat)]

/-- `serialize_event` into an array of `len` bytes. The identifiers are escaped first, whether
the event has them or not. -/
def serializeEvent (ev : GatewayEvent) (len : Nat) : Option CString :=
  (jsonEscapeString ev.deviceId.text (DEVICE_ID_MAX_LEN * 4 + 3)).bind fun device =>
  (jsonEscapeString ev.featureId.text (DEVICE_FEATURE_ID_MAX_LEN * 4 + 3)).bind fun feature =>
    let text := jsonObject (("seq", decimal ev.seq.toNat) :: eventMembers ev device feature)
    if text.length ≥ len then none else some text

/-! ## The resync message -/

/-- What `resync_reason` holds. -/
inductive ResyncReason
  | none | ringOverflow | queueWorkFailed | serializeFailed
  deriving DecidableEq

def ResyncReason.text : ResyncReason → String
  | none => ""
  | ringOverflow => "ring_overflow"
  | queueWorkFailed => "queue_work_failed"
  | serializeFailed => "serialize_failed"

/-- The `resync.required` message that a drain prints. -/
def resyncText (seq : UInt32) (reason : ResyncReason) : CString :=
  jsonObject [("seq", decimal seq.toNat), ("type", quoted "resync.required"),
    ("reason", quoted reason.text)]

example : serializeEvent { seq := 7, deviceId := strlcpy _ (cstr "a\"b") } WEB_WS_JSON_MAX =
    some (cstr "\x7b\"seq\":7,\"type\":\"device.changed\",\"deviceId\":\"a\\\"b\"\x7d") := by
  decide

end BleGateway.EventStream
