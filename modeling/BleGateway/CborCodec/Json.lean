import BleGateway.CborCodec.Address
import BleGateway.CborCodec.Decoded
import Mathlib.Data.Rat.Cast.Order

set_option autoImplicit false

/-! # The JSON bridge

`cbor_codec_msg_to_json` and `cbor_codec_json_to_msg`. cJSON is a parameter: an object is printed to
a text and parsed back. A number is the exact value of `valuedouble`; `valueint` is this value cut
off to an `int` and kept in its range.
-/

namespace BleGateway.CborCodec

open Settings (GW_PROTOCOL_VERSION)

/-! ## cJSON -/

/-- A member of an object. -/
inductive JsonValue
  | number (valuedouble : ℚ)
  | string (valuestring : Text)
  | bool (b : Bool)
  /-- `null`, an array or an object. -/
  | other
  deriving DecidableEq

abbrev JsonObject := List (CString × JsonValue)

/-- The library that prints and parses one object. Parsing fails on a text that is not JSON or not
an object; printing takes the room that the library asks for. -/
structure CJson where
  print : JsonObject → CString
  room : JsonObject → Nat
  parse : CString → Option JsonObject

/-- The numbers that a `double` and its text hold exactly. -/
def exactBound : Int := 2 ^ 53

/-- The objects that come back as they are: the names are distinct, and the numbers are integers
that a `double` holds. -/
def Printable (o : JsonObject) : Prop :=
  (o.map Prod.fst).Nodup ∧
    ∀ e ∈ o, ∀ v, e.2 = .number v → ∃ n : Int, v = n ∧ -exactBound ≤ n ∧ n ≤ exactBound

/-- cJSON prints an object so that it comes back. -/
def CJson.Exact (c : CJson) (o : JsonObject) : Prop := Printable o → c.parse (c.print o) = some o

/-- `(int)number`, which goes towards zero. -/
def truncate (v : ℚ) : Int := v.num.tdiv v.den

/-- `valueint`. -/
def valueint (v : ℚ) : Int :=
  if (INT32_MAX : ℚ) ≤ v then INT32_MAX else if v ≤ (INT32_MIN : ℚ) then INT32_MIN else truncate v

/-! ## From a message to JSON -/

/-- The members up to `capability_revision`. -/
def baseMembers (m : GwMessage) : List (CString × Option JsonValue) :=
  [(cstr "protocol_version", some (.number (m.protocolVersion.toNat : Int))),
    (cstr "type", some (.string m.type)),
    (cstr "device_id", m.deviceId.map .string),
    (cstr "command", some (.string m.command)),
    (cstr "request_id", m.requestId.map fun v => .number (v.toNat : Int)),
    (cstr "int_value", some (.number m.intValue.toInt)),
    (cstr "bool_value", some (.bool (m.boolValue ≠ 0))),
    (cstr "name", (nonempty m.name).map .string),
    (cstr "ble_addr", m.bleAddr.map fun a =>
      .string ⟨formatBleAddr a.address, formatBleAddr_nulFree a.address⟩),
    (cstr "ble_addr_type", m.bleAddr.map fun a => .number (a.type.toNat : Int)),
    (cstr "snapshot_id", m.snapshotId.map fun v => .number (v.toNat : Int)),
    (cstr "sequence", m.sequence.map fun v => .number (v.toNat : Int)),
    (cstr "total", m.total.map fun v => .number (v.toNat : Int)),
    (cstr "value_type", m.valueType.map fun v => .number (v.toNat : Int)),
    (cstr "capability_flags", m.capabilityFlags.map fun v => .number (v.toNat : Int)),
    (cstr "min_value", m.minValue.map fun v => .number v.toInt),
    (cstr "max_value", m.maxValue.map fun v => .number v.toInt),
    (cstr "step", m.step.map fun v => .number (v.toNat : Int)),
    (cstr "capability_label", (nonempty m.capabilityLabel).map .string),
    (cstr "capability_unit", (nonempty m.capabilityUnit).map .string),
    (cstr "capability_revision", m.capabilityRevision.map fun v => .number (v.toNat : Int))]

/-- The members of a feature. -/
def featureMembers (m : GwMessage) : List (CString × Option JsonValue) :=
  [(cstr "feature_id", (flagged m.hasFeatureId m.featureId).map .string),
    (cstr "feature_type", m.featureType.map fun v => .number (v.toNat : Int)),
    (cstr "feature_schema_version", m.featureSchemaVersion.map fun v => .number (v.toNat : Int)),
    (cstr "feature_flags", m.featureFlags.map fun v => .number (v.toNat : Int)),
    (cstr "property_id", m.propertyId.map fun v => .number (v.toNat : Int)),
    (cstr "feature_value_bool", m.featureValueBool.map .bool),
    (cstr "feature_value_int", m.featureValueInt.map fun v => .number v.toInt),
    (cstr "feature_tool", (flagged m.hasFeatureTool m.featureTool).map .string),
    (cstr "feature_total", m.featureTotal.map fun v => .number (v.toNat : Int)),
    (cstr "feature_decimals", m.featureDecimals.map fun v => .number (v.toNat : Int))]

def members (m : GwMessage) : List (CString × Option JsonValue) :=
  baseMembers m ++ featureMembers m

/-- The object for a message. The fields of settings are not part of it. -/
def jsonObject (m : GwMessage) : JsonObject := Fields.present (members m)

/-- `cbor_codec_msg_to_json`: the text in the caller's buffer, or `none` for `-1`. The capacity
goes to cJSON as an `int`. -/
def msgToJson (c : CJson) (m : GwMessage) (outJsonCap : UInt32) : Option CString :=
  if outJsonCap = 0 then none
  else if outJsonCap.toInt32.toInt < c.room (jsonObject m) then none
  else some (c.print (jsonObject m))

/-! ## From JSON to a message -/

/-- `copy_json_string`: `none` is an error, and `some none` a text that may be missing and is. -/
def copyJsonString (root : JsonObject) (key : CString) (capacity : Nat) (isRequired : Bool) :
    Option (Option Text) :=
  match root.lookup key with
  | none => if isRequired then none else some none
  | some (.string t) => if validString t capacity (!isRequired) then some (some t) else none
  | some _ => none

/-- `optional_json_integer`. -/
def optionalJsonInteger (root : JsonObject) (key : CString) (minimum maximum : Int) :
    Option (Option Int) :=
  match root.lookup key with
  | none => some none
  | some (.number v) =>
      if v < minimum ∨ (maximum : ℚ) < v then none
      else if v ≠ truncate v then none
      else some (some (truncate v))
  | some _ => none

/-- A number that is taken from `valueint`, within bounds. -/
def jsonInt (root : JsonObject) (key : CString) (minimum maximum : Int) : Option (Option Int) :=
  match root.lookup key with
  | none => some none
  | some (.number v) =>
      if v < minimum ∨ (maximum : ℚ) < v ∨ v ≠ valueint v then none else some (some (valueint v))
  | some _ => none

def jsonBool (root : JsonObject) (key : CString) : Option (Option Bool) :=
  match root.lookup key with
  | none => some none
  | some (.bool b) => some (some b)
  | some _ => none

/-- The version, which may be missing. -/
def jsonVersion (root : JsonObject) : Option UInt8 :=
  match root.lookup (cstr "protocol_version") with
  | none => some GW_PROTOCOL_VERSION
  | some (.number v) =>
      if v ≠ GW_PROTOCOL_VERSION.toNat ∨ v ≠ valueint v then none
      else some (UInt8.ofInt (valueint v))
  | some _ => none

/-- The address, and its type where it is there. -/
def jsonBleAddr (root : JsonObject) : Option (Option BleAddr) :=
  match root.lookup (cstr "ble_addr") with
  | none => some none
  | some (.string t) =>
      (parseBleAddr t.bytes).bind fun address =>
        match root.lookup (cstr "ble_addr_type") with
        | none => some (some { address := address, type := 0 })
        | some (.number v) =>
            if valueint v < 0 ∨ UINT8_MAX < valueint v ∨ v ≠ valueint v then none
            else some (some { address := address, type := UInt8.ofInt (valueint v) })
        | some _ => none
  | some _ => none

/-- The members up to `capability_revision`. -/
def jsonBase (root : JsonObject) : Option GwMessage := do
  let type ← copyJsonString root (cstr "type") GW_MSG_TYPE_LEN true
  let command ← copyJsonString root (cstr "command") DEVICE_COMMAND_MAX_LEN true
  let deviceId ← copyJsonString root (cstr "device_id") DEVICE_ID_MAX_LEN false
  let name ← copyJsonString root (cstr "name") DEVICE_NAME_MAX_LEN false
  let protocolVersion ← jsonVersion root
  let requestId ← jsonInt root (cstr "request_id") 1 UINT32_MAX
  let intValue ← jsonInt root (cstr "int_value") INT32_MIN INT32_MAX
  let boolValue ← jsonBool root (cstr "bool_value")
  let snapshotId ← optionalJsonInteger root (cstr "snapshot_id") 1 UINT32_MAX
  let sequence ← optionalJsonInteger root (cstr "sequence") 0 UINT16_MAX
  let total ← optionalJsonInteger root (cstr "total") 0 UINT16_MAX
  let valueType ← optionalJsonInteger root (cstr "value_type") 0 UINT8_MAX
  let capabilityFlags ← optionalJsonInteger root (cstr "capability_flags") 0 UINT8_MAX
  let minValue ← optionalJsonInteger root (cstr "min_value") INT32_MIN INT32_MAX
  let maxValue ← optionalJsonInteger root (cstr "max_value") INT32_MIN INT32_MAX
  let step ← optionalJsonInteger root (cstr "step") 0 UINT32_MAX
  let capabilityLabel ← copyJsonString root (cstr "capability_label") GW_MSG_CAP_LABEL_LEN false
  let capabilityUnit ← copyJsonString root (cstr "capability_unit") GW_MSG_CAP_UNIT_LEN false
  let capabilityRevision ← optionalJsonInteger root (cstr "capability_revision") 0 UINT32_MAX
  return {
    protocolVersion
    type := type.getD .empty
    command := command.getD .empty
    -- an empty device id counts as a missing one
    deviceId := deviceId.bind nonempty
    name := name.getD .empty
    requestId := requestId.map UInt32.ofInt
    intValue := Int32.ofInt (intValue.getD 0)
    hasIntValue := intValue.isSome
    boolValue := if boolValue.getD false then 1 else 0
    hasBoolValue := boolValue.isSome
    snapshotId := snapshotId.map UInt32.ofInt
    sequence := sequence.map UInt16.ofInt
    total := total.map UInt16.ofInt
    valueType := valueType.map UInt8.ofInt
    capabilityFlags := capabilityFlags.map UInt8.ofInt
    minValue := minValue.map Int32.ofInt
    maxValue := maxValue.map Int32.ofInt
    step := step.map UInt32.ofInt
    capabilityLabel := capabilityLabel.getD .empty
    capabilityUnit := capabilityUnit.getD .empty
    capabilityRevision := capabilityRevision.map UInt32.ofInt }

/-- The members of a feature. The flags of the id and of the tool stay as they are. -/
def jsonFeature (root : JsonObject) (msg : GwMessage) : Option GwMessage := do
  let featureId ← copyJsonString root (cstr "feature_id") DEVICE_FEATURE_ID_MAX_LEN false
  let featureTool ← copyJsonString root (cstr "feature_tool") DEVICE_COMMAND_MAX_LEN false
  let featureType ← optionalJsonInteger root (cstr "feature_type") 0 UINT8_MAX
  let featureSchemaVersion ← optionalJsonInteger root (cstr "feature_schema_version") 0 UINT16_MAX
  let featureFlags ← optionalJsonInteger root (cstr "feature_flags") 0 UINT16_MAX
  let propertyId ← optionalJsonInteger root (cstr "property_id") 0 UINT8_MAX
  let featureValueInt ← optionalJsonInteger root (cstr "feature_value_int") INT32_MIN INT32_MAX
  let featureTotal ← optionalJsonInteger root (cstr "feature_total") 0 UINT16_MAX
  let featureDecimals ← optionalJsonInteger root (cstr "feature_decimals") 0 UINT8_MAX
  let featureValueBool ← jsonBool root (cstr "feature_value_bool")
  let bleAddr ← jsonBleAddr root
  return { msg with
    featureId := featureId.getD .empty
    featureTool := featureTool.getD .empty
    featureType := featureType.map UInt8.ofInt
    featureSchemaVersion := featureSchemaVersion.map UInt16.ofInt
    featureFlags := featureFlags.map UInt16.ofInt
    propertyId := propertyId.map UInt8.ofInt
    featureValueInt := featureValueInt.map Int32.ofInt
    featureTotal := featureTotal.map UInt16.ofInt
    featureDecimals := featureDecimals.map UInt8.ofInt
    featureValueBool, bleAddr }

/-- `cbor_codec_json_to_msg`: the message, or `none` for `-1`. -/
def jsonToMsg (c : CJson) (jsonStr : CString) : Option GwMessage := do
  let root ← c.parse jsonStr
  let msg ← jsonBase root
  jsonFeature root msg

end BleGateway.CborCodec
