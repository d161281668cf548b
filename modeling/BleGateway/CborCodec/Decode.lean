import BleGateway.CborCodec.Encode

set_option autoImplicit false

/-! # The decoder

`cbor_codec_decode`. Every field is looked up by its label, so that the order of the entries plays
no part. A label that is missing leaves an optional field out, every other error refuses the
message.
-/

namespace BleGateway.CborCodec

open Settings (GW_PROTOCOL_VERSION GW_SETTINGS_CBOR_MAX_ID_LEN)
open Cbor (Item Entries)

/-! ## Looking up an entry -/

/-- `QCBORError`, as far as the decoder tells errors apart. -/
inductive QcborError
  | labelNotFound
  | other
  deriving DecidableEq

/-- The entry with a label; a label that is there twice is an error. -/
def itemInMap (m : Entries) (key : Int) : Except QcborError Item :=
  match m.filter (·.1 = key) with
  | [] => .error .labelNotFound
  | [e] => .ok e.2
  | _ => .error .other

/-- `QCBORDecode_GetUInt64InMapN`. -/
def getUInt64InMapN (m : Entries) (key : Int) : Except QcborError Nat :=
  match itemInMap m key with
  | .ok (.int v) => if 0 ≤ v ∧ v ≤ UINT64_MAX then .ok v.toNat else .error .other
  | .ok _ => .error .other
  | .error e => .error e

/-- `QCBORDecode_GetInt64InMapN`. -/
def getInt64InMapN (m : Entries) (key : Int) : Except QcborError Int :=
  match itemInMap m key with
  | .ok (.int v) => if INT64_MIN ≤ v ∧ v ≤ INT64_MAX then .ok v else .error .other
  | .ok _ => .error .other
  | .error e => .error e

/-- `QCBORDecode_GetBoolInMapN`. -/
def getBoolInMapN (m : Entries) (key : Int) : Except QcborError Bool :=
  match itemInMap m key with
  | .ok (.bool b) => .ok b
  | .ok _ => .error .other
  | .error e => .error e

/-- `QCBORDecode_GetTextStringInMapN`. -/
def getTextStringInMapN (m : Entries) (key : Int) : Except QcborError (List UInt8) :=
  match itemInMap m key with
  | .ok (.text b) => .ok b
  | .ok _ => .error .other
  | .error e => .error e

/-- `QCBORDecode_GetByteStringInMapN`. -/
def getByteStringInMapN (m : Entries) (key : Int) : Except QcborError (List UInt8) :=
  match itemInMap m key with
  | .ok (.bytes b) => .ok b
  | .ok _ => .error .other
  | .error e => .error e

/-! ## Fields -/

/-- A field that has to be there; `f` checks its value. -/
def required {α β : Type} (r : Except QcborError α) (f : α → Option β) : Option β :=
  match r with
  | .ok v => f v
  | .error _ => none

/-- A field that may be missing. -/
def optional {α β : Type} (r : Except QcborError α) (f : α → Option β) : Option (Option β) :=
  match r with
  | .ok v => (f v).map some
  | .error .labelNotFound => some none
  | .error .other => none

/-- `copy_text`: the text goes into an array of `capacity` bytes. -/
def copyText (capacity : Nat) (allowEmpty : Bool) (value : List UInt8) : Option Text :=
  if value.length ≥ capacity || (!allowEmpty && value.length == 0) then none
  else some (.ofBytes value)

/-- An unsigned value between two bounds, in its own type. -/
def checkUInt {α : Type} (minimum maximum : Nat) (ofNat : Nat → α) (v : Nat) : Option α :=
  if v < minimum ∨ maximum < v then none else some (ofNat v)

/-- A value of 32 bits. -/
def checkInt (v : Int) : Option Int32 :=
  if v < INT32_MIN ∨ INT32_MAX < v then none else some (Int32.ofInt v)

def optionalText (m : Entries) (key : Int) (capacity : Nat) (allowEmpty : Bool) :
    Option (Option Text) :=
  optional (getTextStringInMapN m key) (copyText capacity allowEmpty)

def optionalUInt {α : Type} (m : Entries) (key : Int) (minimum maximum : Nat) (ofNat : Nat → α) :
    Option (Option α) :=
  optional (getUInt64InMapN m key) (checkUInt minimum maximum ofNat)

def optionalUInt8 (m : Entries) (key : Int) : Option (Option UInt8) :=
  optionalUInt m key 0 UINT8_MAX UInt8.ofNat

def optionalUInt16 (m : Entries) (key : Int) : Option (Option UInt16) :=
  optionalUInt m key 0 UINT16_MAX UInt16.ofNat

def optionalUInt32 (m : Entries) (key : Int) (minimum : Nat) : Option (Option UInt32) :=
  optionalUInt m key minimum UINT32_MAX UInt32.ofNat

def optionalInt32 (m : Entries) (key : Int) : Option (Option Int32) :=
  optional (getInt64InMapN m key) checkInt

def optionalBool (m : Entries) (key : Int) : Option (Option Bool) :=
  optional (getBoolInMapN m key) some

/-- The address and its type, which has to be there behind an address. -/
def decodeBleAddr (m : Entries) : Option (Option BleAddr) :=
  optional (getByteStringInMapN m CBOR_KEY_BLE_ADDR) fun address =>
    if address.length ≠ 6 then none
    else
      required (getUInt64InMapN m CBOR_KEY_BLE_ADDR_TYPE) fun type =>
        (checkUInt 0 UINT8_MAX UInt8.ofNat type).map fun type =>
          { address := fun i => address.getD i 0
            type := type }

/-- The value of a setting, read by the type in front of it. -/
def decodeSettingValue (m : Entries) : Option UInt8 → Option (Option SettingValue)
  | none => some none
  | some type =>
      if type = GW_SETTING_TYPE_BOOL then
        optional (getBoolInMapN m GW_KEY_SETTINGS_VALUE) fun v => some { bool := v }
      else if type = GW_SETTING_TYPE_INT then
        optional (getInt64InMapN m GW_KEY_SETTINGS_VALUE) fun v =>
          (checkInt v).map fun v => { int := v }
      else if type = GW_SETTING_TYPE_STRING then
        optional (getTextStringInMapN m GW_KEY_SETTINGS_VALUE) fun v =>
          (copyText GW_SETTINGS_VALUE_MAX_LEN true v).map fun v => { string := v }
      else if type = GW_SETTING_TYPE_ENUM then
        optional (getUInt64InMapN m GW_KEY_SETTINGS_VALUE) fun v =>
          (checkUInt 0 UINT8_MAX UInt8.ofNat v).map fun v => { enum := v }
      else some none

/-! ## Decoding -/

/-- The fields up to key 21. -/
def decodeBase (m : Entries) : Option GwMessage := do
  let protocolVersion ← required (getUInt64InMapN m CBOR_KEY_PROTOCOL_VERSION) fun v =>
    if v = GW_PROTOCOL_VERSION.toNat then some (UInt8.ofNat v) else none
  let type ← required (getTextStringInMapN m CBOR_KEY_TYPE) (copyText GW_MSG_TYPE_LEN false)
  let command ← required (getTextStringInMapN m CBOR_KEY_COMMAND)
    (copyText DEVICE_COMMAND_MAX_LEN false)
  let intValue ← required (getInt64InMapN m CBOR_KEY_INT_VALUE) checkInt
  let boolValue ← required (getBoolInMapN m CBOR_KEY_BOOL_VALUE) some
  let requestId ← optionalUInt32 m CBOR_KEY_REQUEST_ID 1
  let deviceId ← optionalText m CBOR_KEY_DEVICE_ID DEVICE_ID_MAX_LEN false
  let name ← optionalText m CBOR_KEY_NAME DEVICE_NAME_MAX_LEN true
  let bleAddr ← decodeBleAddr m
  let snapshotId ← optionalUInt32 m CBOR_KEY_SNAPSHOT_ID 1
  let sequence ← optionalUInt16 m CBOR_KEY_SEQUENCE
  let total ← optionalUInt16 m CBOR_KEY_TOTAL
  let valueType ← optionalUInt8 m CBOR_KEY_VALUE_TYPE
  let capabilityFlags ← optionalUInt8 m CBOR_KEY_CAPABILITY_FLAGS
  let minValue ← optionalInt32 m CBOR_KEY_MIN_VALUE
  let maxValue ← optionalInt32 m CBOR_KEY_MAX_VALUE
  let step ← optionalUInt32 m CBOR_KEY_STEP 0
  let label ← optionalText m CBOR_KEY_CAPABILITY_LABEL GW_MSG_CAP_LABEL_LEN true
  let unit ← optionalText m CBOR_KEY_CAPABILITY_UNIT GW_MSG_CAP_UNIT_LEN true
  let capabilityRevision ← optionalUInt32 m CBOR_KEY_CAPABILITY_REVISION 0
  return {
    protocolVersion, type, command, intValue, requestId, deviceId, bleAddr, snapshotId, sequence
    total, valueType, capabilityFlags, minValue, maxValue, step, capabilityRevision
    boolValue := if boolValue then 1 else 0
    hasIntValue := true
    hasBoolValue := true
    name := name.getD .empty
    capabilityLabel := label.getD .empty
    capabilityUnit := unit.getD .empty }

/-- The fields of a feature. -/
def decodeFeature (m : Entries) (msg : GwMessage) : Option GwMessage := do
  let featureId ← optionalText m CBOR_KEY_FEATURE_ID DEVICE_FEATURE_ID_MAX_LEN false
  let featureType ← optionalUInt8 m CBOR_KEY_FEATURE_TYPE
  let featureSchemaVersion ← optionalUInt16 m CBOR_KEY_FEATURE_SCHEMA_VERSION
  let featureFlags ← optionalUInt16 m CBOR_KEY_FEATURE_FLAGS
  let propertyId ← optionalUInt8 m CBOR_KEY_PROPERTY_ID
  let featureValueBool ← optionalBool m CBOR_KEY_FEATURE_VALUE_BOOL
  let featureValueInt ← optionalInt32 m CBOR_KEY_FEATURE_VALUE_INT
  let featureTool ← optionalText m CBOR_KEY_FEATURE_TOOL DEVICE_COMMAND_MAX_LEN true
  let featureTotal ← optionalUInt16 m CBOR_KEY_FEATURE_TOTAL
  let featureDecimals ← optionalUInt8 m CBOR_KEY_FEATURE_DECIMALS
  return { msg with
    featureType, featureSchemaVersion, featureFlags, propertyId, featureValueBool, featureValueInt
    featureTotal, featureDecimals
    featureId := featureId.getD .empty
    hasFeatureId := featureId.isSome
    featureTool := featureTool.getD .empty
    hasFeatureTool := featureTool.isSome }

/-- The fields of a setting. A title, unit or group goes over the text that the fields above have
left there. -/
def decodeSettings (m : Entries) (msg : GwMessage) : Option GwMessage := do
  let settingsSupported ← optionalUInt m GW_KEY_SETTINGS_SUPPORTED 0 1 (· != 0)
  let settingsSchemaRevision ← optionalUInt16 m GW_KEY_SETTINGS_SCHEMA_REVISION
  let settingId ← optionalText m GW_KEY_SETTINGS_ID GW_SETTINGS_CBOR_MAX_ID_LEN false
  let title ← optionalText m GW_KEY_SETTINGS_TITLE GW_MSG_CAP_LABEL_LEN true
  let group ← optionalText m GW_KEY_SETTINGS_GROUP DEVICE_FEATURE_ID_MAX_LEN true
  let unit ← optionalText m GW_KEY_SETTINGS_UNIT GW_MSG_CAP_UNIT_LEN true
  let type ← optionalUInt m GW_KEY_SETTINGS_TYPE 0 GW_SETTING_TYPE_ENUM.toNat UInt8.ofNat
  let settingFlags ← optionalUInt16 m GW_KEY_SETTINGS_FLAGS
  let value ← decodeSettingValue m type
  let settingsTransactionId ←
    optionalUInt m GW_KEY_SETTINGS_TRANSACTION_ID 0 UINT64_MAX UInt64.ofNat
  let settingsExpectedRevision ← optionalUInt32 m GW_KEY_SETTINGS_EXPECTED_REVISION 0
  let settingsNewRevision ← optionalUInt32 m GW_KEY_SETTINGS_NEW_REVISION 0
  let settingsOptionIndex ← optionalUInt8 m GW_KEY_SETTINGS_OPTION_INDEX
  let settingsMaxLength ← optionalUInt16 m GW_KEY_SETTINGS_MAX_LENGTH
  let settingsOptionCount ← optionalUInt16 m GW_KEY_SETTINGS_OPTION_COUNT
  let settingsSequence ← optionalUInt16 m GW_KEY_SETTINGS_SEQUENCE
  return { msg with
    settingsSupported, settingsSchemaRevision, settingId, settingFlags, settingsTransactionId
    settingsExpectedRevision, settingsNewRevision, settingsOptionIndex, settingsMaxLength
    settingsOptionCount, settingsSequence
    capabilityLabel := title.getD msg.capabilityLabel
    featureId := group.getD msg.featureId
    hasSettingGroup := group.isSome
    capabilityUnit := unit.getD msg.capabilityUnit
    settingType := type.getD 0
    hasSettingType := type.isSome
    settingValue := value.getD {}
    hasSettingValue := value.isSome }

/-- The message in a map. -/
def decodeMap (m : Entries) : Option GwMessage := do
  let msg ← decodeBase m
  let msg ← decodeFeature m msg
  decodeSettings m msg

/-- `cbor_codec_decode`: the message, or `none` for `-1`. -/
def cborCodecDecode (q : Qcbor) (buf : List UInt8) : Option GwMessage :=
  if buf.length = 0 ∨ buf.length > GW_MSG_MAX_LEN then none
  else (q.decode buf).bind decodeMap

end BleGateway.CborCodec
