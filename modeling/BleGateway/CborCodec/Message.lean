import BleGateway.Settings.Protocol
import BleGateway.Lib.Cbor
import BleGateway.Lib.Fields

set_option autoImplicit false

/-! # The messages of the codec

`gw_message_t` and the keys of `cbor_codec.h` and `cbor_codec.c`. A value together with its flag is
an `Option`, except where the code reads the value by itself. An array of characters is the text up
to its NUL, which need not lie inside the array: the codec tests that for most texts, and not for
all. `setting_title`, `setting_unit` and `setting_group` are other names of fields for features.
-/

namespace BleGateway.CborCodec

def GW_MSG_MAX_LEN : Nat := 256
def GW_MSG_TYPE_LEN : Nat := 24

def UINT8_MAX : Nat := 2 ^ 8 - 1
def UINT16_MAX : Nat := 2 ^ 16 - 1
def UINT32_MAX : Nat := 2 ^ 32 - 1
def UINT64_MAX : Nat := 2 ^ 64 - 1
def INT32_MIN : Int := -2 ^ 31
def INT32_MAX : Int := 2 ^ 31 - 1
def INT64_MIN : Int := -2 ^ 63
def INT64_MAX : Int := 2 ^ 63 - 1

/-! ## Keys -/

def CBOR_KEY_PROTOCOL_VERSION : Int := 0
def CBOR_KEY_TYPE : Int := 1
def CBOR_KEY_DEVICE_ID : Int := 2
def CBOR_KEY_COMMAND : Int := 3
def CBOR_KEY_INT_VALUE : Int := 4
def CBOR_KEY_BOOL_VALUE : Int := 5
def CBOR_KEY_NAME : Int := 6
def CBOR_KEY_BLE_ADDR : Int := 8
def CBOR_KEY_BLE_ADDR_TYPE : Int := 9
def CBOR_KEY_REQUEST_ID : Int := 10
def CBOR_KEY_SNAPSHOT_ID : Int := 11
def CBOR_KEY_SEQUENCE : Int := 12
def CBOR_KEY_TOTAL : Int := 13
def CBOR_KEY_VALUE_TYPE : Int := 14
def CBOR_KEY_CAPABILITY_FLAGS : Int := 15
def CBOR_KEY_MIN_VALUE : Int := 16
def CBOR_KEY_MAX_VALUE : Int := 17
def CBOR_KEY_STEP : Int := 18
def CBOR_KEY_CAPABILITY_LABEL : Int := 19
def CBOR_KEY_CAPABILITY_UNIT : Int := 20
def CBOR_KEY_CAPABILITY_REVISION : Int := 21
def CBOR_KEY_FEATURE_ID : Int := 22
def CBOR_KEY_FEATURE_TYPE : Int := 23
def CBOR_KEY_FEATURE_SCHEMA_VERSION : Int := 24
def CBOR_KEY_FEATURE_FLAGS : Int := 25
def CBOR_KEY_PROPERTY_ID : Int := 26
def CBOR_KEY_FEATURE_VALUE_BOOL : Int := 27
def CBOR_KEY_FEATURE_VALUE_INT : Int := 28
def CBOR_KEY_FEATURE_TOOL : Int := 29
def CBOR_KEY_FEATURE_TOTAL : Int := 30
def CBOR_KEY_FEATURE_DECIMALS : Int := 31
def GW_KEY_SETTINGS_SUPPORTED : Int := 32
def GW_KEY_SETTINGS_SCHEMA_REVISION : Int := 33
def GW_KEY_SETTINGS_ID : Int := 34
def GW_KEY_SETTINGS_TITLE : Int := 35
def GW_KEY_SETTINGS_GROUP : Int := 36
def GW_KEY_SETTINGS_UNIT : Int := 37
def GW_KEY_SETTINGS_TYPE : Int := 38
def GW_KEY_SETTINGS_FLAGS : Int := 39
def GW_KEY_SETTINGS_VALUE : Int := 40
def GW_KEY_SETTINGS_TRANSACTION_ID : Int := 41
def GW_KEY_SETTINGS_EXPECTED_REVISION : Int := 42
def GW_KEY_SETTINGS_NEW_REVISION : Int := 43
def GW_KEY_SETTINGS_OPTION_INDEX : Int := 44
def GW_KEY_SETTINGS_MAX_LENGTH : Int := 45
def GW_KEY_SETTINGS_OPTION_COUNT : Int := 46
def GW_KEY_SETTINGS_SEQUENCE : Int := 47

def GW_SETTING_TYPE_BOOL : UInt8 := 1
def GW_SETTING_TYPE_INT : UInt8 := 2
def GW_SETTING_TYPE_STRING : UInt8 := 4
def GW_SETTING_TYPE_ENUM : UInt8 := 5

/-! ## Texts -/

/-- The bytes of a text in front of its NUL. -/
structure Text where
  bytes : CString
  nulFree : ∀ b ∈ bytes, b ≠ 0
  deriving DecidableEq

namespace Text

def empty : Text := ⟨[], by simp⟩

instance : Inhabited Text := ⟨empty⟩

@[ext] theorem ext {s t : Text} (h : s.bytes = t.bytes) : s = t := by
  cases s
  cases t
  cases h
  rfl

/-- The text that an array with these bytes holds. -/
def ofBytes (b : List UInt8) : Text :=
  ⟨b.takeWhile (· ≠ 0), fun _ hx => by simpa using List.mem_takeWhile_imp hx⟩

theorem ofBytes_bytes (t : Text) : ofBytes t.bytes = t := by
  refine ext (List.takeWhile_eq_self_iff.mpr fun b hb => ?_)
  exact decide_eq_true (t.nulFree b hb)

theorem length_ofBytes_le (b : List UInt8) : (ofBytes b).bytes.length ≤ b.length :=
  (List.takeWhile_prefix _).length_le

end Text

/-! ## Messages -/

/-- `ble_addr` and `ble_addr_type`. -/
structure BleAddr where
  address : Fin 6 → UInt8
  type : UInt8
  deriving DecidableEq

/-- The union `setting_value`; `setting_type` tells which of its members is in use. -/
structure SettingValue where
  bool : Bool := false
  int : Int32 := 0
  enum : UInt8 := 0
  string : Text := .empty
  deriving DecidableEq

/-- `gw_message_t`; the default value is the one `memset` leaves. -/
structure GwMessage where
  protocolVersion : UInt8 := 0
  type : Text := .empty
  deviceId : Option Text := none
  command : Text := .empty
  requestId : Option UInt32 := none
  intValue : Int32 := 0
  boolValue : Int32 := 0
  hasIntValue : Bool := false
  hasBoolValue : Bool := false
  name : Text := .empty
  bleAddr : Option BleAddr := none
  snapshotId : Option UInt32 := none
  sequence : Option UInt16 := none
  total : Option UInt16 := none
  valueType : Option UInt8 := none
  capabilityFlags : Option UInt8 := none
  minValue : Option Int32 := none
  maxValue : Option Int32 := none
  step : Option UInt32 := none
  /-- Also `setting_title`. -/
  capabilityLabel : Text := .empty
  /-- Also `setting_unit`. -/
  capabilityUnit : Text := .empty
  capabilityRevision : Option UInt32 := none
  /-- Also `setting_group`. -/
  featureId : Text := .empty
  hasFeatureId : Bool := false
  featureType : Option UInt8 := none
  featureSchemaVersion : Option UInt16 := none
  featureFlags : Option UInt16 := none
  propertyId : Option UInt8 := none
  featureValueBool : Option Bool := none
  featureValueInt : Option Int32 := none
  featureTool : Text := .empty
  hasFeatureTool : Bool := false
  featureTotal : Option UInt16 := none
  featureDecimals : Option UInt8 := none
  settingsSupported : Option Bool := none
  settingsSchemaRevision : Option UInt16 := none
  settingId : Option Text := none
  hasSettingGroup : Bool := false
  settingType : UInt8 := 0
  hasSettingType : Bool := false
  settingFlags : Option UInt16 := none
  settingValue : SettingValue := {}
  hasSettingValue : Bool := false
  settingsTransactionId : Option UInt64 := none
  settingsExpectedRevision : Option UInt32 := none
  settingsNewRevision : Option UInt32 := none
  settingsOptionIndex : Option UInt8 := none
  settingsMaxLength : Option UInt16 := none
  settingsOptionCount : Option UInt16 := none
  settingsSequence : Option UInt16 := none
  deriving DecidableEq

end BleGateway.CborCodec
