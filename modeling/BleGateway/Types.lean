import Mathlib.Algebra.GroupWithZero.Nat
import Mathlib.Data.List.Basic

set_option autoImplicit false

/-! # Types shared by the components

`device_types.h`, `device_command_types.h` and the part of `esp_err.h` that the components
use. Texts are byte strings without their terminating NUL; a text stored in an array carries
the array's bound on its length, and a copy into an array is `strlcpy`. Pointers are numbers, `0`
being `NULL`: the code only stores callbacks and contexts, tests them against `NULL` and hands them
back.
-/

namespace BleGateway

/-! ## Texts -/

/-- The bytes of a C string in front of its NUL. -/
abbrev CString := List UInt8

/-- The bytes of an ASCII literal. -/
def cstr (s : String) : CString := s.toList.map fun c => UInt8.ofNat c.toNat

/-- The text in a `char[size]` array; its NUL lies inside the array. -/
structure CharBuf (size : Nat) where
  text : CString
  bounded : text.length < size
  deriving DecidableEq

namespace CharBuf

variable {size : Nat}

@[ext] theorem ext {a b : CharBuf size} (h : a.text = b.text) : a = b := by
  cases a; cases b; cases h; rfl

instance [NeZero size] : Inhabited (CharBuf size) := ⟨⟨[], Nat.pos_of_neZero size⟩⟩

/-- A zeroed array. -/
def empty [NeZero size] : CharBuf size := default

@[simp] theorem empty_text [NeZero size] : (empty : CharBuf size).text = [] := rfl

end CharBuf

/-- `strlcpy` into an array of `size` bytes: at most `size - 1` bytes are kept. -/
def strlcpy (size : Nat) [NeZero size] (s : CString) : CharBuf size :=
  ⟨s.take (size - 1), by have := Nat.pos_of_neZero size; rw [List.length_take]; omega⟩

theorem strlcpy_text {size : Nat} [NeZero size] {s : CString} (h : s.length < size) :
    (strlcpy size s).text = s :=
  List.take_of_length_le (by omega)

def DEVICE_ID_MAX_LEN : Nat := 32
def DEVICE_NAME_MAX_LEN : Nat := 32
def DEVICE_COMMAND_MAX_LEN : Nat := 32
def DEVICE_FEATURE_ID_MAX_LEN : Nat := 32
def GW_SETTINGS_VALUE_MAX_LEN : Nat := 64
def GW_MSG_CAP_LABEL_LEN : Nat := 32
def GW_MSG_CAP_UNIT_LEN : Nat := 12
def DEVICE_STORE_MAX_DEVICES : Nat := 16
def DEVICE_SCHEMA_MAX_FEATURES : Nat := 12

instance : NeZero DEVICE_ID_MAX_LEN := ⟨by decide⟩
instance : NeZero DEVICE_NAME_MAX_LEN := ⟨by decide⟩
instance : NeZero DEVICE_COMMAND_MAX_LEN := ⟨by decide⟩
instance : NeZero DEVICE_FEATURE_ID_MAX_LEN := ⟨by decide⟩
instance : NeZero GW_SETTINGS_VALUE_MAX_LEN := ⟨by decide⟩
instance : NeZero GW_MSG_CAP_LABEL_LEN := ⟨by decide⟩
instance : NeZero GW_MSG_CAP_UNIT_LEN := ⟨by decide⟩

/-- `device_id_t`. -/
abbrev DeviceId := CharBuf DEVICE_ID_MAX_LEN

/-- The bytes of a number, the least significant first. -/
def littleEndian (v : UInt32) : List UInt8 :=
  [v.toUInt8, (v >>> 8).toUInt8, (v >>> 16).toUInt8, (v >>> 24).toUInt8]

/-- A pointer that the code stores and passes on, `0` for `NULL`. -/
abbrev Ptr := Nat

/-! ## Results of calls -/

/-- The `esp_err_t` values that the modelled functions return or test. -/
inductive EspErr
  | ok | invalidArg | invalidState | noMem | notFound | timeout | notSupported | fail
  deriving DecidableEq

/-! ## Commands -/

inductive DeviceCommandOrigin
  | control | schemaDiscovery | stateRead | settings
  deriving DecidableEq

/-- The `value` union of a Settings payload; all-zero bytes are `boolValue false`. -/
inductive DeviceCommandSettingsValue
  | boolValue (v : Bool)
  | intValue (v : Int32)
  | enumValue (v : UInt8)
  | stringValue (v : CharBuf GW_SETTINGS_VALUE_MAX_LEN)
  deriving DecidableEq

structure DeviceCommandSettingsPayload where
  hasTransactionId : Bool := false
  transactionId : UInt64 := 0
  hasExpectedRevision : Bool := false
  expectedRevision : UInt32 := 0
  hasNewRevision : Bool := false
  newRevision : UInt32 := 0
  hasSettingId : Bool := false
  settingId : CharBuf DEVICE_FEATURE_ID_MAX_LEN := .empty
  hasSettingValue : Bool := false
  settingType : UInt8 := 0
  value : DeviceCommandSettingsValue := .boolValue false
  deriving DecidableEq

/-- `device_command_request_t`. -/
structure DeviceCommandRequest where
  origin : DeviceCommandOrigin := .control
  deviceId : DeviceId := .empty
  command : CharBuf DEVICE_COMMAND_MAX_LEN := .empty
  hasBoolValue : Bool := false
  boolValue : Bool := false
  hasIntValue : Bool := false
  intValue : Int32 := 0
  hasFeatureId : Bool := false
  featureId : CharBuf DEVICE_FEATURE_ID_MAX_LEN := .empty
  hasPropertyId : Bool := false
  propertyId : UInt8 := 0
  settings : DeviceCommandSettingsPayload := {}
  deriving DecidableEq

inductive DeviceCommandStatus
  | ok | invalidArgument | schemaNotReady | unsupportedCommand | typeMismatch | rangeError
  | notConnected | busy | queueFull | transportError | timeout | rejected | cancelled | internal
  deriving DecidableEq

/-- `device_command_result_t`. -/
structure DeviceCommandResult where
  status : DeviceCommandStatus := .ok
  requestId : UInt32 := 0
  accepted : Bool := false
  hasBoolValue : Bool := false
  boolValue : Bool := false
  hasIntValue : Bool := false
  intValue : Int32 := 0
  hasFeatureValueBool : Bool := false
  featureValueBool : Bool := false
  hasFeatureValueInt : Bool := false
  featureValueInt : Int32 := 0
  deriving DecidableEq

end BleGateway
