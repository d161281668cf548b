import BleGateway.CborCodec.Message
import BleGateway.McpExposure.Controls

set_option autoImplicit false

/-! # Requests and their messages

`device_command_request.c`: the checks of a request, and the message that goes to the device. What
`device_schema_validate_command` answers for a message is a parameter.
-/

namespace BleGateway.CommandService

open Settings (GW_SETTINGS_CMD_DESCRIBE_SETTINGS GW_SETTINGS_CBOR_MAX_ID_LEN GW_PROTOCOL_VERSION)
open CborCodec (GwMessage GW_MSG_TYPE_LEN GW_SETTING_TYPE_BOOL GW_SETTING_TYPE_INT
  GW_SETTING_TYPE_STRING GW_SETTING_TYPE_ENUM)
open McpExposure (Validation)

instance : NeZero GW_SETTINGS_CBOR_MAX_ID_LEN := ⟨by decide⟩

instance : NeZero GW_MSG_TYPE_LEN := ⟨by decide⟩

def GW_SETTINGS_CMD_READ_SETTINGS : CString := cstr "read_settings"
def GW_SETTINGS_CMD_TX_BEGIN : CString := cstr "settings_tx_begin"
def GW_SETTINGS_CMD_TX_SET : CString := cstr "settings_tx_set"
def GW_SETTINGS_CMD_TX_COMMIT : CString := cstr "settings_tx_commit"
def GW_SETTINGS_CMD_TX_ABORT : CString := cstr "settings_tx_abort"
def GW_SETTINGS_CMD_COMMIT_CONFIRM : CString := cstr "settings_commit_confirm"

/-! ## Checks -/

/-- `settings_string_is_terminated`. -/
def settingsStringIsTerminated (value : CString) (capacity : Nat) : Bool := value.length < capacity

/-- The members of the union; the code reads the one that the setting type names. -/
def boolOf : DeviceCommandSettingsValue → Bool
  | .boolValue v => v
  | _ => false

def intOf : DeviceCommandSettingsValue → Int32
  | .intValue v => v
  | _ => 0

def enumOf : DeviceCommandSettingsValue → UInt8
  | .enumValue v => v
  | _ => 0

def stringOf : DeviceCommandSettingsValue → CString
  | .stringValue v => v.text
  | _ => []

/-- `settings_value_is_valid`. -/
def settingsValueIsValid (s : DeviceCommandSettingsPayload) : Bool :=
  if !s.hasSettingValue then false
  else if s.settingType = GW_SETTING_TYPE_BOOL ∨ s.settingType = GW_SETTING_TYPE_INT ∨
      s.settingType = GW_SETTING_TYPE_ENUM then true
  else if s.settingType = GW_SETTING_TYPE_STRING then
    settingsStringIsTerminated (stringOf s.value) GW_SETTINGS_VALUE_MAX_LEN
  else false

/-- `settings_id_is_valid`. -/
def settingsIdIsValid (s : DeviceCommandSettingsPayload) : Bool :=
  s.hasSettingId && (s.settingId.text ≠ [] &&
    settingsStringIsTerminated s.settingId.text DEVICE_FEATURE_ID_MAX_LEN)

/-- `is_settings_command`. -/
def isSettingsCommand (command : CString) : Bool :=
  [GW_SETTINGS_CMD_DESCRIBE_SETTINGS, GW_SETTINGS_CMD_READ_SETTINGS, GW_SETTINGS_CMD_TX_BEGIN,
    GW_SETTINGS_CMD_TX_SET, GW_SETTINGS_CMD_TX_COMMIT, GW_SETTINGS_CMD_TX_ABORT,
    GW_SETTINGS_CMD_COMMIT_CONFIRM].contains command

/-- The checks of `dcs_validate_request` on a command of the settings. -/
def validateSettings (request : DeviceCommandRequest) : DeviceCommandStatus :=
  let command := request.command.text
  let s := request.settings
  if !isSettingsCommand command then .unsupportedCommand
  else if request.hasBoolValue || request.hasIntValue || request.hasFeatureId ||
      request.hasPropertyId then .invalidArgument
  else if command = GW_SETTINGS_CMD_TX_BEGIN then
    if !s.hasTransactionId || !s.hasExpectedRevision then .invalidArgument else .ok
  else if command = GW_SETTINGS_CMD_TX_SET then
    if !s.hasTransactionId || !settingsIdIsValid s || !settingsValueIsValid s then .invalidArgument
    else .ok
  else if command = GW_SETTINGS_CMD_TX_COMMIT ∨ command = GW_SETTINGS_CMD_TX_ABORT then
    if !s.hasTransactionId then .invalidArgument else .ok
  else if command = GW_SETTINGS_CMD_COMMIT_CONFIRM then
    if !s.hasTransactionId || !s.hasNewRevision then .invalidArgument else .ok
  else .ok

/-- `dcs_validate_request`, whose arguments are not `NULL`. -/
def validateRequest (validate : GwMessage → Validation) (request : DeviceCommandRequest)
    (wireMessage : GwMessage) : DeviceCommandStatus :=
  if request.deviceId.text = [] then .invalidArgument
  else
    match request.origin with
    | .control =>
        if request.command.text = [] then .invalidArgument
        else
          match validate wireMessage with
          | .valid => .ok
          | .unknown => .schemaNotReady
          | .unsupportedCommand => .unsupportedCommand
          | .typeMismatch => .typeMismatch
          | .rangeError => .rangeError
          | .argument => .invalidArgument
    | .schemaDiscovery =>
        if request.command.text ≠ cstr "describe_capabilities" then .unsupportedCommand else .ok
    | .stateRead =>
        if request.command.text ≠ cstr "read_feature_state" then .unsupportedCommand
        else if !request.hasFeatureId || (request.featureId.text = [] || !request.hasPropertyId)
          then
          .invalidArgument
        else .ok
    | .settings => validateSettings request

/-! ## Messages -/

/-- A copy of a text into an array of a message. -/
def copied (size : Nat) [NeZero size] (s : CString) : CborCodec.Text :=
  .ofBytes (strlcpy size s).text

/-- The value of a setting, by its type; a value of another type leaves the union as it is. -/
def wireValue (type : UInt8) (v : DeviceCommandSettingsValue) : CborCodec.SettingValue :=
  if type = GW_SETTING_TYPE_BOOL then { bool := boolOf v }
  else if type = GW_SETTING_TYPE_INT then { int := intOf v }
  else if type = GW_SETTING_TYPE_ENUM then { enum := enumOf v }
  else if type = GW_SETTING_TYPE_STRING then
    { string := copied GW_SETTINGS_VALUE_MAX_LEN (stringOf v) }
  else {}

/-- `dcs_build_wire_message`. -/
def buildWireMessage (request : DeviceCommandRequest) (requestId : UInt32) : GwMessage :=
  let s := request.settings
  { protocolVersion := GW_PROTOCOL_VERSION
    type := copied GW_MSG_TYPE_LEN (cstr "device_command")
    deviceId := some (copied DEVICE_ID_MAX_LEN request.deviceId.text)
    command := copied DEVICE_COMMAND_MAX_LEN request.command.text
    requestId := some requestId
    boolValue := if request.hasBoolValue && request.boolValue then 1 else 0
    hasBoolValue := request.hasBoolValue
    intValue := if request.hasIntValue then request.intValue else 0
    hasIntValue := request.hasIntValue
    featureId := if request.hasFeatureId
      then copied DEVICE_FEATURE_ID_MAX_LEN request.featureId.text
      else .empty
    hasFeatureId := request.hasFeatureId
    propertyId := if request.hasPropertyId then some request.propertyId else none
    settingsTransactionId := if s.hasTransactionId then some s.transactionId else none
    settingsExpectedRevision := if s.hasExpectedRevision then some s.expectedRevision else none
    settingsNewRevision := if s.hasNewRevision then some s.newRevision else none
    settingId := if s.hasSettingId then some (copied GW_SETTINGS_CBOR_MAX_ID_LEN s.settingId.text)
      else none
    settingType := if s.hasSettingValue then s.settingType else 0
    hasSettingType := s.hasSettingValue
    settingValue := if s.hasSettingValue then wireValue s.settingType s.value else {}
    hasSettingValue := s.hasSettingValue }

/-- A copy keeps a text that fits. -/
theorem copied_bytes {size : Nat} [NeZero size] {s : CString} (hnul : (0 : UInt8) ∉ s)
    (hlen : s.length < size) : (copied size s).bytes = s := by
  have hkeep : s.takeWhile (· ≠ 0) = s := by
    refine List.takeWhile_eq_self_iff.mpr fun b hb => decide_eq_true ?_
    rintro rfl
    exact hnul hb
  rw [copied, strlcpy_text hlen]
  exact hkeep

end BleGateway.CommandService
