import BleGateway.Types

set_option autoImplicit false

/-! # Schema snapshots

The data types of `device_schema.h`, the checks of `device_schema_validate.c` on tools and
features, and the part of `device_template.c` that they use. A count together with the array it
belongs to is a list. Time stamps and texts for logs are left out.
-/

namespace BleGateway.DeviceSchema

def DEVICE_SCHEMA_MAX_TOOLS : Nat := 12

/-- `device_command_t`. -/
abbrev CommandName := CharBuf DEVICE_COMMAND_MAX_LEN

/-- `device_feature_id_t`. -/
abbrev FeatureId := CharBuf DEVICE_FEATURE_ID_MAX_LEN

abbrev ToolLabel := CharBuf GW_MSG_CAP_LABEL_LEN
abbrev MeasureUnit := CharBuf GW_MSG_CAP_UNIT_LEN

/-! ## Tools and features -/

def VALUE_TYPE_NONE : UInt8 := 0
def VALUE_TYPE_BOOL : UInt8 := 1
def VALUE_TYPE_INT : UInt8 := 2

/-- `device_schema_tool_t`. -/
structure Tool where
  command : CommandName := .empty
  label : ToolLabel := .empty
  unit : MeasureUnit := .empty
  valueType : UInt8 := 0
  flags : UInt8 := 0
  minValue : Int32 := 0
  maxValue : Int32 := 0
  step : UInt32 := 0
  deriving DecidableEq

/-- `device_schema_feature_t`. -/
structure Feature where
  featureId : FeatureId := .empty
  title : ToolLabel := .empty
  unit : MeasureUnit := .empty
  featureType : UInt8 := 0
  featureSchemaVersion : UInt16 := 0
  featureFlags : UInt16 := 0
  propertyId : UInt8 := 0
  valueType : UInt8 := 0
  decimals : UInt8 := 0
  writableToolIndex : Int8 := 0
  deriving DecidableEq

/-- `isalnum` in the C locale. -/
def isalnum (c : UInt8) : Bool :=
  (48 ≤ c && c ≤ 57) || (65 ≤ c && c ≤ 90) || (97 ≤ c && c ≤ 122)

/-- `schema_valid_command_name`; the bytes `95`, `45` and `46` are `_`, `-` and `.`. -/
def validCommandName (command : CommandName) : Bool :=
  command.text ≠ [] && command.text.all fun c => isalnum c || c = 95 || c = 45 || c = 46

/-- `schema_valid_tool`. -/
def validTool (tool : Tool) : Bool :=
  validCommandName tool.command && tool.valueType ≤ 2 &&
    (tool.valueType ≠ VALUE_TYPE_INT || (tool.minValue ≤ tool.maxValue && tool.step ≠ 0))

/-- `schema_valid_feature_id`. -/
def validFeatureId (featureId : FeatureId) : Bool := featureId.text ≠ []

/-- `schema_resolve_writable_tool`. -/
def resolveWritableTool (tools : List Tool) (featureTool : CommandName) : Int8 :=
  if featureTool.text = [] then -1
  else
    match tools.findIdx? fun tool => tool.command = featureTool with
    | some i => Int8.ofNat i
    | none => -1

/-- The tool at an index, which is negative for a feature without a writable tool. -/
def toolAt (tools : List Tool) (i : Int8) : Option Tool :=
  if 0 ≤ i.toInt then tools[i.toInt.toNat]? else none

/-- `schema_validate_feature_tool`. -/
def validateFeatureTool (feature : Feature) (tool : Tool) : Bool :=
  feature.valueType = tool.valueType &&
    (feature.unit.text = [] || tool.unit.text = [] || feature.unit = tool.unit) &&
    (feature.valueType ≠ VALUE_TYPE_INT || (tool.step ≠ 0 && tool.minValue ≤ tool.maxValue))

/-! ## Templates -/

/-- `s_templates`: feature type, schema version and primary property. -/
def templates : List (UInt8 × UInt16 × UInt8) :=
  [(2, 1, 8), (1, 1, 1), (10, 1, 1), (11, 1, 1), (12, 1, 2), (20, 1, 3), (30, 1, 5), (31, 1, 6),
    (40, 1, 7)]

/-- `device_template_resolve`, with the primary property of the template. -/
def templateResolve (featureType : UInt8) (schemaVersion : UInt16) : Option UInt8 :=
  (templates.find? fun t => t.1 = featureType && t.2.1 = schemaVersion).map (·.2.2)

/-- The property ids and value types of `s_property_info`. -/
def propertyInfo : List (UInt8 × UInt8) :=
  [(0, VALUE_TYPE_NONE), (1, VALUE_TYPE_BOOL), (2, VALUE_TYPE_INT), (3, VALUE_TYPE_INT),
    (4, VALUE_TYPE_INT), (5, VALUE_TYPE_INT), (6, VALUE_TYPE_INT), (7, VALUE_TYPE_BOOL),
    (8, VALUE_TYPE_INT)]

/-- `device_template_property_value_type`. -/
def propertyValueType (propertyId : UInt8) : UInt8 :=
  ((propertyInfo.find? fun p => p.1 = propertyId).map (·.2)).getD VALUE_TYPE_NONE

/-- `schema_feature_matches_template`. -/
def featureMatchesTemplate (feature : Feature) : Bool :=
  feature.valueType = propertyValueType feature.propertyId &&
    match templateResolve feature.featureType feature.featureSchemaVersion with
    | none => true
    | some primaryProperty => feature.propertyId = primaryProperty

/-! ## Snapshots -/

/-- `device_schema_state_t`. -/
inductive SchemaState
  | unknown | discovering | ready | unsupported | error
  deriving DecidableEq

/-- `device_settings_state_t`. -/
inductive SettingsState
  | unknown | unsupported | ready
  deriving DecidableEq

/-- `device_schema_snapshot_t`; the default value is the one `memset` leaves. -/
structure Snapshot where
  deviceId : DeviceId := .empty
  state : SchemaState := .unknown
  revision : UInt32 := 0
  snapshotId : UInt32 := 0
  tools : List Tool := []
  features : List Feature := []
  settingsState : SettingsState := .unknown
  settingsSchemaRevision : UInt16 := 0
  deriving DecidableEq

/-- `snapshot_content_equal`, with `schema_tool_equal` for the tools and `memcmp` for the
features. -/
def Snapshot.contentEqual (a b : Snapshot) : Bool :=
  a.revision = b.revision && a.settingsState = b.settingsState &&
    a.settingsSchemaRevision = b.settingsSchemaRevision && a.tools = b.tools &&
    a.features = b.features

end BleGateway.DeviceSchema
