import BleGateway.McpExposure.System

set_option autoImplicit false

/-! # Hints and requests for a control

The hint builder of `mcp_tool_exposure.c`, the `set` operation of `mcp_device_control.c` with the
search for its feature in `mcp_semantic_control.c`, and `device_schema_validate_command`. The device
of a request is named by its id.
-/

namespace BleGateway.McpExposure

open DeviceSchema

/-! ## Names -/

/-- `s_templates`: feature type, schema version and semantic name. -/
def semanticNames : List (UInt8 × UInt16 × CString) :=
  [(2, 1, cstr "value"), (1, 1, cstr "relay"), (10, 1, cstr "outlet"), (11, 1, cstr "light"),
    (12, 1, cstr "light"), (20, 1, cstr "fan"), (30, 1, cstr "temperature"),
    (31, 1, cstr "humidity"), (40, 1, cstr "contact")]

/-- `device_template_resolve`, with the semantic name of the template. -/
def semanticName (featureType : UInt8) (schemaVersion : UInt16) : Option CString :=
  (semanticNames.find? fun t => t.1 = featureType && t.2.1 = schemaVersion).map (·.2.2)

/-- The ids and names of `s_property_info`. -/
def propertyNames : List (UInt8 × CString) :=
  [(0, cstr "none"), (1, cstr "on_off"), (2, cstr "level"), (3, cstr "percent_setting"),
    (4, cstr "percent_current"), (5, cstr "temperature"), (6, cstr "humidity"),
    (7, cstr "contact"), (8, cstr "value")]

/-- `device_template_property_name`. -/
def propertyName (propertyId : UInt8) : CString :=
  ((propertyNames.find? fun p => p.1 = propertyId).map (·.2)).getD (cstr "unknown")

/-! ## Hints -/

/-- `mcp_control_hint_t`; the minimum, the maximum and the step are there together. -/
structure ControlHint where
  featureId : FeatureId
  semanticName : CString
  propertyName : CString
  valueType : UInt8
  range : Option (Int32 × Int32 × UInt32)
  deriving DecidableEq

variable {δ : Type} [DecidableEq δ]

/-- The record accepts the control of the tool. -/
def Record.accepts (b : Build δ) (tool : Tool) (r : Record δ) : Bool :=
  !r.userDisabled && (r.featureBound && (r.state = .enabled && b.digest tool = r.digest))

/-- `build_control_hint`. -/
def buildControlHint (b : Build δ) (t : Table δ) (d : DeviceId) (s : Snapshot)
    (feature : Feature) : Option ControlHint :=
  if feature.featureId.text = [] then none
  else
    match toolAt s.tools feature.writableToolIndex,
      semanticName feature.featureType feature.featureSchemaVersion with
    | some tool, some name =>
        let valueType := propertyValueType feature.propertyId
        if name = [] || (valueType ≠ VALUE_TYPE_BOOL && valueType ≠ VALUE_TYPE_INT) ||
            tool.valueType ≠ valueType ||
              tool.flags &&& DEVICE_SCHEMA_FLAG_DESTRUCTIVE ≠ 0 then none
        else if (t.getFeature d feature.featureId).any (·.accepts b tool) then
          some
            { featureId := feature.featureId
              semanticName := name
              propertyName := propertyName feature.propertyId
              valueType := valueType
              range := if valueType = VALUE_TYPE_INT then
                  some (tool.minValue, tool.maxValue, tool.step)
                else none }
        else none
    | _, _ => none

/-- The room that the callers of `mcp_semantic_control_get_hints` have. -/
def MCP_SEMANTIC_CONTROL_HINT_MAX : Nat := DEVICE_SCHEMA_MAX_FEATURES

/-- `mcp_semantic_control_get_hints`, with the hints it writes and whether it had room for all. -/
def getHints (b : Build δ) (t : Table δ) (cap : Option Snapshot) (d : DeviceId) (capacity : Nat) :
    EspErr × List ControlHint × Bool :=
  match cap with
  | none => (.notFound, [], false)
  | some s =>
      let hints := s.features.filterMap (buildControlHint b t d s)
      (.ok, hints.take capacity, decide (capacity < hints.length))

/-! ## Requests -/

/-- A JSON value as `mcp_device_control_resolve` tells it apart: a boolean, a number that is an
`int`, or anything else. -/
inductive JsonArg
  | bool (v : Bool)
  | int (v : Int32)
  | other
  deriving DecidableEq

/-- The parameters `bool_value` and `int_value` of a request. -/
structure SetArgs where
  boolValue : Option JsonArg := none
  intValue : Option JsonArg := none
  deriving DecidableEq

/-- `mcp_device_control_plan_t`: a JSON-RPC error, a tool result with an error, or a command for
the device. -/
inductive Plan
  | error (code : Int) (message : String)
  | toolError (code : String)
  | asyncSet (request : DeviceCommandRequest)

/-- `mcp_sem_resolve_status_t`, with the feature that is found. -/
inductive Resolution
  | invalid | notFound | ambiguous
  | ok (feature : Feature)

/-- `mcp_sem_resolve_feature`: the exact id is preferred, then a semantic name that only one
feature has. -/
def resolveFeature (s : Snapshot) (arg : CString) : Resolution :=
  if arg = [] then .invalid
  else
    match s.features.find? fun f => f.featureId.text = arg with
    | some f => .ok f
    | none =>
        match s.features.filter fun f =>
            semanticName f.featureType f.featureSchemaVersion = some arg with
        | [] => .notFound
        | [f] => .ok f
        | _ => .ambiguous

/-- The typed value of a request for a feature of the given value type. -/
def typedValue (valueType : UInt8) (args : SetArgs) (request : DeviceCommandRequest) : Plan :=
  if args.boolValue.isSome = args.intValue.isSome then
    .error (-32602) "exactly one typed value is required"
  else if valueType = VALUE_TYPE_BOOL then
    match args.boolValue with
    | some (.bool v) => .asyncSet { request with hasBoolValue := true, boolValue := v }
    | _ => .error (-32602) "bool_value is required"
  else if valueType = VALUE_TYPE_INT then
    match args.intValue with
    | some (.int v) => .asyncSet { request with hasIntValue := true, intValue := v }
    | _ => .error (-32602) "int_value must be an integer"
  else .toolError "unsupported_property"

/-- `mcp_device_control_resolve` for the operation `set`. -/
def resolveSet (b : Build δ) (x : Exposure δ) (d : DeviceId) (featureArg : CString)
    (args : SetArgs) : Plan :=
  if !x.stored d then .toolError "device_not_found"
  else
    match x.capability d with
    | none => .toolError "capabilities_not_ready"
    | some s =>
        match resolveFeature s featureArg with
        | .ambiguous => .toolError "ambiguous_feature"
        | .invalid | .notFound => .toolError "feature_not_found"
        | .ok feature =>
            match toolAt s.tools feature.writableToolIndex with
            | none => .toolError "feature_read_only"
            | some tool =>
                match x.check b d feature.featureId tool with
                | .allow =>
                    typedValue feature.valueType args
                      { origin := .control
                        deviceId := d
                        command := tool.command
                        featureId := feature.featureId
                        hasFeatureId := true
                        propertyId := feature.propertyId
                        hasPropertyId := true }
                | .denyDestructive => .toolError "destructive_denied"
                | _ => .toolError "control_denied"

/-! ## Validation -/

/-- `device_schema_validation_t`. -/
inductive Validation
  | valid | unknown | unsupportedCommand | argument | typeMismatch | rangeError
  deriving DecidableEq

/-- The checks of a value against a tool; a step of 0 is never reached with a tool that
`schema_valid_tool` accepts. -/
def validateValue (tool : Tool) (request : DeviceCommandRequest) : Validation :=
  if tool.valueType = VALUE_TYPE_NONE then
    if request.hasIntValue || request.hasBoolValue then .typeMismatch else .valid
  else if tool.valueType = VALUE_TYPE_BOOL then
    if !request.hasBoolValue || request.hasIntValue then .typeMismatch else .valid
  else if tool.valueType = VALUE_TYPE_INT then
    if !request.hasIntValue || request.hasBoolValue then .typeMismatch
    else if request.intValue < tool.minValue || tool.maxValue < request.intValue ||
        (request.intValue.toInt - tool.minValue.toInt) % (tool.step.toNat : Int) ≠ 0 then
      .rangeError
    else .valid
  else .valid

/-- `device_schema_validate_command`, on the message made of the request. -/
def validateCommand (cap : Option Snapshot) (request : DeviceCommandRequest) : Validation :=
  if request.command.text = [] then .argument
  else if request.command.text = cstr "describe_capabilities" then .valid
  else
    match cap with
    | none => .unknown
    | some s =>
        if s.state ≠ .ready ∧ s.state ≠ .discovering then .unknown
        else
          match s.tools.findIdx? fun tool => tool.command = request.command with
          | none => .unsupportedCommand
          | some c =>
              match validateValue (s.tools.getD c {}) request with
              | .valid =>
                  if request.hasFeatureId ≠ request.hasPropertyId then .argument
                  else if request.hasFeatureId && !s.features.any fun f =>
                      f.featureId = request.featureId && f.propertyId = request.propertyId &&
                        f.writableToolIndex = Int8.ofNat c then .argument
                  else .valid
              | failure => failure

/-! ## The policy and the hints read one record -/

section Reading

variable {b : Build δ} {d : DeviceId} {f : FeatureId} {t : Table δ} {i : Nat} {r : Record δ}
  {s : Snapshot} {tool : Tool} {feature : Feature} {hint : ControlHint}

omit [DecidableEq δ] in
/-- The search of `mcp_tool_exposure_set_feature_enabled` is the one of
`find_persisted_by_feature`. -/
theorem Table.findIdx?_feature (t : Table δ) (d : DeviceId) (f : FeatureId) :
    (t.findIdx? fun r => r.deviceId = d && (r.featureId.text ≠ [] && r.featureId = f)) =
      t.findByFeature d f := by
  unfold Table.findByFeature
  split
  · rename_i hf
    rw [List.findIdx?_eq_none_iff]
    intro r _
    by_cases hrf : r.featureId = f <;> simp [hrf, hf]
  · rename_i hf
    congr 1
    funext r
    by_cases hrf : r.featureId = f <;> simp [hrf, hf]

omit [DecidableEq δ] in
theorem Table.getFeature_of_find (h : t.findByFeature d f = some i) (hr : t[i]? = some r) :
    t.getFeature d f = some r := by
  rw [getFeature, List.find?_eq_bind_findIdx?_getElem?, findIdx?_feature, h]
  exact hr

/-- **What the policy tests.** -/
theorem checkFeatureControl_allow_iff {stored : Bool} {cap : Option Snapshot} :
    checkFeatureControl b t stored cap d f tool = .allow ↔
      stored = true ∧ (∃ s feature, cap = some s ∧
        (s.features.find? fun g => g.featureId = f) = some feature ∧
          (toolAt s.tools feature.writableToolIndex).isSome) ∧
      (∃ r, t.getFeature d f = some r ∧ r.accepts b tool = true) ∧
        tool.flags &&& DEVICE_SCHEMA_FLAG_DESTRUCTIVE = 0 := by
  unfold checkFeatureControl
  cases stored with
  | false => simp
  | true =>
      cases cap with
      | none => simp
      | some s =>
          cases hf : s.features.find? fun g => g.featureId = f with
          | none => simp [hf]
          | some feature =>
              cases htool : toolAt s.tools feature.writableToolIndex with
              | none => simp [hf, htool]
              | some w =>
                  cases hr : t.getFeature d f with
                  | none => simp [hf, htool]
                  | some r =>
                      simp only [hf, htool, Bool.not_true, Bool.false_eq_true, if_false,
                        Record.accepts]
                      repeat' split
                      all_goals grind

theorem buildControlHint_congr {t' : Table δ} {r' : Record δ}
    (h : buildControlHint b t d s feature = some hint)
    (hr : t.getFeature d feature.featureId = some r)
    (hr' : t'.getFeature d feature.featureId = some r')
    (hacc : ∀ tool, r.accepts b tool = true → r'.accepts b tool = true) :
    buildControlHint b t' d s feature = some hint := by
  unfold buildControlHint at h ⊢
  split at h
  · cases h
  · rename_i hid
    rw [if_neg hid]
    split at h
    · rename_i tool name htool hname
      dsimp only at h ⊢
      split at h
      · cases h
      · rename_i hcond
        rw [if_neg hcond]
        split at h
        · rename_i hany
          rw [hr, Option.any_some] at hany
          rw [hr', Option.any_some, if_pos (hacc tool hany)]
          exact h
        · cases h
    · cases h

omit [DecidableEq δ] in
theorem Table.getFeature_spec (h : t.getFeature d f = some r) :
    r ∈ t ∧ r.deviceId = d ∧ r.featureId = f ∧ f.text ≠ [] := by
  have hp := List.find?_some h
  simp only [Bool.and_eq_true, decide_eq_true_eq] at hp
  obtain ⟨hd, hne, rfl⟩ := hp
  exact ⟨List.mem_of_find?_eq_some h, hd, rfl, hne⟩

end Reading

/-! ## A relay -/

/-- A build whose digest of a tool is all of the bytes that are hashed. -/
def plain : Build (List UInt8) where
  hash bytes := bytes

def relayId : DeviceId := strlcpy _ (cstr "relay-1")
def relay0 : FeatureId := strlcpy _ (cstr "relay0")

def switchTool : Tool where
  command := strlcpy _ (cstr "switch")
  valueType := VALUE_TYPE_BOOL

def relayFeature : Feature where
  featureId := relay0
  featureType := 1
  featureSchemaVersion := 1
  propertyId := 1
  valueType := VALUE_TYPE_BOOL

def relaySchema : Snapshot where
  deviceId := relayId
  state := .ready
  tools := [switchTool]
  features := [relayFeature]

end BleGateway.McpExposure
