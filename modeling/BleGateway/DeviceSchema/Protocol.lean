import BleGateway.DeviceSchema.Snapshot
import BleGateway.Lib.Directory

set_option autoImplicit false

/-! # Records and schema streams

`schema_record_t` and the handlers of `device_schema_protocol.c`. A stream is `capabilities_begin`,
one item for each tool and each feature, and `capabilities_end`. It is collected in the `staging`
snapshot of the record and becomes the committed one at its end.

A handler reads and writes one record only, in one critical section; what `handle_end` does after
it with the store and the listeners is part of the worker.
-/

namespace BleGateway.DeviceSchema

def GW_PROTOCOL_VERSION : UInt32 := 4

/-! ## Records -/

/-- `schema_operation_kind_t`. -/
inductive OperationKind
  | none | initial | manual
  deriving DecidableEq

/-- `schema_operation_state_t`. -/
inductive OperationState
  | idle | queued | running
  deriving DecidableEq

/-- `device_schema_refresh_state_t`. -/
inductive RefreshState
  | idle | queued | running
  deriving DecidableEq

/-- `device_schema_refresh_result_t`. -/
inductive RefreshResult
  | none | success | unchanged | notPersisted | unsupported | busy | timeout | disconnected
  | transportError | protocolError | internalError
  deriving DecidableEq

/-- `device_schema_refresh_active_t`. -/
structure RefreshActive where
  generation : UInt32 := 0
  state : RefreshState := .idle
  deriving DecidableEq

/-- `device_schema_refresh_completed_t`. -/
structure RefreshCompleted where
  generation : UInt32 := 0
  result : RefreshResult := .none
  deriving DecidableEq

/-- `schema_record_t`; the default value is the one `memset` leaves. -/
structure Record where
  used : Bool := false
  hasCommitted : Bool := false
  persistDirty : Bool := false
  committed : Snapshot := {}
  stagingActive : Bool := false
  stagingExpectedTools : Nat := 0
  stagingExpectedFeatures : Nat := 0
  staging : Snapshot := {}
  operationKind : OperationKind := .none
  operationState : OperationState := .idle
  operationId : UInt32 := 0
  refreshActive : RefreshActive := {}
  refreshLastCompleted : RefreshCompleted := {}
  deriving DecidableEq

namespace Record

def deviceId (r : Record) : DeviceId := r.committed.deviceId

/-- Drop the stream that is collected. -/
def clearStaging (r : Record) : Record := { r with stagingActive := false, staging := {} }

/-- Without a committed snapshot the record reports an error. -/
def reportError (r : Record) : Record :=
  if r.hasCommitted then r else { r with committed := { r.committed with state := .error } }

/-- `reset_record_error`, and the branches of the stream handlers that drop a broken stream. -/
def resetError (r : Record) : Record :=
  { r.clearStaging.reportError with operationState := .idle }

variable (r : Record)

@[simp] theorem clearStaging_operationState :
    r.clearStaging.operationState = r.operationState := rfl
@[simp] theorem clearStaging_deviceId : r.clearStaging.deviceId = r.deviceId := rfl
@[simp] theorem clearStaging_used : r.clearStaging.used = r.used := rfl
@[simp] theorem clearStaging_stagingActive : r.clearStaging.stagingActive = false := rfl

@[simp] theorem reportError_deviceId : r.reportError.deviceId = r.deviceId := by
  unfold reportError
  split <;> rfl

@[simp] theorem reportError_used : r.reportError.used = r.used := by
  unfold reportError
  split <;> rfl

@[simp] theorem reportError_stagingActive : r.reportError.stagingActive = r.stagingActive := by
  unfold reportError
  split <;> rfl

@[simp] theorem reportError_staging : r.reportError.staging = r.staging := by
  unfold reportError
  split <;> rfl

@[simp] theorem resetError_operationState : r.resetError.operationState = .idle := rfl
@[simp] theorem resetError_deviceId : r.resetError.deviceId = r.deviceId := by
  rw [← clearStaging_deviceId r, ← reportError_deviceId r.clearStaging]
  rfl
@[simp] theorem resetError_used : r.resetError.used = r.used := by
  rw [← clearStaging_used r, ← reportError_used r.clearStaging]
  rfl
@[simp] theorem resetError_stagingActive : r.resetError.stagingActive = false :=
  reportError_stagingActive r.clearStaging

end Record

/-! ## Frames -/

/-- The fields of `gw_message_t` that the component reads. A value with a `has_` flag is `none`
without it, but where the code also reads it without a look at the flag. -/
structure Message where
  protocolVersion : UInt32 := GW_PROTOCOL_VERSION
  type : CString
  deviceId : Option DeviceId := none
  command : CommandName := .empty
  snapshotId : Option UInt32 := none
  hasSequence : Bool := false
  sequence : UInt16 := 0
  total : Option UInt16 := none
  valueType : Option UInt8 := none
  capabilityFlags : Option UInt8 := none
  hasMinValue : Bool := false
  minValue : Int32 := 0
  hasMaxValue : Bool := false
  maxValue : Int32 := 0
  hasStep : Bool := false
  step : UInt32 := 0
  capabilityLabel : ToolLabel := .empty
  capabilityUnit : MeasureUnit := .empty
  capabilityRevision : Option UInt32 := none
  featureId : Option FeatureId := none
  featureType : Option UInt8 := none
  featureSchemaVersion : Option UInt16 := none
  featureFlags : Option UInt16 := none
  propertyId : Option UInt8 := none
  featureDecimals : Option UInt8 := none
  featureTool : Option CommandName := none
  featureTotal : Option UInt16 := none
  settingsSupported : Option Bool := none
  settingsSchemaRevision : Option UInt16 := none
  deriving DecidableEq

/-- What a handler does with a frame. -/
inductive Verdict
  /-- The record stays as it is. -/
  | ignored
  /-- The frame opens the stream or adds an item to it. -/
  | stored (r : Record)
  /-- The frame does not continue the stream, which is dropped. -/
  | rejected
  /-- The frame ends the stream; `changed` is what `handle_end` passes on to the store. -/
  | committed (r : Record) (changed : Bool)
  deriving DecidableEq

/-- The record after a frame. -/
def Verdict.record (r : Record) : Verdict → Record
  | .ignored => r
  | .stored r' => r'
  | .rejected => r.resetError
  | .committed r' _ => r'

/-- `message_device_matches`. -/
def messageDeviceMatches (id : DeviceId) (msg : Message) : Bool :=
  msg.protocolVersion = GW_PROTOCOL_VERSION && msg.deviceId = some id

/-- The staging snapshot that a `capabilities_begin` opens. -/
def openStaging (id : DeviceId) (msg : Message) (snapshotId revision : UInt32) : Snapshot :=
  { deviceId := id
    state := .discovering
    snapshotId := snapshotId
    revision := revision
    settingsState := if msg.settingsSupported = some true then .ready else .unsupported
    settingsSchemaRevision :=
      if msg.settingsSupported = some true then msg.settingsSchemaRevision.getD 0 else 0 }

/-- `handle_begin`. -/
def handleBegin (id : DeviceId) (msg : Message) (r : Record) : Verdict :=
  match msg.snapshotId, msg.total, msg.capabilityRevision with
  | some snapshotId, some total, some revision =>
      if !messageDeviceMatches id msg ∨ DEVICE_SCHEMA_MAX_TOOLS < total.toNat ∨
          DEVICE_SCHEMA_MAX_FEATURES < (msg.featureTotal.getD 0).toNat ∨
          r.operationState ≠ .running then .ignored
      else
        .stored { r with
          staging := openStaging id msg snapshotId revision
          stagingExpectedTools := total.toNat
          stagingExpectedFeatures := (msg.featureTotal.getD 0).toNat
          stagingActive := true }
  | _, _, _ => .ignored

/-- The tool in a `capability_item`. -/
def Message.tool (msg : Message) (valueType : UInt8) : Tool :=
  { command := msg.command
    label := if msg.capabilityLabel.text ≠ [] then msg.capabilityLabel
      else strlcpy GW_MSG_CAP_LABEL_LEN msg.command.text
    unit := msg.capabilityUnit
    valueType := valueType
    flags := msg.capabilityFlags.getD 0
    minValue := msg.minValue
    maxValue := msg.maxValue
    step := msg.step }

/-- `handle_tool_item`. -/
def handleToolItem (id : DeviceId) (msg : Message) (r : Record) : Verdict :=
  match msg.snapshotId, msg.valueType with
  | some snapshotId, some valueType =>
      let tool := msg.tool valueType
      if !messageDeviceMatches id msg ∨ !msg.hasSequence then .ignored
      else if tool.valueType = VALUE_TYPE_INT ∧
          (!msg.hasMinValue ∨ !msg.hasMaxValue ∨ !msg.hasStep) then .ignored
      else if !validTool tool then .ignored
      else if r.stagingActive ∧ r.staging.snapshotId = snapshotId ∧
          msg.sequence.toNat = r.staging.tools.length ∧
          r.staging.tools.length < r.stagingExpectedTools ∧
          ∀ t ∈ r.staging.tools, t.command ≠ tool.command then
        .stored { r with staging := { r.staging with tools := r.staging.tools ++ [tool] } }
      else .rejected
  | _, _ => .ignored

/-- The feature in a `feature_item`, as yet without a writable tool. -/
def Message.feature (msg : Message) (featureId : FeatureId)
    (featureType propertyId valueType : UInt8) :
    Feature :=
  { featureId := featureId
    title := if msg.capabilityLabel.text ≠ [] then msg.capabilityLabel
      else strlcpy GW_MSG_CAP_LABEL_LEN featureId.text
    unit := msg.capabilityUnit
    featureType := featureType
    featureSchemaVersion := msg.featureSchemaVersion.getD 0
    featureFlags := msg.featureFlags.getD 0
    propertyId := propertyId
    valueType := valueType
    decimals := msg.featureDecimals.getD 0
    writableToolIndex := -1 }

/-- The writable tool index of a feature: `none` when the frame names a tool that does not fit. -/
def writableTool (msg : Message) (tools : List Tool) (feature : Feature) : Option Int8 :=
  match msg.featureTool with
  | some featureTool =>
      if featureTool.text = [] then some feature.writableToolIndex
      else
        let i := resolveWritableTool tools featureTool
        if (toolAt tools i).any (validateFeatureTool feature) then some i else none
  | none => some feature.writableToolIndex

/-- `handle_feature_item`. -/
def handleFeatureItem (id : DeviceId) (msg : Message) (r : Record) : Verdict :=
  match msg.snapshotId, msg.featureId, msg.featureType, msg.propertyId, msg.valueType with
  | some snapshotId, some featureId, some featureType, some propertyId, some valueType =>
      let feature := msg.feature featureId featureType propertyId valueType
      if !messageDeviceMatches id msg ∨ !validFeatureId featureId ∨
          !featureMatchesTemplate feature then .ignored
      else if r.stagingActive ∧ r.staging.snapshotId = snapshotId ∧
          msg.sequence.toNat = r.stagingExpectedTools + r.staging.features.length ∧
          r.staging.features.length < r.stagingExpectedFeatures ∧
          ∀ f ∈ r.staging.features, f.featureId ≠ feature.featureId then
        match writableTool msg r.staging.tools feature with
        | some i =>
            let feature := { feature with writableToolIndex := i }
            .stored { r with
              staging := { r.staging with features := r.staging.features ++ [feature] } }
        | none => .rejected
      else .rejected
  | _, _, _, _, _ => .ignored

/-- The collected snapshot becomes the committed one. -/
def Record.commit (r : Record) : Record :=
  let staging := { r.staging with state := .ready }
  { r with
    staging := staging
    committed := staging
    hasCommitted := true
    stagingActive := false }

/-- The first critical section of `handle_end`. -/
def handleEnd (id : DeviceId) (msg : Message) (r : Record) : Verdict :=
  match msg.snapshotId, msg.total with
  | some snapshotId, some total =>
      if !messageDeviceMatches id msg then .ignored
      else if r.stagingActive ∧ r.staging.snapshotId = snapshotId ∧
          total.toNat = r.stagingExpectedTools ∧
          r.staging.tools.length = r.stagingExpectedTools ∧
          r.staging.features.length = r.stagingExpectedFeatures then
        .committed r.commit (!r.hasCommitted || !r.committed.contentEqual r.staging)
      else .rejected
  | _, _ => .ignored

/-- `schema_protocol_handle_message`, for the record of the device. -/
def handleMessage (id : DeviceId) (msg : Message) (r : Record) : Verdict :=
  if msg.type = cstr "capabilities_begin" then handleBegin id msg r
  else if msg.type = cstr "capability_item" then handleToolItem id msg r
  else if msg.type = cstr "feature_item" then handleFeatureItem id msg r
  else handleEnd id msg r

end BleGateway.DeviceSchema
