import BleGateway.DeviceSchema.Snapshot

set_option autoImplicit false

/-! # Exposure records

`mcp_tool_digest.c`, the helpers, `reconcile_device` and `boot_reconcile` of
`mcp_tool_exposure.c`, and the policy of `mcp_policy.c`, on the table of records. An array together
with its count is a list. The cryptographic hash is a parameter; its calls succeed. The table of
enabled tools is left out: no code enters anything into it.
-/

namespace BleGateway.McpExposure

open DeviceSchema

/-! ## Digests -/

/-- The bytes of a tool that `mcp_tool_digest_compute` hashes. -/
def toolBytes (tool : Tool) : List UInt8 :=
  tool.command.text ++ [0] ++ [tool.valueType] ++ [tool.flags] ++
    littleEndian tool.minValue.toUInt32 ++ littleEndian tool.maxValue.toUInt32 ++
      littleEndian tool.step ++ tool.unit.text ++ [0]

/-! ## Records -/

/-- `MCP_EXP_NAMING_VERSION`. -/
def MCP_EXP_NAMING_VERSION : UInt8 := 3

/-- `mcp_exposure_state_t`. -/
inductive ExposureState
  | enabled | needsReview | orphaned
  deriving DecidableEq

/-- `mcp_exposure_reason_t`. -/
inductive ExposureReason
  | none | capabilityChanged | commandMissing | deviceMissing | policyBlocked | persistDirty
  deriving DecidableEq

/-- `mcp_exposure_persisted_record_t`, with the two flags of its `flags`. -/
structure Record (δ : Type) where
  deviceId : DeviceId
  command : CommandName
  state : ExposureState := .enabled
  reason : ExposureReason := .none
  namingVersion : UInt8 := MCP_EXP_NAMING_VERSION
  /-- `MCP_EXP_FLAG_FEATURE_BOUND`. -/
  featureBound : Bool := false
  /-- `MCP_EXP_FLAG_USER_DISABLED`. -/
  userDisabled : Bool := false
  featureId : FeatureId := .empty
  digest : δ
  deriving DecidableEq

/-- What is fixed when the gateway is built: the truncated hash, whether destructive tools can be
enabled, and `CONFIG_MCP_EXPOSURE_RECORD_MAX`. -/
structure Build (δ : Type) where
  hash : List UInt8 → δ
  allowDestructive : Bool := false
  recordMax : Nat := 96

variable {δ : Type} [DecidableEq δ]

/-- `mcp_tool_digest_compute`. -/
def Build.digest (b : Build δ) (tool : Tool) : δ := b.hash (toolBytes tool)

abbrev Table (δ : Type) := List (Record δ)

namespace Table

/-- `find_persisted`. -/
def find (t : Table δ) (d : DeviceId) (command : CommandName) : Option Nat :=
  t.findIdx? fun r => r.deviceId = d && r.command = command

/-- `find_persisted_by_feature`. -/
def findByFeature (t : Table δ) (d : DeviceId) (f : FeatureId) : Option Nat :=
  if f.text = [] then none else t.findIdx? fun r => r.deviceId = d && r.featureId = f

/-- The record that `mcp_tool_exposure_get_feature` reads. -/
def getFeature (t : Table δ) (d : DeviceId) (f : FeatureId) : Option (Record δ) :=
  t.find? fun r => r.deviceId = d && (r.featureId.text ≠ [] && r.featureId = f)

end Table

/-! ## Reconciling a device -/

/-- A record that is enabled is so no longer. -/
def Record.demote (r : Record δ) (state : ExposureState) (reason : ExposureReason) : Record δ :=
  if r.state = .enabled then { r with state := state, reason := reason } else r

/-- The first loop of `reconcile_device`, for one record of the device. -/
def Record.review (b : Build δ) (cap : Option Snapshot) (r : Record δ) : Record δ :=
  match cap with
  | none => r.demote .needsReview .deviceMissing
  | some s =>
      if s.tools = [] then r.demote .needsReview .deviceMissing
      else
        match s.tools.find? fun tool => tool.command = r.command with
        | none => r.demote .orphaned .commandMissing
        | some tool =>
            let r' := if b.digest tool ≠ r.digest then
                r.demote .needsReview .capabilityChanged
              else r
            let r' := { r' with digest := b.digest tool }
            if r'.state = .orphaned then { r' with state := .needsReview, reason := .none } else r'

/-- The record that is created for a writable feature with a template. -/
def Record.semantic (b : Build δ) (d : DeviceId) (f : FeatureId) (tool : Tool) : Record δ :=
  { deviceId := d
    command := tool.command
    featureBound := true
    featureId := f
    digest := b.digest tool }

/-- An existing record of a writable feature. -/
def Record.refresh (b : Build δ) (tool : Tool) (r : Record δ) : Record δ :=
  let r' := if r.namingVersion < MCP_EXP_NAMING_VERSION then
      { r with command := tool.command, namingVersion := MCP_EXP_NAMING_VERSION }
    else r
  -- a digest change requires explicit review
  let r' := if b.digest tool ≠ r'.digest then
      { r' with state := .needsReview, reason := .capabilityChanged }
    else r'
  { r' with featureBound := true, digest := b.digest tool }

/-- The first raw record of the command is marked as bound to a feature. -/
def Table.markBound (t : Table δ) (d : DeviceId) (command : CommandName) : Table δ :=
  match t.findIdx? fun r => r.deviceId = d && (r.command = command && r.featureId.text = []) with
  | some i => t.modify i fun r => { r with featureBound := true }
  | none => t

/-- The writable tool of a feature that the semantic loop looks at. -/
def semanticTool (s : Snapshot) (feature : Feature) : Option Tool :=
  if feature.featureId.text = [] then none
  else if (templateResolve feature.featureType feature.featureSchemaVersion).isNone then none
  else toolAt s.tools feature.writableToolIndex

/-- The second loop of `reconcile_device`, for one feature. -/
def Table.bindFeature (b : Build δ) (d : DeviceId) (s : Snapshot) (t : Table δ)
    (feature : Feature) : Table δ :=
  match semanticTool s feature with
  | none => t
  | some tool =>
      match t.findByFeature d feature.featureId with
      | some i => Table.markBound (t.modify i (·.refresh b tool)) d tool.command
      | none =>
          -- without room the loop goes on with the next feature
          if b.recordMax ≤ t.length then t
          else Table.markBound (t ++ [.semantic b d feature.featureId tool]) d tool.command

/-- The feature of the record is still in the schema. -/
def Record.featureExists (cap : Option Snapshot) (r : Record δ) : Bool :=
  match cap with
  | none => false
  | some s => s.features.any fun f => f.featureId = r.featureId

/-- The third loop of `reconcile_device` leaves the record. -/
def Record.stays (cap : Option Snapshot) (d : DeviceId) (r : Record δ) : Bool :=
  r.deviceId ≠ d || (r.featureId.text = [] || r.featureExists cap)

/-- The third loop of `reconcile_device` removes the records of features that are gone. -/
def Table.unbindStale (cap : Option Snapshot) (d : DeviceId) (t : Table δ) : Table δ :=
  t.filter (·.stays cap d)

/-- The first loop of `reconcile_device`. -/
def Table.reviewed (b : Build δ) (cap : Option Snapshot) (d : DeviceId) (t : Table δ) : Table δ :=
  t.map fun r => if r.deviceId = d then r.review b cap else r

/-- The first two loops of `reconcile_device`. -/
def Table.bound (b : Build δ) (cap : Option Snapshot) (d : DeviceId) (t : Table δ) : Table δ :=
  match cap with
  | none => t.reviewed b cap d
  | some s => s.features.foldl (Table.bindFeature b d s) (t.reviewed b cap d)

/-- `reconcile_device`, with the committed snapshot of the device if there is one. -/
def Table.reconcile (b : Build δ) (cap : Option Snapshot) (d : DeviceId) (t : Table δ) : Table δ :=
  Table.unbindStale cap d (t.bound b cap d)

/-! ## Reconciling at boot -/

/-- A record of an older naming version is bound to the feature that its command belongs to. -/
def Record.migrate (cap : Option Snapshot) (r : Record δ) : Record δ :=
  if MCP_EXP_NAMING_VERSION ≤ r.namingVersion then r
  else
    match cap with
    | none => r
    | some s =>
        match s.features.find? fun f => f.featureId.text ≠ [] &&
            (toolAt s.tools f.writableToolIndex).any fun tool => tool.command = r.command with
        | some f =>
            { r with
              featureId := f.featureId
              namingVersion := MCP_EXP_NAMING_VERSION
              featureBound := true }
        | none =>
            if r.featureId.text = [] then { r with namingVersion := MCP_EXP_NAMING_VERSION } else r

/-- The second loop of `boot_reconcile`, for one record; `stored` is whether the device store has
the device. -/
def Record.boot (b : Build δ) (stored : Bool) (cap : Option Snapshot) (r : Record δ) : Record δ :=
  if !stored then { r with state := .orphaned, reason := .deviceMissing }
  else
    match cap with
    | none => { r with state := .needsReview, reason := .deviceMissing }
    | some s =>
        if s.tools = [] then { r with state := .needsReview, reason := .deviceMissing }
        else
          match s.tools.findIdx? fun tool => tool.command = r.command with
          | none => { r with state := .orphaned, reason := .commandMissing }
          | some c =>
              let digest := b.digest (s.tools.getD c {})
              if r.state = .enabled ∧ digest = r.digest then
                { r with
                  namingVersion := MCP_EXP_NAMING_VERSION
                  featureBound := r.featureBound || s.features.any fun f =>
                    f.featureId = r.featureId && f.writableToolIndex = Int8.ofNat c }
              else if digest ≠ r.digest then
                { r with state := .needsReview, reason := .capabilityChanged, digest := digest }
              else r

/-- `boot_reconcile`. -/
def Table.bootReconcile (b : Build δ) (stored : DeviceId → Bool) (cap : DeviceId → Option Snapshot)
    (t : Table δ) : Table δ :=
  t.map fun r => (r.migrate (cap r.deviceId)).boot b (stored r.deviceId) (cap r.deviceId)

/-! ## The policy -/

/-- `mcp_policy_result_t`. -/
inductive PolicyResult
  | allow | denyCommand | denyDestructive | deviceUnavailable | capabilityUnknown
  deriving DecidableEq

/-- `DEVICE_SCHEMA_FLAG_DESTRUCTIVE`. -/
def DEVICE_SCHEMA_FLAG_DESTRUCTIVE : UInt8 := 2

/-- `mcp_policy_check_feature_control`. -/
def checkFeatureControl (b : Build δ) (t : Table δ) (stored : Bool) (cap : Option Snapshot)
    (d : DeviceId) (f : FeatureId) (resolvedTool : Tool) : PolicyResult :=
  if !stored then .deviceUnavailable
  else
    match cap with
    | none => .capabilityUnknown
    | some s =>
        match s.features.find? fun feature => feature.featureId = f with
        | none => .capabilityUnknown
        | some feature =>
            match toolAt s.tools feature.writableToolIndex with
            | none => .denyCommand
            | some _ =>
                match t.getFeature d f with
                | none => .denyCommand
                | some r =>
                    if r.userDisabled || !r.featureBound then .denyCommand
                    else if r.state ≠ .enabled then .capabilityUnknown
                    else if b.digest resolvedTool ≠ r.digest then .capabilityUnknown
                    else if resolvedTool.flags &&& DEVICE_SCHEMA_FLAG_DESTRUCTIVE ≠ 0 then
                      .denyDestructive
                    else .allow

end BleGateway.McpExposure
