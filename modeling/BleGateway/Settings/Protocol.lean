import BleGateway.Settings.Memory
import BleGateway.Lib.Directory

set_option autoImplicit false

/-! # The settings streams

`device_settings_protocol.c` and the device records of `device_settings.c`. A device describes
its settings, and later their values, in streams of frames: a begin, the items, an end. A frame
is handled as a whole, and so are a disconnect, a forget and a capability report.

A handler gives the new state and what it calls in other components, in order. It depends on
whether its memory can be allocated (`alloc`) and its mutex taken in time (`locked`). The reasons
of a reject only go to the log.
-/

namespace BleGateway.Settings

def GW_PROTOCOL_VERSION : UInt8 := 4
def GW_SETTINGS_CBOR_MAX_ID_LEN : Nat := 32

instance : NeZero DEVICE_SETTINGS_MAX_DEVICES := ⟨by decide⟩

def GW_SETTING_FLAG_READONLY : UInt16 := 1
def GW_SETTING_FLAG_SECRET : UInt16 := 2
def GW_SETTING_FLAG_ADVANCED : UInt16 := 4

def GW_SETTINGS_CMD_DESCRIBE_SETTINGS : CString := cstr "describe_settings"

/-! ## Messages -/

/-- The settings messages, and all others. -/
inductive MsgType
  | settingsBegin | settingsItem | settingsOptionItem | settingsEnd
  | valuesBegin | valuesValue | valuesEnd
  | other
  deriving DecidableEq

/-- The union `setting_value`: the decoder fills the member that the setting type names. -/
inductive SettingValue
  | bool (v : Bool)
  | int (v : Int32)
  | enum (v : UInt8)
  | string (v : Text GW_SETTINGS_VALUE_MAX_LEN)
  deriving DecidableEq

namespace SettingValue

def asBool : SettingValue → Bool
  | bool v => v
  | _ => false

def asInt : SettingValue → Int32
  | int v => v
  | _ => 0

def asEnum : SettingValue → UInt8
  | enum v => v
  | _ => 0

def asString : SettingValue → CString
  | string v => v.text
  | _ => []

/-- What `strlen` and a copy see of a string lies in front of the first NUL. -/
theorem noNul_asString (v : SettingValue) : (0 : UInt8) ∉ v.asString := by
  cases v with
  | string t => exact t.noNul
  | bool | int | enum => simp [asString]

end SettingValue

/-- The fields of `gw_message_t` that a settings stream uses; a field with a `has_` flag is
`none` without it. -/
structure Message where
  protocolVersion : UInt8 := GW_PROTOCOL_VERSION
  type : MsgType
  command : CharBuf DEVICE_COMMAND_MAX_LEN := .empty
  requestId : Option UInt32 := none
  total : Option UInt16 := none
  minValue : Option Int32 := none
  maxValue : Option Int32 := none
  step : Option UInt32 := none
  settingTitle : Text GW_MSG_CAP_LABEL_LEN := .empty
  settingUnit : Text GW_MSG_CAP_UNIT_LEN := .empty
  settingGroup : Option (Text DEVICE_FEATURE_ID_MAX_LEN) := none
  capabilityRevision : Option UInt32 := none
  settingsSchemaRevision : Option UInt16 := none
  settingId : Option (Text GW_SETTINGS_CBOR_MAX_ID_LEN) := none
  settingType : Option UInt8 := none
  settingFlags : Option UInt16 := none
  settingValue : Option SettingValue := none
  settingsOptionIndex : Option UInt8 := none
  settingsMaxLength : Option UInt16 := none
  settingsOptionCount : Option UInt16 := none
  settingsSequence : Option UInt16 := none
  deriving DecidableEq

/-- The id in a frame, when there is one and it is not empty. -/
def Message.id? (msg : Message) : Option (Text GW_SETTINGS_CBOR_MAX_ID_LEN) :=
  msg.settingId.filter fun id => id.text ≠ []

def Message.groupText (msg : Message) : CString :=
  match msg.settingGroup with
  | some group => group.text
  | none => []

/-! ## Records and streams -/

inductive SchemaState
  | unknown | discovering | ready | unsupported | error
  deriving DecidableEq

/-- `ds_device_record_t`; the default value is the one `memset` leaves. -/
structure DeviceRecord where
  used : Bool := false
  deviceId : DeviceId := .empty
  schemaState : SchemaState := .unknown
  schema : Option Schema := none
  values : Option Values := none
  schemaRev : UInt32 := 0
  configRev : UInt32 := 0
  stagingExpectedCount : Nat := 0
  stagingReceivedCount : Nat := 0
  stagingSnapshotId : UInt32 := 0
  advertisedSchemaRev : UInt16 := 0
  schemaStreamActive : Bool := false
  valuesStreamActive : Bool := false
  pendingReconciliation : Bool := false
  reconciliationExpectedRev : UInt32 := 0
  reconciliationOldRev : UInt32 := 0
  deriving DecidableEq

/-- The schema state of a record outside a stream. -/
def DeviceRecord.settledState (r : DeviceRecord) : SchemaState :=
  if r.schema.isSome then .ready else .error

/-- `s_schema_builder`, `s_schema_owner`, `s_schema_request_id` and `s_declared_option_count`:
they are set up and discarded together. The owner is not empty while there is a builder, and an
item that declares no options has no entry in the counts. -/
structure SchemaStream where
  owner : DeviceId
  builder : SchemaBuilder
  requestId : UInt32
  declaredOptionCount : Nat → Option Nat := fun _ => none

/-- `s_values_builder`, `s_values_owner`, `s_values_request_id` and
`s_values_config_revision`. -/
structure ValuesStream where
  owner : DeviceId
  builder : ValuesBuilder
  requestId : UInt32
  configRevision : UInt32

/-- An index into the device records. -/
abbrev Rx := Fin DEVICE_SETTINGS_MAX_DEVICES

/-- The static variables of the two files. -/
structure Protocol where
  records : Rx → DeviceRecord := fun _ => {}
  schemaStream : Option SchemaStream := none
  valuesStream : Option ValuesStream := none

inductive SettingsEventState
  | unknown | discovering | reading | ready | unsupported | error
  deriving DecidableEq

/-- What a handler does outside the state of the streams. The two commits are done when they
are listed. -/
inductive Effect
  | publishState (id : DeviceId) (state : SettingsEventState) (schemaRev configRev : UInt32)
  | publishChanged (id : DeviceId) (configRev : UInt32)
  | publishReconnecting (id : DeviceId)
  | commitSchema (id : DeviceId) (schema : Schema)
  | commitValues (id : DeviceId) (values : Values)
  | valuesComplete (id : DeviceId) (success : Bool)
  | reconcile (id : DeviceId)
  | describe (id : DeviceId)
  | get (id : DeviceId)
  | workerDisconnect (id : DeviceId)
  | cancel (id : DeviceId)
  | txCancel (id : DeviceId)
  deriving DecidableEq

namespace Protocol

def setRecord (s : Protocol) (i : Rx) (r : DeviceRecord) : Protocol :=
  { s with records := Function.update s.records i r }

/-- `device_settings_find_record`. -/
def findRecord (s : Protocol) (id : DeviceId) : Option Rx :=
  if id.text = [] then none
  else Directory.lookup DeviceRecord.used DeviceRecord.deviceId s.records id

/-- `device_settings_find_or_create_record`. -/
def findOrCreateRecord (s : Protocol) (id : DeviceId) : Option (Protocol × Rx) :=
  if id.text = [] then none
  else
    match s.findRecord id with
    | some i => some (s, i)
    | none =>
        (Directory.vacant DeviceRecord.used s.records).map fun i =>
          (s.setRecord i { used := true, deviceId := id }, i)

/-! ## Schema streams -/

/-- `schema_reject`. -/
def schemaReject (s : Protocol) (id : DeviceId) (i : Rx) : Protocol × List Effect :=
  let r := s.records i
  if r.schemaStreamActive ∧ (s.schemaStream.map (·.owner)) = some id then
    ({ s.setRecord i { r with
        schemaStreamActive := false
        schemaState := r.settledState
        stagingExpectedCount := 0
        stagingReceivedCount := 0 } with schemaStream := none },
      [.publishState id .error r.schemaRev r.configRev])
  else (s, [])

/-- `schema_frame_matches`: the record and the stream that the frame belongs to, or how the
frame ends here. -/
def schemaFrameMatches (s : Protocol) (id : DeviceId) (msg : Message) :
    Except (Protocol × List Effect) (Rx × SchemaStream) :=
  match s.findRecord id, s.schemaStream with
  | some i, some stream =>
      if !(s.records i).schemaStreamActive then .error (s, [])
      else if stream.owner ≠ id then .error (s, [])
      else if msg.requestId ≠ some stream.requestId then .error (s.schemaReject id i)
      else .ok (i, stream)
  | _, _ => .error (s, [])

/-- `handle_begin`. -/
def handleBegin (s : Protocol) (id : DeviceId) (msg : Message) (alloc : Bool) :
    Protocol × List Effect :=
  match msg.requestId, msg.total with
  | some requestId, some total =>
      if msg.protocolVersion ≠ GW_PROTOCOL_VERSION ∨
          msg.command.text ≠ GW_SETTINGS_CMD_DESCRIBE_SETTINGS then (s, [])
      else if total.toNat > DEVICE_SETTINGS_MAX_SETTINGS then (s, [])
      else if s.schemaStream.isSome then (s, [])
      else
        match s.findOrCreateRecord id with
        | none => (s, [])
        | some (s, i) =>
            let r := s.records i
            if alloc then
              let revision := match msg.settingsSchemaRevision with
                | some revision => revision.toUInt32
                | none => r.advertisedSchemaRev.toUInt32
              ({ s.setRecord i { r with
                  schemaState := .discovering
                  schemaStreamActive := true
                  stagingExpectedCount := total.toNat
                  stagingReceivedCount := 0 } with
                schemaStream := some { owner := id, builder := .init revision, requestId } },
                [.publishState id .discovering revision r.configRev])
            else
              (s.setRecord i { r with schemaState := r.settledState },
                [.publishState id .error r.schemaRev r.configRev])
  | _, _ => (s, [])

/-- `translate_wire_flags`. -/
def translateWireFlags (wireFlags : UInt16) : UInt16 :=
  (if wireFlags &&& GW_SETTING_FLAG_READONLY = 0 then DS_FLAG_WRITABLE else 0) |||
    (if wireFlags &&& GW_SETTING_FLAG_SECRET ≠ 0 then DS_FLAG_SECRET else 0) |||
    (if wireFlags &&& GW_SETTING_FLAG_ADVANCED ≠ 0 then DS_FLAG_ADVANCED else 0)

/-- A text that is stored only when it is not empty. -/
def addText (pool : StringPool) (str : CString) (otherwise : Nat) : Option (StringPool × Nat) :=
  if str ≠ [] then pool.add str else some (pool, otherwise)

/-- The texts of an item, and a descriptor with their offsets. -/
def addItemTexts (pool : StringPool) (settingId : CString) (msg : Message) :
    Option (StringPool × SettingDesc) := do
  let (pool, idOff) ← pool.add settingId
  let (pool, titleOff) ← addText pool msg.settingTitle.text idOff
  let (pool, groupOff) ← addText pool msg.groupText 0
  let (pool, unitOff) ← addText pool msg.settingUnit.text 0
  return (pool, { idOff, titleOff, groupOff, unitOff })

/-- The options an item may declare. -/
def optionCountAllowed (msg : Message) (type : UInt8) : Bool :=
  match msg.settingsOptionCount with
  | some count => decide (count.toNat ≤ DEVICE_SETTINGS_MAX_ENUM_OPTS ∧ type = DS_TYPE_ENUM)
  | none => true

/-- The checks of `handle_item` and what it adds to the builder; `none` is a reject. -/
def acceptItem (r : DeviceRecord) (stream : SchemaStream) (msg : Message) :
    Option SchemaStream := do
  let total ← msg.total
  let sequence ← msg.settingsSequence
  let settingId ← msg.id?
  let type ← msg.settingType
  guard (DS_TYPE_BOOL ≤ type ∧ type ≤ DS_TYPE_ENUM)
  guard (total.toNat = r.stagingExpectedCount)
  guard (r.stagingReceivedCount < r.stagingExpectedCount)
  guard (sequence.toNat = r.stagingReceivedCount)
  guard (∀ d ∈ stream.builder.descriptors.take r.stagingReceivedCount,
    stream.builder.strings.get d.idOff ≠ settingId.text)
  let (strings, desc) ← addItemTexts stream.builder.strings settingId.text msg
  guard (optionCountAllowed msg type = true)
  let desc := { desc with
    type := type
    flags := translateWireFlags (msg.settingFlags.getD 0)
    maxLength := msg.settingsMaxLength.getD 0
    optionIndex := stream.builder.enumOptions.length
    minValue := msg.minValue.getD 0
    maxValue := msg.maxValue.getD 0
    step := msg.step.getD 0 }
  let builder ← { stream.builder with strings := strings }.addSetting desc
  return { stream with
    builder := builder
    declaredOptionCount := match msg.settingsOptionCount with
      | some count => Function.update stream.declaredOptionCount sequence.toNat (some count.toNat)
      | none => stream.declaredOptionCount }

/-- `handle_item`. -/
def handleItem (s : Protocol) (id : DeviceId) (msg : Message) : Protocol × List Effect :=
  match s.schemaFrameMatches id msg with
  | .error rejected => rejected
  | .ok (i, stream) =>
      let r := s.records i
      match acceptItem r stream msg with
      | none => s.schemaReject id i
      | some stream =>
          ({ s.setRecord i { r with stagingReceivedCount := r.stagingReceivedCount + 1 } with
            schemaStream := some stream }, [])

/-- The new option, appended at `optionSlot`, moves in front to `insertAt`, and the spans of the
other descriptors behind it move by one. -/
def moveOption (b : SchemaBuilder) (sequence optionSlot insertAt : Nat) : SchemaBuilder :=
  if insertAt < optionSlot then
    { b with
      enumOptions := b.enumOptions.take insertAt ++ b.enumOptions.drop optionSlot ++
        (b.enumOptions.drop insertAt).take (optionSlot - insertAt)
      descriptors := b.descriptors.mapIdx fun k d =>
        if k ≠ sequence ∧ 0 < d.optionCount ∧ insertAt ≤ d.optionIndex then
          { d with optionIndex := d.optionIndex + 1 }
        else d }
  else b

/-- The checks of `handle_option_item` and what it adds to the builder; `none` is a reject. -/
def acceptOption (r : DeviceRecord) (stream : SchemaStream) (msg : Message) :
    Option SchemaStream := do
  let sequence ← msg.settingsSequence
  let value ← msg.settingsOptionIndex
  guard (msg.settingTitle.text ≠ [])
  guard (sequence.toNat < r.stagingReceivedCount)
  let parent := stream.builder.descriptors.getD sequence.toNat {}
  guard (parent.type = DS_TYPE_ENUM)
  guard (parent.optionCount < DEVICE_SETTINGS_MAX_ENUM_OPTS)
  guard (∀ o ∈ (stream.builder.enumOptions.drop parent.optionIndex).take parent.optionCount,
    o.value ≠ value)
  let (builder, optionSlot) ← stream.builder.addEnumOption value msg.settingTitle.text
  let insertAt :=
    if parent.optionCount = 0 then optionSlot else parent.optionIndex + parent.optionCount
  let builder := moveOption builder sequence.toNat optionSlot insertAt
  let parent := { parent with
    optionIndex := if parent.optionCount = 0 then insertAt else parent.optionIndex
    optionCount := parent.optionCount + 1 }
  return { stream with
    builder := { builder with descriptors := builder.descriptors.set sequence.toNat parent } }

/-- `handle_option_item`. -/
def handleOptionItem (s : Protocol) (id : DeviceId) (msg : Message) : Protocol × List Effect :=
  match s.schemaFrameMatches id msg with
  | .error rejected => rejected
  | .ok (i, stream) =>
      match acceptOption (s.records i) stream msg with
      | none => s.schemaReject id i
      | some stream => ({ s with schemaStream := some stream }, [])

/-- Every item has as many options as it declared, if it did. -/
def optionCountsMatch (stream : SchemaStream) : Bool :=
  (List.range stream.builder.descriptors.length).all fun k =>
    match stream.declaredOptionCount k with
    | some count => count = (stream.builder.descriptors.getD k {}).optionCount
    | none => true

/-- `handle_end`. -/
def handleEnd (s : Protocol) (id : DeviceId) (msg : Message) (alloc locked : Bool) :
    Protocol × List Effect :=
  match s.schemaFrameMatches id msg with
  | .error rejected => rejected
  | .ok (i, stream) =>
      let r := s.records i
      if (msg.total.map (·.toNat)) ≠ some r.stagingExpectedCount ∨
          r.stagingReceivedCount ≠ r.stagingExpectedCount then s.schemaReject id i
      else if !optionCountsMatch stream then s.schemaReject id i
      else if !alloc then s.schemaReject id i
      -- `device_settings_commit_schema` finds the record that the frame matched
      else if !locked then s.schemaReject id i
      else
        let schema := stream.builder.commit
        ({ s.setRecord i { r with
            schema := some schema
            schemaRev := schema.schemaRevision
            schemaState := .ready
            schemaStreamActive := false } with schemaStream := none },
          [.commitSchema id schema,
            .publishState id .reading schema.schemaRevision r.configRev])

/-! ## Values streams -/

/-- `values_reject`. -/
def valuesReject (s : Protocol) (id : DeviceId) (i : Rx) : Protocol × List Effect :=
  let r := s.records i
  if r.valuesStreamActive ∧ (s.valuesStream.map (·.owner)) = some id then
    ({ s.setRecord i { r with
        valuesStreamActive := false
        stagingExpectedCount := 0
        stagingReceivedCount := 0 } with valuesStream := none },
      [.publishState id .error r.schemaRev r.configRev, .valuesComplete id false])
  else (s, [])

/-- `values_frame_matches`. -/
def valuesFrameMatches (s : Protocol) (id : DeviceId) (msg : Message) :
    Except (Protocol × List Effect) (Rx × ValuesStream) :=
  match s.findRecord id, s.valuesStream with
  | some i, some stream =>
      if !(s.records i).valuesStreamActive then .error (s, [])
      else if stream.owner ≠ id then .error (s, [])
      else if msg.requestId ≠ some stream.requestId then .error (s.valuesReject id i)
      else .ok (i, stream)
  | _, _ => .error (s, [])

/-- `find_descriptor`. -/
def findDescriptor (schema : Option Schema) (settingId : CString) : Option SettingDesc :=
  schema.bind fun schema => schema.descriptors.find? fun d => schema.idOf d = settingId

/-- `enum_value_allowed`. -/
def enumValueAllowed (schema : Option Schema) (desc : SettingDesc) (value : UInt8) : Bool :=
  match schema with
  | some schema =>
      ((schema.enumOptionPool.drop desc.optionIndex).take desc.optionCount).any fun o =>
        o.value = value
  | none => false

/-- `handle_values_begin`. -/
def handleValuesBegin (s : Protocol) (id : DeviceId) (msg : Message) (alloc : Bool) :
    Protocol × List Effect :=
  match msg.requestId, msg.total, msg.capabilityRevision with
  | some requestId, some total, some revision =>
      if msg.protocolVersion ≠ GW_PROTOCOL_VERSION then (s, [])
      else if s.valuesStream.isSome then (s, [])
      else
        match s.findRecord id with
        | none => (s, [])
        | some i =>
            let r := s.records i
            match r.schema with
            | none => (s, [])
            | some schema =>
                if r.schemaState ≠ .ready then (s, [])
                else if total.toNat > schema.settingCount then (s, [])
                else if !alloc then (s, [])
                else
                  ({ s.setRecord i { r with
                      valuesStreamActive := true
                      stagingExpectedCount := total.toNat
                      stagingReceivedCount := 0
                      stagingSnapshotId := 0 } with
                    valuesStream := some ⟨id, .init revision, requestId, revision⟩ },
                    [.publishState id .reading r.schemaRev r.configRev])
  | _, _, _ => (s, [])

/-- The `switch` of `handle_values_value` over the type of the value. -/
def enterValue (schema : Option Schema) (desc : SettingDesc) (pool : StringPool)
    (entry : ValueEntry) (type : UInt8) (value : SettingValue) :
    Option (StringPool × ValueEntry) :=
  if type = DS_TYPE_BOOL then some (pool, entry.setBool value.asBool)
  else if type = DS_TYPE_INT then some (pool, entry.setInt value.asInt)
  else if type = DS_TYPE_STRING then
    if value.asString.length > GW_SETTINGS_VALUE_MAX_LEN - 1 ∨
        (desc.maxLength ≠ 0 ∧ value.asString.length > desc.maxLength.toNat) then none
    else if entry.hasValue then
      (pool.add value.asString).map fun (pool, off) => (pool, entry.setStringOff off)
    else some (pool, entry)
  else if type = DS_TYPE_ENUM then
    if enumValueAllowed schema desc value.asEnum then some (pool, entry.setEnum value.asEnum)
    else none
  else none

/-- The checks of `handle_values_value` and what it adds to the builder; `none` is a reject. -/
def acceptValue (r : DeviceRecord) (stream : ValuesStream) (msg : Message) :
    Option ValuesStream := do
  let sequence ← msg.settingsSequence
  let settingId ← msg.id?
  let type ← msg.settingType
  let value ← msg.settingValue
  guard (r.stagingReceivedCount < r.stagingExpectedCount)
  guard (sequence.toNat = r.stagingReceivedCount)
  let desc ← findDescriptor r.schema settingId.text
  guard (desc.type = type)
  let (pool, idOff) ← stream.builder.stringPool.add settingId.text
  let entry : ValueEntry := { idOff, type, hasValue := !desc.isSecret }
  let (pool, entry) ← enterValue r.schema desc pool entry type value
  -- the raw value of a secret does not survive the frame
  let entry := if desc.isSecret then { entry with hasValue := false }.setBool false else entry
  let builder ← { stream.builder with stringPool := pool }.add entry
  return { stream with builder := builder }

/-- `handle_values_value`. -/
def handleValuesValue (s : Protocol) (id : DeviceId) (msg : Message) : Protocol × List Effect :=
  match s.valuesFrameMatches id msg with
  | .error rejected => rejected
  | .ok (i, stream) =>
      let r := s.records i
      match acceptValue r stream msg with
      | none => s.valuesReject id i
      | some stream =>
          ({ s.setRecord i { r with stagingReceivedCount := r.stagingReceivedCount + 1 } with
            valuesStream := some stream }, [])

/-- `handle_values_end`. -/
def handleValuesEnd (s : Protocol) (id : DeviceId) (msg : Message) (alloc locked : Bool) :
    Protocol × List Effect :=
  match s.valuesFrameMatches id msg with
  | .error rejected => rejected
  | .ok (i, stream) =>
      let r := s.records i
      match msg.total, msg.capabilityRevision with
      | some total, some revision =>
          if total.toNat ≠ r.stagingExpectedCount ∨
              r.stagingReceivedCount ≠ r.stagingExpectedCount then s.valuesReject id i
          else if revision ≠ stream.configRevision then s.valuesReject id i
          else if !alloc then s.valuesReject id i
          else if !locked then s.valuesReject id i
          else
            let values := stream.builder.commit
            ({ s.setRecord i { r with
                values := some values
                configRev := values.configRevision
                valuesStreamActive := false } with valuesStream := none },
              [.commitValues id values, .valuesComplete id true] ++
                (if r.pendingReconciliation then [.reconcile id] else []) ++
                [.publishState id .ready r.schemaRev values.configRevision,
                  .publishChanged id values.configRevision])
      | _, _ => s.valuesReject id i

/-! ## Entry points -/

/-- `device_settings_on_notify`. -/
def onNotify (s : Protocol) (id : DeviceId) (msg : Message) (alloc locked : Bool) :
    Protocol × List Effect :=
  match msg.type with
  | .settingsBegin => s.handleBegin id msg alloc
  | .settingsItem => s.handleItem id msg
  | .settingsOptionItem => s.handleOptionItem id msg
  | .settingsEnd => s.handleEnd id msg alloc locked
  | .valuesBegin => s.handleValuesBegin id msg alloc
  | .valuesValue => s.handleValuesValue id msg
  | .valuesEnd => s.handleValuesEnd id msg alloc locked
  | .other => (s, [])

/-- `device_settings_protocol_on_disconnect`, for one device. -/
def discardStreams (s : Protocol) (id : DeviceId) : Protocol :=
  { s with
    schemaStream := s.schemaStream.filter fun stream => stream.owner ≠ id
    valuesStream := s.valuesStream.filter fun stream => stream.owner ≠ id }

/-- `device_settings_on_disconnect`. -/
def onDisconnect (s : Protocol) (id : DeviceId) (locked : Bool) : Protocol × List Effect :=
  if id.text = [] then (s, [])
  else
    let s := s.discardStreams id
    if !locked then (s, [])
    else
      let s := match s.findRecord id with
        | some i =>
            s.setRecord i { s.records i with
              schemaStreamActive := false
              valuesStreamActive := false
              stagingExpectedCount := 0
              stagingReceivedCount := 0
              stagingSnapshotId := 0 }
        | none => s
      (s, [.workerDisconnect id])

/-- `device_settings_forget`; `relocked` is the answer of its own mutex. -/
def forget (s : Protocol) (id : DeviceId) (locked relocked : Bool) : Protocol × List Effect :=
  if id.text = [] then (s, [])
  else
    let (s, effects) := s.onDisconnect id locked
    let effects := effects ++ [.cancel id, .txCancel id]
    if !relocked then (s, effects)
    else
      match s.findRecord id with
      | some i => (s.setRecord i {}, effects)
      | none => (s, effects)

/-- `device_settings_on_capability`, up to the request it makes; when that request fails, the
state `error` is published. -/
def onCapability (s : Protocol) (id : DeviceId) (supported : Bool) (schemaRevision : UInt16)
    (locked : Bool) : Protocol × List Effect :=
  if id.text = [] ∨ !locked then (s, [])
  else
    match s.findOrCreateRecord id with
    | none => (s, [])
    | some (s, i) =>
        let r := s.records i
        if !supported then
          (s.setRecord i { r with schemaState := .unsupported },
            [.publishState id .unsupported r.schemaRev r.configRev])
        else
          let needsDescribe := r.schema.isNone || r.schemaRev != schemaRevision.toUInt32
          (s.setRecord i { r with
              advertisedSchemaRev := schemaRevision
              schemaState := if needsDescribe then .discovering else .ready },
            [.publishState id (if needsDescribe then .discovering else .reading)
                schemaRevision.toUInt32 r.configRev,
              .publishReconnecting id,
              if needsDescribe then .describe id else .get id])

/-- The transaction component changes the reconciliation fields of a record. -/
def setReconciliation (s : Protocol) (id : DeviceId) (pending : Bool)
    (expectedRev oldRev : UInt32) : Protocol :=
  match s.findRecord id with
  | some i =>
      s.setRecord i { s.records i with
        pendingReconciliation := pending
        reconciliationExpectedRev := expectedRev
        reconciliationOldRev := oldRev }
  | none => s

end Protocol

end BleGateway.Settings
