import BleGateway.CborCodec.Decode

/-! # What the decoder returns

`Decoded` says field by field which message belongs to a map, and `decodeMap_eq_some_iff` that the
decoder returns just this message.
-/

namespace BleGateway.CborCodec

open Settings (GW_PROTOCOL_VERSION GW_SETTINGS_CBOR_MAX_ID_LEN)
open Cbor (Item Entries)

/-- The message in a map. A text with two labels comes from the one that is read last. -/
structure Decoded (e : Entries) (m : GwMessage) : Prop where
  protocolVersion : required (getUInt64InMapN e CBOR_KEY_PROTOCOL_VERSION) (fun v =>
    if v = GW_PROTOCOL_VERSION.toNat then some (UInt8.ofNat v) else none) = some m.protocolVersion
  type : required (getTextStringInMapN e CBOR_KEY_TYPE) (copyText GW_MSG_TYPE_LEN false) =
    some m.type
  command : required (getTextStringInMapN e CBOR_KEY_COMMAND)
    (copyText DEVICE_COMMAND_MAX_LEN false) = some m.command
  intValue : required (getInt64InMapN e CBOR_KEY_INT_VALUE) checkInt = some m.intValue
  boolValue : ∃ b, required (getBoolInMapN e CBOR_KEY_BOOL_VALUE) some = some b ∧
    m.boolValue = if b then 1 else 0
  hasIntValue : m.hasIntValue = true
  hasBoolValue : m.hasBoolValue = true
  requestId : optionalUInt32 e CBOR_KEY_REQUEST_ID 1 = some m.requestId
  deviceId : optionalText e CBOR_KEY_DEVICE_ID DEVICE_ID_MAX_LEN false = some m.deviceId
  name : ∃ t, optionalText e CBOR_KEY_NAME DEVICE_NAME_MAX_LEN true = some t ∧
    m.name = t.getD .empty
  bleAddr : decodeBleAddr e = some m.bleAddr
  snapshotId : optionalUInt32 e CBOR_KEY_SNAPSHOT_ID 1 = some m.snapshotId
  sequence : optionalUInt16 e CBOR_KEY_SEQUENCE = some m.sequence
  total : optionalUInt16 e CBOR_KEY_TOTAL = some m.total
  valueType : optionalUInt8 e CBOR_KEY_VALUE_TYPE = some m.valueType
  capabilityFlags : optionalUInt8 e CBOR_KEY_CAPABILITY_FLAGS = some m.capabilityFlags
  minValue : optionalInt32 e CBOR_KEY_MIN_VALUE = some m.minValue
  maxValue : optionalInt32 e CBOR_KEY_MAX_VALUE = some m.maxValue
  step : optionalUInt32 e CBOR_KEY_STEP 0 = some m.step
  capabilityRevision : optionalUInt32 e CBOR_KEY_CAPABILITY_REVISION 0 = some m.capabilityRevision
  label : ∃ label title,
    optionalText e CBOR_KEY_CAPABILITY_LABEL GW_MSG_CAP_LABEL_LEN true = some label ∧
    optionalText e GW_KEY_SETTINGS_TITLE GW_MSG_CAP_LABEL_LEN true = some title ∧
    m.capabilityLabel = title.getD (label.getD .empty)
  unit : ∃ unit settingUnit,
    optionalText e CBOR_KEY_CAPABILITY_UNIT GW_MSG_CAP_UNIT_LEN true = some unit ∧
    optionalText e GW_KEY_SETTINGS_UNIT GW_MSG_CAP_UNIT_LEN true = some settingUnit ∧
    m.capabilityUnit = settingUnit.getD (unit.getD .empty)
  featureId : ∃ id group,
    optionalText e CBOR_KEY_FEATURE_ID DEVICE_FEATURE_ID_MAX_LEN false = some id ∧
    optionalText e GW_KEY_SETTINGS_GROUP DEVICE_FEATURE_ID_MAX_LEN true = some group ∧
    m.hasFeatureId = id.isSome ∧ m.hasSettingGroup = group.isSome ∧
    m.featureId = group.getD (id.getD .empty)
  featureType : optionalUInt8 e CBOR_KEY_FEATURE_TYPE = some m.featureType
  featureSchemaVersion :
    optionalUInt16 e CBOR_KEY_FEATURE_SCHEMA_VERSION = some m.featureSchemaVersion
  featureFlags : optionalUInt16 e CBOR_KEY_FEATURE_FLAGS = some m.featureFlags
  propertyId : optionalUInt8 e CBOR_KEY_PROPERTY_ID = some m.propertyId
  featureValueBool : optionalBool e CBOR_KEY_FEATURE_VALUE_BOOL = some m.featureValueBool
  featureValueInt : optionalInt32 e CBOR_KEY_FEATURE_VALUE_INT = some m.featureValueInt
  featureTool : ∃ t, optionalText e CBOR_KEY_FEATURE_TOOL DEVICE_COMMAND_MAX_LEN true = some t ∧
    m.hasFeatureTool = t.isSome ∧ m.featureTool = t.getD .empty
  featureTotal : optionalUInt16 e CBOR_KEY_FEATURE_TOTAL = some m.featureTotal
  featureDecimals : optionalUInt8 e CBOR_KEY_FEATURE_DECIMALS = some m.featureDecimals
  settingsSupported :
    optionalUInt e GW_KEY_SETTINGS_SUPPORTED 0 1 (· != 0) = some m.settingsSupported
  settingsSchemaRevision :
    optionalUInt16 e GW_KEY_SETTINGS_SCHEMA_REVISION = some m.settingsSchemaRevision
  settingId :
    optionalText e GW_KEY_SETTINGS_ID GW_SETTINGS_CBOR_MAX_ID_LEN false = some m.settingId
  settingType : ∃ type value,
    optionalUInt e GW_KEY_SETTINGS_TYPE 0 GW_SETTING_TYPE_ENUM.toNat UInt8.ofNat = some type ∧
    decodeSettingValue e type = some value ∧
    m.hasSettingType = type.isSome ∧ m.settingType = type.getD 0 ∧
    m.hasSettingValue = value.isSome ∧ m.settingValue = value.getD {}
  settingFlags : optionalUInt16 e GW_KEY_SETTINGS_FLAGS = some m.settingFlags
  settingsTransactionId :
    optionalUInt e GW_KEY_SETTINGS_TRANSACTION_ID 0 UINT64_MAX UInt64.ofNat =
      some m.settingsTransactionId
  settingsExpectedRevision :
    optionalUInt32 e GW_KEY_SETTINGS_EXPECTED_REVISION 0 = some m.settingsExpectedRevision
  settingsNewRevision :
    optionalUInt32 e GW_KEY_SETTINGS_NEW_REVISION 0 = some m.settingsNewRevision
  settingsOptionIndex : optionalUInt8 e GW_KEY_SETTINGS_OPTION_INDEX = some m.settingsOptionIndex
  settingsMaxLength : optionalUInt16 e GW_KEY_SETTINGS_MAX_LENGTH = some m.settingsMaxLength
  settingsOptionCount :
    optionalUInt16 e GW_KEY_SETTINGS_OPTION_COUNT = some m.settingsOptionCount
  settingsSequence : optionalUInt16 e GW_KEY_SETTINGS_SEQUENCE = some m.settingsSequence

theorem exists_of_bind {α β : Type} {x : Option α} {f : α → Option β} {b : β}
    (h : (x >>= f) = some b) : ∃ a, x = some a ∧ f a = some b :=
  Option.bind_eq_some_iff.mp h

variable {e : Entries} {m : GwMessage}

/-- A message that the decoder returns has the values of its map. -/
theorem decoded_of_decodeMap (h : decodeMap e = some m) :
    Decoded e m := by
  obtain ⟨base, hbase, h⟩ := exists_of_bind h
  obtain ⟨feature, hfeature, hsettings⟩ := exists_of_bind h
  obtain ⟨protocolVersion, hversion, hbase⟩ := exists_of_bind hbase
  obtain ⟨type, htype, hbase⟩ := exists_of_bind hbase
  obtain ⟨command, hcommand, hbase⟩ := exists_of_bind hbase
  obtain ⟨intValue, hint, hbase⟩ := exists_of_bind hbase
  obtain ⟨boolValue, hbool, hbase⟩ := exists_of_bind hbase
  obtain ⟨requestId, hrequest, hbase⟩ := exists_of_bind hbase
  obtain ⟨deviceId, hdevice, hbase⟩ := exists_of_bind hbase
  obtain ⟨name, hname, hbase⟩ := exists_of_bind hbase
  obtain ⟨bleAddr, haddr, hbase⟩ := exists_of_bind hbase
  obtain ⟨snapshotId, hsnapshot, hbase⟩ := exists_of_bind hbase
  obtain ⟨sequence, hsequence, hbase⟩ := exists_of_bind hbase
  obtain ⟨total, htotal, hbase⟩ := exists_of_bind hbase
  obtain ⟨valueType, hvalueType, hbase⟩ := exists_of_bind hbase
  obtain ⟨flags, hflags, hbase⟩ := exists_of_bind hbase
  obtain ⟨minValue, hmin, hbase⟩ := exists_of_bind hbase
  obtain ⟨maxValue, hmax, hbase⟩ := exists_of_bind hbase
  obtain ⟨step, hstep, hbase⟩ := exists_of_bind hbase
  obtain ⟨label, hlabel, hbase⟩ := exists_of_bind hbase
  obtain ⟨unit, hunit, hbase⟩ := exists_of_bind hbase
  obtain ⟨revision, hrevision, hbase⟩ := exists_of_bind hbase
  cases hbase
  obtain ⟨featureId, hfeatureId, hfeature⟩ := exists_of_bind hfeature
  obtain ⟨featureType, hfeatureType, hfeature⟩ := exists_of_bind hfeature
  obtain ⟨version, hschema, hfeature⟩ := exists_of_bind hfeature
  obtain ⟨featureFlags, hfeatureFlags, hfeature⟩ := exists_of_bind hfeature
  obtain ⟨propertyId, hproperty, hfeature⟩ := exists_of_bind hfeature
  obtain ⟨valueBool, hvalueBool, hfeature⟩ := exists_of_bind hfeature
  obtain ⟨valueInt, hvalueInt, hfeature⟩ := exists_of_bind hfeature
  obtain ⟨tool, htool, hfeature⟩ := exists_of_bind hfeature
  obtain ⟨featureTotal, hfeatureTotal, hfeature⟩ := exists_of_bind hfeature
  obtain ⟨decimals, hdecimals, hfeature⟩ := exists_of_bind hfeature
  cases hfeature
  obtain ⟨supported, hsupported, hsettings⟩ := exists_of_bind hsettings
  obtain ⟨schemaRevision, hschemaRevision, hsettings⟩ := exists_of_bind hsettings
  obtain ⟨settingId, hsettingId, hsettings⟩ := exists_of_bind hsettings
  obtain ⟨title, htitle, hsettings⟩ := exists_of_bind hsettings
  obtain ⟨group, hgroup, hsettings⟩ := exists_of_bind hsettings
  obtain ⟨settingUnit, hsettingUnit, hsettings⟩ := exists_of_bind hsettings
  obtain ⟨settingType, hsettingType, hsettings⟩ := exists_of_bind hsettings
  obtain ⟨settingFlags, hsettingFlags, hsettings⟩ := exists_of_bind hsettings
  obtain ⟨value, hvalue, hsettings⟩ := exists_of_bind hsettings
  obtain ⟨transaction, htransaction, hsettings⟩ := exists_of_bind hsettings
  obtain ⟨expected, hexpected, hsettings⟩ := exists_of_bind hsettings
  obtain ⟨newRevision, hnew, hsettings⟩ := exists_of_bind hsettings
  obtain ⟨index, hindex, hsettings⟩ := exists_of_bind hsettings
  obtain ⟨maxLength, hmaxLength, hsettings⟩ := exists_of_bind hsettings
  obtain ⟨count, hcount, hsettings⟩ := exists_of_bind hsettings
  obtain ⟨settingsSequence, hsettingsSequence, hsettings⟩ := exists_of_bind hsettings
  cases hsettings
  exact {
    protocolVersion := hversion
    type := htype
    command := hcommand
    intValue := hint
    boolValue := ⟨boolValue, hbool, rfl⟩
    hasIntValue := rfl
    hasBoolValue := rfl
    requestId := hrequest
    deviceId := hdevice
    name := ⟨name, hname, rfl⟩
    bleAddr := haddr
    snapshotId := hsnapshot
    sequence := hsequence
    total := htotal
    valueType := hvalueType
    capabilityFlags := hflags
    minValue := hmin
    maxValue := hmax
    step := hstep
    capabilityRevision := hrevision
    label := ⟨label, title, hlabel, htitle, rfl⟩
    unit := ⟨unit, settingUnit, hunit, hsettingUnit, rfl⟩
    featureId := ⟨featureId, group, hfeatureId, hgroup, rfl, rfl, rfl⟩
    featureType := hfeatureType
    featureSchemaVersion := hschema
    featureFlags := hfeatureFlags
    propertyId := hproperty
    featureValueBool := hvalueBool
    featureValueInt := hvalueInt
    featureTool := ⟨tool, htool, rfl, rfl⟩
    featureTotal := hfeatureTotal
    featureDecimals := hdecimals
    settingsSupported := hsupported
    settingsSchemaRevision := hschemaRevision
    settingId := hsettingId
    settingType := ⟨settingType, value, hsettingType, hvalue, rfl, rfl, rfl, rfl⟩
    settingFlags := hsettingFlags
    settingsTransactionId := htransaction
    settingsExpectedRevision := hexpected
    settingsNewRevision := hnew
    settingsOptionIndex := hindex
    settingsMaxLength := hmaxLength
    settingsOptionCount := hcount
    settingsSequence := hsettingsSequence }

/-- The decoder returns the message that has the values of the map. -/
theorem decodeMap_of_decoded (h : Decoded e m) :
    decodeMap e = some m := by
  obtain ⟨b, hbool, hboolValue⟩ := h.boolValue
  obtain ⟨name, hname, hnameValue⟩ := h.name
  obtain ⟨label, title, hlabel, htitle, hlabelValue⟩ := h.label
  obtain ⟨unit, settingUnit, hunit, hsettingUnit, hunitValue⟩ := h.unit
  obtain ⟨id, group, hid, hgroup, hhasId, hhasGroup, hidValue⟩ := h.featureId
  obtain ⟨tool, htool, hhasTool, htoolValue⟩ := h.featureTool
  obtain ⟨type, value, htype, hvalue, hhasType, htypeValue, hhasValue, hvalueValue⟩ := h.settingType
  have hbase : decodeBase e = some
      { protocolVersion := m.protocolVersion, type := m.type, command := m.command
        intValue := m.intValue, boolValue := m.boolValue, hasIntValue := m.hasIntValue
        hasBoolValue := m.hasBoolValue
        requestId := m.requestId, deviceId := m.deviceId, name := m.name, bleAddr := m.bleAddr
        snapshotId := m.snapshotId, sequence := m.sequence, total := m.total
        valueType := m.valueType, capabilityFlags := m.capabilityFlags, minValue := m.minValue
        maxValue := m.maxValue, step := m.step, capabilityRevision := m.capabilityRevision
        capabilityLabel := label.getD .empty, capabilityUnit := unit.getD .empty } := by
    simp only [decodeBase, h.protocolVersion, h.type, h.command, h.intValue, hbool, h.requestId,
      h.deviceId, hname, h.bleAddr, h.snapshotId, h.sequence, h.total, h.valueType,
      h.capabilityFlags, h.minValue, h.maxValue, h.step, hlabel, hunit, h.capabilityRevision,
      Option.bind_eq_bind, Option.bind_some, Option.pure_def, hboolValue, hnameValue,
      h.hasIntValue, h.hasBoolValue]
  rw [decodeMap, hbase]
  simp only [decodeFeature, decodeSettings, hid, h.featureType, h.featureSchemaVersion,
    h.featureFlags, h.propertyId, h.featureValueBool, h.featureValueInt, htool, h.featureTotal,
    h.featureDecimals, h.settingsSupported, h.settingsSchemaRevision, h.settingId, htitle, hgroup,
    hsettingUnit, htype, hvalue, h.settingFlags, h.settingsTransactionId,
    h.settingsExpectedRevision, h.settingsNewRevision, h.settingsOptionIndex,
    h.settingsMaxLength, h.settingsOptionCount, h.settingsSequence, Option.bind_eq_bind,
    Option.bind_some, Option.pure_def, ← hlabelValue, ← hunitValue, ← hidValue, ← hhasId,
    ← hhasGroup, ← hhasTool, ← htoolValue, ← hhasType, ← htypeValue, ← hhasValue, ← hvalueValue]

theorem cborCodecDecode_eq_some_iff {q : Qcbor} {buf : List UInt8} :
    cborCodecDecode q buf = some m ↔
      (buf.length ≠ 0 ∧ buf.length ≤ GW_MSG_MAX_LEN) ∧
        ∃ e, q.decode buf = some e ∧ Decoded e m := by
  rw [cborCodecDecode]
  split
  · rename_i hlen
    constructor
    · intro h
      cases h
    · rintro ⟨⟨hpos, hle⟩, -⟩
      omega
  · rename_i hlen
    rw [Option.bind_eq_some_iff]
    constructor
    · rintro ⟨e, he, hm⟩
      exact ⟨⟨by omega, by omega⟩, e, he, decoded_of_decodeMap hm⟩
    · rintro ⟨-, e, he, hm⟩
      exact ⟨e, he, decodeMap_of_decoded hm⟩

/-! ## What holds of every decoded message -/

theorem exists_of_optional {α β : Type} {r : Except QcborError α} {f : α → Option β} {y : β}
    (h : optional r f = some (some y)) : ∃ v, r = .ok v ∧ f v = some y := by
  cases r with
  | error e => cases e <;> cases h
  | ok v =>
      obtain ⟨y', hy, hsome⟩ := Option.map_eq_some_iff.mp h
      cases hsome
      exact ⟨v, rfl, hy⟩

theorem exists_of_required {α β : Type} {r : Except QcborError α} {f : α → Option β} {y : β}
    (h : required r f = some y) : ∃ v, r = .ok v ∧ f v = some y := by
  cases r with
  | error e => cases h
  | ok v => exact ⟨v, rfl, h⟩

theorem length_of_copyText {capacity : Nat} {allowEmpty : Bool} {b : List UInt8} {t : Text}
    (h : copyText capacity allowEmpty b = some t) : t.bytes.length < capacity := by
  obtain ⟨hfits, ⟨⟩⟩ := Option.ite_none_left_eq_some.mp h
  have hle := Text.length_ofBytes_le b
  simp only [Bool.or_eq_true, decide_eq_true_eq, not_or] at hfits
  omega

theorem length_of_optionalText {key : Int} {capacity : Nat} {allowEmpty : Bool} {t : Text}
    (h : optionalText e key capacity allowEmpty = some (some t)) :
    t.bytes.length < capacity := by
  obtain ⟨b, -, hcopy⟩ := exists_of_optional h
  exact length_of_copyText hcopy

/-- A text that may be missing fits as well. -/
theorem length_getD_lt {key : Int} {capacity : Nat} {allowEmpty : Bool} {o : Option Text}
    (h : optionalText e key capacity allowEmpty = some o) {t : Text}
    (ht : t.bytes.length < capacity) : (o.getD t).bytes.length < capacity := by
  cases o with
  | none => exact ht
  | some u => exact length_of_optionalText h

theorem ne_zero_of_optionalUInt32 {key : Int} {o : Option UInt32}
    (h : optionalUInt32 e key 1 = some o) : o ≠ some 0 := by
  rintro rfl
  obtain ⟨v, -, hcheck⟩ := exists_of_optional h
  obtain ⟨hrange, hcheck⟩ := Option.ite_none_left_eq_some.mp hcheck
  have hzero := congrArg UInt32.toNat (Option.some.inj hcheck)
  rw [UInt32.toNat_ofNat', UInt32.toNat_zero] at hzero
  simp only [UINT32_MAX] at hrange
  omega

/-- What holds of a message from the wire, whoever sent it. -/
structure GwMessage.Received (m : GwMessage) : Prop where
  protocolVersion : m.protocolVersion = GW_PROTOCOL_VERSION
  type : m.type.bytes.length < GW_MSG_TYPE_LEN
  command : m.command.bytes.length < DEVICE_COMMAND_MAX_LEN
  deviceId : ∀ t, m.deviceId = some t → t.bytes.length < DEVICE_ID_MAX_LEN
  name : m.name.bytes.length < DEVICE_NAME_MAX_LEN
  capabilityLabel : m.capabilityLabel.bytes.length < GW_MSG_CAP_LABEL_LEN
  capabilityUnit : m.capabilityUnit.bytes.length < GW_MSG_CAP_UNIT_LEN
  featureId : m.featureId.bytes.length < DEVICE_FEATURE_ID_MAX_LEN
  featureTool : m.featureTool.bytes.length < DEVICE_COMMAND_MAX_LEN
  requestId : m.requestId ≠ some 0
  snapshotId : m.snapshotId ≠ some 0
  boolValue : m.boolValue = 0 ∨ m.boolValue = 1
  hasIntValue : m.hasIntValue = true
  hasBoolValue : m.hasBoolValue = true
  featureId_unset : m.hasFeatureId = false → m.hasSettingGroup = false → m.featureId = .empty
  featureTool_unset : m.hasFeatureTool = false → m.featureTool = .empty
  settingType_unset : m.hasSettingType = false → m.settingType = 0
  settingValue_unset : m.hasSettingValue = false → m.settingValue = {}

/-- What is not set has its default. -/
theorem getD_of_unset {α : Type} {o : Option α} {d : α} {has : Bool} (h : has = o.isSome)
    (hno : has = false) : o.getD d = d := by
  cases o with
  | none => rfl
  | some _ => cases h.symm.trans hno

theorem received_of_decoded (h : Decoded e m) : m.Received := by
  have hempty : ∀ {capacity : Nat}, 0 < capacity → Text.empty.bytes.length < capacity := fun h => h
  obtain ⟨name, hname, hnameValue⟩ := h.name
  obtain ⟨label, title, hlabel, htitle, hlabelValue⟩ := h.label
  obtain ⟨unit, settingUnit, hunit, hsettingUnit, hunitValue⟩ := h.unit
  obtain ⟨id, group, hid, hgroup, hhasId, hhasGroup, hidValue⟩ := h.featureId
  obtain ⟨tool, htool, hhasTool, htoolValue⟩ := h.featureTool
  obtain ⟨type, value, htype, hvalue, hhasType, htypeValue, hhasValue, hvalueValue⟩ := h.settingType
  exact {
    protocolVersion := by
      obtain ⟨v, -, hv⟩ := exists_of_required h.protocolVersion
      split at hv
      · rename_i hversion
        rw [← Option.some.inj hv, hversion]
        rfl
      · cases hv
    type := by
      obtain ⟨b, -, hcopy⟩ := exists_of_required h.type
      exact length_of_copyText hcopy
    command := by
      obtain ⟨b, -, hcopy⟩ := exists_of_required h.command
      exact length_of_copyText hcopy
    deviceId := by
      intro t ht
      exact length_of_optionalText (h.deviceId.trans (congrArg some ht))
    name := hnameValue ▸ length_getD_lt hname (hempty (by decide))
    capabilityLabel :=
      hlabelValue ▸ length_getD_lt htitle (length_getD_lt hlabel (hempty (by decide)))
    capabilityUnit :=
      hunitValue ▸ length_getD_lt hsettingUnit (length_getD_lt hunit (hempty (by decide)))
    featureId := hidValue ▸ length_getD_lt hgroup (length_getD_lt hid (hempty (by decide)))
    featureTool := htoolValue ▸ length_getD_lt htool (hempty (by decide))
    requestId := ne_zero_of_optionalUInt32 h.requestId
    snapshotId := ne_zero_of_optionalUInt32 h.snapshotId
    boolValue := by
      obtain ⟨b, -, hb⟩ := h.boolValue
      cases b with
      | false => exact Or.inl hb
      | true => exact Or.inr hb
    hasIntValue := h.hasIntValue
    hasBoolValue := h.hasBoolValue
    featureId_unset := fun hnoId hnoGroup => by
      rw [hidValue, getD_of_unset hhasGroup hnoGroup, getD_of_unset hhasId hnoId]
    featureTool_unset := fun hno => htoolValue.trans (getD_of_unset hhasTool hno)
    settingType_unset := fun hno => htypeValue.trans (getD_of_unset hhasType hno)
    settingValue_unset := fun hno => hvalueValue.trans (getD_of_unset hhasValue hno) }

end BleGateway.CborCodec
