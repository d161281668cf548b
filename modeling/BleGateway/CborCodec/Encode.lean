import BleGateway.CborCodec.Message

set_option autoImplicit false

/-! # The encoder

`cbor_codec_encode`. QCBOR is a parameter: a map is written to bytes and read back as the list of
its entries with integer labels. The encoder adds the entries in a fixed order, so that what it
writes is a table of labels with an entry for every field that is present.
-/

namespace BleGateway.CborCodec

open Settings (GW_PROTOCOL_VERSION)
open Cbor (Item Entries)

/-! ## QCBOR -/

/-- The library that writes and reads one map. Reading fails on bytes that are not well formed, that
are not a map, or that go on behind it. -/
structure Qcbor where
  encode : Entries → List UInt8
  decode : List UInt8 → Option Entries

/-- The maps that QCBOR writes as they are: the labels are distinct, and the integers have at most
64 bits. -/
def Writable (m : Entries) : Prop :=
  (m.map Prod.fst).Nodup ∧ m.length ≤ UINT16_MAX ∧
    ∀ e ∈ m, (INT64_MIN ≤ e.1 ∧ e.1 ≤ INT64_MAX) ∧
      ∀ v, e.2 = .int v → INT64_MIN ≤ v ∧ v ≤ UINT64_MAX

/-- QCBOR writes a map to some bytes, and reads it back from fewer than 4 GB of them. -/
structure Qcbor.Correct (q : Qcbor) : Prop where
  nonempty : ∀ m, q.encode m ≠ []
  decode_encode : ∀ m, Writable m → (q.encode m).length ≤ UINT32_MAX →
    q.decode (q.encode m) = some m

/-- A library with the shortest heads, which has what is asked of QCBOR. -/
def Qcbor.shortest : Qcbor := ⟨Cbor.encode, Cbor.decode⟩

theorem Qcbor.shortest_correct : Qcbor.shortest.Correct where
  nonempty := Cbor.encode_ne_nil
  decode_encode := by
    rintro m ⟨-, hsize, hitems⟩ hlen
    have hroom : (Cbor.encode m).length ≤ UINT32_MAX := hlen
    simp only [UINT16_MAX] at hsize
    simp only [UINT32_MAX] at hroom
    refine Cbor.decode_encode (by omega) fun e he => ?_
    obtain ⟨hlabel, hint⟩ := hitems e he
    simp only [INT64_MIN, INT64_MAX] at hlabel
    have hvalue := Cbor.length_encodeItem_le he
    refine ⟨⟨by omega, by omega⟩, Cbor.Item.valid_of_length (by omega) fun v hv => ?_⟩
    have hbounds := hint v hv
    simp only [INT64_MIN, UINT64_MAX] at hbounds
    exact ⟨by omega, by omega⟩

/-! ## The entries of a message -/

/-- A value together with its flag. -/
def flagged {α : Type} (has : Bool) (v : α) : Option α := if has then some v else none

/-- A text that is in use as soon as it is not empty. -/
def nonempty (t : Text) : Option Text := flagged (t.bytes ≠ []) t

/-- The value of a setting by its type; the encoder has refused every other type. -/
def settingValueItem (m : GwMessage) : Option Item :=
  if m.settingType = GW_SETTING_TYPE_BOOL then some (.bool m.settingValue.bool)
  else if m.settingType = GW_SETTING_TYPE_INT then some (.int m.settingValue.int.toInt)
  else if m.settingType = GW_SETTING_TYPE_STRING then some (.text m.settingValue.string.bytes)
  else if m.settingType = GW_SETTING_TYPE_ENUM then some (.int m.settingValue.enum.toNat)
  else none

/-- The entries up to key 21. -/
def baseFields (m : GwMessage) : List (Int × Option Item) :=
  [(CBOR_KEY_PROTOCOL_VERSION, some (.int m.protocolVersion.toNat)),
    (CBOR_KEY_TYPE, some (.text m.type.bytes)),
    (CBOR_KEY_DEVICE_ID, m.deviceId.map fun t => .text t.bytes),
    (CBOR_KEY_COMMAND, some (.text m.command.bytes)),
    (CBOR_KEY_REQUEST_ID, m.requestId.map fun v => .int v.toNat),
    (CBOR_KEY_INT_VALUE, some (.int m.intValue.toInt)),
    (CBOR_KEY_BOOL_VALUE, some (.bool (m.boolValue ≠ 0))),
    (CBOR_KEY_NAME, (nonempty m.name).map fun t => .text t.bytes),
    (CBOR_KEY_BLE_ADDR, m.bleAddr.map fun a => .bytes (List.ofFn a.address)),
    (CBOR_KEY_BLE_ADDR_TYPE, m.bleAddr.map fun a => .int a.type.toNat),
    (CBOR_KEY_SNAPSHOT_ID, m.snapshotId.map fun v => .int v.toNat),
    (CBOR_KEY_SEQUENCE, m.sequence.map fun v => .int v.toNat),
    (CBOR_KEY_TOTAL, m.total.map fun v => .int v.toNat),
    (CBOR_KEY_VALUE_TYPE, m.valueType.map fun v => .int v.toNat),
    (CBOR_KEY_CAPABILITY_FLAGS, m.capabilityFlags.map fun v => .int v.toNat),
    (CBOR_KEY_MIN_VALUE, m.minValue.map fun v => .int v.toInt),
    (CBOR_KEY_MAX_VALUE, m.maxValue.map fun v => .int v.toInt),
    (CBOR_KEY_STEP, m.step.map fun v => .int v.toNat),
    (CBOR_KEY_CAPABILITY_LABEL, (nonempty m.capabilityLabel).map fun t => .text t.bytes),
    (CBOR_KEY_CAPABILITY_UNIT, (nonempty m.capabilityUnit).map fun t => .text t.bytes),
    (CBOR_KEY_CAPABILITY_REVISION, m.capabilityRevision.map fun v => .int v.toNat)]

/-- The entries of a feature, up to key 31. -/
def featureFields (m : GwMessage) : List (Int × Option Item) :=
  [(CBOR_KEY_FEATURE_ID, (flagged m.hasFeatureId m.featureId).map fun t => .text t.bytes),
    (CBOR_KEY_FEATURE_TYPE, m.featureType.map fun v => .int v.toNat),
    (CBOR_KEY_FEATURE_SCHEMA_VERSION, m.featureSchemaVersion.map fun v => .int v.toNat),
    (CBOR_KEY_FEATURE_FLAGS, m.featureFlags.map fun v => .int v.toNat),
    (CBOR_KEY_PROPERTY_ID, m.propertyId.map fun v => .int v.toNat),
    (CBOR_KEY_FEATURE_VALUE_BOOL, m.featureValueBool.map .bool),
    (CBOR_KEY_FEATURE_VALUE_INT, m.featureValueInt.map fun v => .int v.toInt),
    (CBOR_KEY_FEATURE_TOOL, (flagged m.hasFeatureTool m.featureTool).map fun t => .text t.bytes),
    (CBOR_KEY_FEATURE_TOTAL, m.featureTotal.map fun v => .int v.toNat),
    (CBOR_KEY_FEATURE_DECIMALS, m.featureDecimals.map fun v => .int v.toNat)]

/-- The entries of a setting, keys 32 to 47. Title, unit and group share their text with fields
above. -/
def settingFields (m : GwMessage) : List (Int × Option Item) :=
  [(GW_KEY_SETTINGS_SUPPORTED, m.settingsSupported.map fun b => .int b.toNat),
    (GW_KEY_SETTINGS_SCHEMA_REVISION, m.settingsSchemaRevision.map fun v => .int v.toNat),
    (GW_KEY_SETTINGS_ID, m.settingId.map fun t => .text t.bytes),
    (GW_KEY_SETTINGS_TITLE, (nonempty m.capabilityLabel).map fun t => .text t.bytes),
    (GW_KEY_SETTINGS_GROUP, (flagged m.hasSettingGroup m.featureId).map fun t => .text t.bytes),
    (GW_KEY_SETTINGS_UNIT, (nonempty m.capabilityUnit).map fun t => .text t.bytes),
    (GW_KEY_SETTINGS_TYPE, (flagged m.hasSettingType m.settingType).map fun v => .int v.toNat),
    (GW_KEY_SETTINGS_FLAGS, m.settingFlags.map fun v => .int v.toNat),
    (GW_KEY_SETTINGS_VALUE, if m.hasSettingValue then settingValueItem m else none),
    (GW_KEY_SETTINGS_TRANSACTION_ID, m.settingsTransactionId.map fun v => .int v.toNat),
    (GW_KEY_SETTINGS_EXPECTED_REVISION, m.settingsExpectedRevision.map fun v => .int v.toNat),
    (GW_KEY_SETTINGS_NEW_REVISION, m.settingsNewRevision.map fun v => .int v.toNat),
    (GW_KEY_SETTINGS_OPTION_INDEX, m.settingsOptionIndex.map fun v => .int v.toNat),
    (GW_KEY_SETTINGS_MAX_LENGTH, m.settingsMaxLength.map fun v => .int v.toNat),
    (GW_KEY_SETTINGS_OPTION_COUNT, m.settingsOptionCount.map fun v => .int v.toNat),
    (GW_KEY_SETTINGS_SEQUENCE, m.settingsSequence.map fun v => .int v.toNat)]

/-- All fields in the order in which the encoder adds them. -/
def fields (m : GwMessage) : List (Int × Option Item) :=
  baseFields m ++ featureFields m ++ settingFields m

/-- The entries of a message on the wire. -/
def items (m : GwMessage) : Entries := Fields.present (fields m)

/-! ## Encoding -/

/-- `valid_string`: the NUL lies inside the array. -/
def validString (value : Text) (capacity : Nat) (allowEmpty : Bool) : Bool :=
  value.bytes.length < capacity && (allowEmpty || value.bytes.length > 0)

/-- The types of a setting whose value the encoder can write. -/
def settingTypeKnown (type : UInt8) : Bool :=
  type = GW_SETTING_TYPE_BOOL ∨ type = GW_SETTING_TYPE_INT ∨ type = GW_SETTING_TYPE_STRING ∨
    type = GW_SETTING_TYPE_ENUM

/-- The checks in front of the first byte. -/
def encodable (m : GwMessage) : Bool :=
  validString m.type GW_MSG_TYPE_LEN false && validString m.command DEVICE_COMMAND_MAX_LEN false &&
    m.deviceId.all (validString · DEVICE_ID_MAX_LEN false) &&
    validString m.name DEVICE_NAME_MAX_LEN true &&
    validString m.capabilityLabel GW_MSG_CAP_LABEL_LEN true &&
    validString m.capabilityUnit GW_MSG_CAP_UNIT_LEN true &&
    validString m.featureId DEVICE_FEATURE_ID_MAX_LEN true &&
    validString m.featureTool DEVICE_COMMAND_MAX_LEN true &&
    decide (m.protocolVersion = GW_PROTOCOL_VERSION)

/-- `cbor_codec_encode`: the bytes in the caller's buffer, or `none` for `-1`. -/
def cborCodecEncode (q : Qcbor) (m : GwMessage) (outBufCap : Nat) : Option (List UInt8) :=
  if outBufCap = 0 ∨ encodable m = false then none
  else if m.hasSettingValue && !settingTypeKnown m.settingType then none
  else if (q.encode (items m)).length > outBufCap then none
  else some (q.encode (items m))

end BleGateway.CborCodec
