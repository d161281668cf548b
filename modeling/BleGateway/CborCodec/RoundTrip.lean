import BleGateway.CborCodec.Lookup

/-! # Encoding and decoding

`transmitted` is what is left of a message on the other side of the wire, and `Readable` says when
the decoder takes what the encoder has written. Both sides agree on the fields of a message unless
it has a value that only the encoder allows, or a value of a setting without its type.
-/

namespace BleGateway.CborCodec

open Settings (GW_PROTOCOL_VERSION GW_SETTINGS_CBOR_MAX_ID_LEN)
open Cbor (Item Entries)

/-! ## The message on the other side -/

/-- The member of the union that the type names. -/
def SettingValue.inUse (type : UInt8) (v : SettingValue) : SettingValue :=
  if type = GW_SETTING_TYPE_BOOL then { bool := v.bool }
  else if type = GW_SETTING_TYPE_INT then { int := v.int }
  else if type = GW_SETTING_TYPE_STRING then { string := v.string }
  else { enum := v.enum }

/-- The value of a setting together with its type. -/
def GwMessage.typedValue (m : GwMessage) : Option SettingValue :=
  flagged (m.hasSettingType && m.hasSettingValue) (m.settingValue.inUse m.settingType)

/-- What the decoder returns: integers and Booleans are always there, texts without a flag are
empty, and a value without its type is gone. -/
def GwMessage.transmitted (m : GwMessage) : GwMessage :=
  { m with
    boolValue := if m.boolValue ≠ 0 then 1 else 0
    hasIntValue := true
    hasBoolValue := true
    featureId := (flagged (m.hasFeatureId || m.hasSettingGroup) m.featureId).getD .empty
    featureTool := (flagged m.hasFeatureTool m.featureTool).getD .empty
    settingType := (flagged m.hasSettingType m.settingType).getD 0
    settingValue := m.typedValue.getD {}
    hasSettingValue := m.typedValue.isSome }

/-- The values that the decoder accepts. -/
structure GwMessage.Readable (m : GwMessage) : Prop where
  requestId : m.requestId ≠ some 0
  snapshotId : m.snapshotId ≠ some 0
  featureId : m.hasFeatureId = true → m.featureId.bytes ≠ []
  settingId : ∀ t, m.settingId = some t → TextFits GW_SETTINGS_CBOR_MAX_ID_LEN false t
  settingType : m.hasSettingType = true → m.settingType ≤ GW_SETTING_TYPE_ENUM
  settingValue : m.hasSettingType = true → m.hasSettingValue = true →
    m.settingType = GW_SETTING_TYPE_STRING →
      m.settingValue.string.bytes.length < GW_SETTINGS_VALUE_MAX_LEN

/-! ## What the encoder checks -/

/-- The messages that the encoder takes, but for the room that they need. -/
structure GwMessage.Encodable (m : GwMessage) : Prop where
  protocolVersion : m.protocolVersion = GW_PROTOCOL_VERSION
  type : TextFits GW_MSG_TYPE_LEN false m.type
  command : TextFits DEVICE_COMMAND_MAX_LEN false m.command
  deviceId : ∀ t, m.deviceId = some t → TextFits DEVICE_ID_MAX_LEN false t
  name : TextFits DEVICE_NAME_MAX_LEN true m.name
  capabilityLabel : TextFits GW_MSG_CAP_LABEL_LEN true m.capabilityLabel
  capabilityUnit : TextFits GW_MSG_CAP_UNIT_LEN true m.capabilityUnit
  featureId : TextFits DEVICE_FEATURE_ID_MAX_LEN true m.featureId
  featureTool : TextFits DEVICE_COMMAND_MAX_LEN true m.featureTool
  settingType : m.hasSettingValue = true → settingTypeKnown m.settingType = true

theorem validString_iff {t : Text} {capacity : Nat} {allowEmpty : Bool} :
    validString t capacity allowEmpty = true ↔ TextFits capacity allowEmpty t := by
  rw [validString, TextFits, Bool.and_eq_true, Bool.or_eq_true, decide_eq_true_iff,
    decide_eq_true_iff, gt_iff_lt, List.length_pos_iff]

theorem cborCodecEncode_eq_some_iff {q : Qcbor} {m : GwMessage} {cap : Nat} {out : List UInt8} :
    cborCodecEncode q m cap = some out ↔
      m.Encodable ∧ cap ≠ 0 ∧ out = q.encode (items m) ∧ out.length ≤ cap := by
  have hdevice : m.deviceId.all (validString · DEVICE_ID_MAX_LEN false) = true ↔
      ∀ t, m.deviceId = some t → TextFits DEVICE_ID_MAX_LEN false t := by
    rw [Option.all_eq_true]
    exact forall₂_congr fun t _ => validString_iff
  have hchecks : (encodable m = true ∧
      (m.hasSettingValue = true → settingTypeKnown m.settingType = true)) ↔ m.Encodable := by
    simp only [encodable, Bool.and_eq_true, validString_iff, hdevice, decide_eq_true_eq]
    constructor
    · rintro ⟨⟨⟨⟨⟨⟨⟨⟨⟨htype, hcommand⟩, hdevice⟩, hname⟩, hlabel⟩, hunit⟩, hid⟩, htool⟩, hversion⟩,
        hsetting⟩
      exact ⟨hversion, htype, hcommand, hdevice, hname, hlabel, hunit, hid, htool, hsetting⟩
    · rintro ⟨hversion, htype, hcommand, hdevice, hname, hlabel, hunit, hid, htool, hsetting⟩
      exact ⟨⟨⟨⟨⟨⟨⟨⟨⟨htype, hcommand⟩, hdevice⟩, hname⟩, hlabel⟩, hunit⟩, hid⟩, htool⟩, hversion⟩,
        hsetting⟩
  rw [← hchecks, cborCodecEncode]
  split
  · rename_i hbad
    constructor
    · intro h
      cases h
    · rintro ⟨⟨hok, -⟩, hcap, -⟩
      rcases hbad with hzero | hfalse
      · exact absurd hzero hcap
      · rw [hok] at hfalse
        cases hfalse
  rename_i hgood
  obtain ⟨hcap, hok⟩ := not_or.mp hgood
  rw [Bool.not_eq_false] at hok
  split
  · rename_i hunknown
    constructor
    · intro h
      cases h
    · rintro ⟨⟨-, hknown⟩, -⟩
      obtain ⟨hvalue, hnot⟩ := Bool.and_eq_true_iff.mp hunknown
      rw [hknown hvalue] at hnot
      cases hnot
  rename_i hknown
  have hsetting : m.hasSettingValue = true → settingTypeKnown m.settingType = true := by
    intro hvalue
    cases hk : settingTypeKnown m.settingType with
    | true => rfl
    | false =>
        rw [hvalue, hk] at hknown
        exact absurd rfl hknown
  split
  · rename_i hlong
    constructor
    · intro h
      cases h
    · rintro ⟨-, -, rfl, hle⟩
      omega
  · rename_i hroom
    constructor
    · intro h
      cases h
      exact ⟨⟨hok, hsetting⟩, hcap, rfl, by omega⟩
    · rintro ⟨-, -, rfl, -⟩
      rfl

/-! ## Decoding what was encoded -/

variable {m : GwMessage}

theorem mem_field {f : Int × Option Item} (i : Nat) (h : (fields m)[i]? = some f) : f ∈ fields m :=
  List.mem_of_getElem? h

theorem flagged_eq_some_iff {α : Type} {has : Bool} {v w : α} :
    flagged has v = some w ↔ has = true ∧ v = w := by
  cases has with
  | false | true => simp [flagged]

theorem textFits_of_nonempty {t u : Text} {capacity : Nat} (h : TextFits capacity true t)
    (hu : nonempty t = some u) : TextFits capacity true u := by
  obtain ⟨-, rfl⟩ := flagged_eq_some_iff.mp hu
  exact h

theorem isSome_flagged {α : Type} (has : Bool) (v : α) : (flagged has v).isSome = has := by
  cases has <;> rfl

/-- An empty text is the same as none. -/
theorem nonempty_getD (t : Text) : (nonempty t).getD .empty = t := by
  rw [nonempty, flagged]
  split
  · rfl
  · rename_i h
    exact Text.ext (of_not_not (mt decide_eq_true h)).symm

theorem nonempty_twice (t : Text) : (nonempty t).getD ((nonempty t).getD .empty) = t := by
  rw [nonempty_getD, nonempty, flagged]
  split <;> rfl

theorem one_le_of_ne_zero {o : Option UInt32} (h : o ≠ some 0) {v : UInt32} (hv : o = some v) :
    1 ≤ v.toNat := by
  by_contra hlt
  obtain rfl : v = 0 := UInt32.toNat_inj.mp (by rw [UInt32.toNat_zero]; omega)
  exact h hv

theorem decodeBleAddr_items (m : GwMessage) : decodeBleAddr (items m) = some m.bleAddr := by
  have haddress := itemInMap_items (mem_field (m := m) 8 rfl)
  have htype := getUInt64_items (o := m.bleAddr) (mem_field (m := m) 9 rfl)
    fun a => (Nat.le_of_lt_succ a.type.toNat_lt).trans (by decide)
  rw [decodeBleAddr, htype, getByteStringInMapN, haddress]
  cases m.bleAddr with
  | none => rfl
  | some a =>
      have hlength : (List.ofFn a.address).length = 6 := List.length_ofFn
      have hback : checkUInt 0 UINT8_MAX UInt8.ofNat a.type.toNat = some a.type :=
        (checkUInt_eq_some_iff fun v => UInt8.ofNat_toNat).mpr
          ⟨rfl, Nat.zero_le _, Nat.le_of_lt_succ a.type.toNat_lt⟩
      have hget : (fun i : Fin 6 => (List.ofFn a.address).getD i 0) = a.address := by
        funext i
        rw [List.getD_eq_getElem?_getD, List.getElem?_ofFn]
        simp
      dsimp only [Option.map_some, Option.elim_some, optional, required]
      rw [if_neg (not_not.mpr hlength), hback, hget]
      rfl

/-- A field with a flag, whose value is accepted under a condition. -/
theorem optional_flagged {α β γ : Type} {has : Bool} {v : α} {g : α → γ} {f : γ → Option β}
    {x : Option β} (w : β) (P : Prop) (hf : ∀ y, f (g v) = some y ↔ y = w ∧ P) :
    optional ((flagged has v).elim (.error .labelNotFound) fun v => .ok (g v)) f = some x ↔
      x = flagged has w ∧ (has = true → P) := by
  rw [optional_eq_some_iff]
  cases has with
  | false => simp [flagged]
  | true =>
      constructor
      · rintro (⟨hnone, -⟩ | ⟨v', y, hv, hy, rfl⟩)
        · cases hnone
        · cases hv
          obtain ⟨rfl, hP⟩ := (hf y).mp hy
          exact ⟨rfl, fun _ => hP⟩
      · rintro ⟨rfl, hP⟩
        exact Or.inr ⟨v, w, rfl, (hf w).mpr ⟨rfl, hP rfl⟩, rfl⟩

/-- The value of a setting is read as its type says, and refused only where a text is too long. -/
theorem decodeSettingValue_items (hknown : m.hasSettingValue = true →
    settingTypeKnown m.settingType = true) {x : Option SettingValue} :
    decodeSettingValue (items m) (some m.settingType) = some x ↔
      x = flagged m.hasSettingValue (m.settingValue.inUse m.settingType) ∧
        (m.hasSettingValue = true → m.settingType = GW_SETTING_TYPE_STRING →
          m.settingValue.string.bytes.length < GW_SETTINGS_VALUE_MAX_LEN) := by
  have hmem : (GW_KEY_SETTINGS_VALUE, if m.hasSettingValue then settingValueItem m else none) ∈
      fields m := mem_field 39 rfl
  have hitem : ∀ {α : Type} {v : α} {f : α → Item}, settingValueItem m = some (f v) →
      (GW_KEY_SETTINGS_VALUE, (flagged m.hasSettingValue v).map f) ∈ fields m := by
    intro α v f hvalue
    rw [hvalue] at hmem
    cases hhas : m.hasSettingValue with
    | false | true =>
        rw [hhas] at hmem
        exact hmem
  rw [decodeSettingValue]
  -- one case for each type, with the member of the union that it reads
  by_cases hbool : m.settingType = GW_SETTING_TYPE_BOOL
  · have hvalue : settingValueItem m = some (.bool m.settingValue.bool) := by
      rw [settingValueItem, if_pos hbool]
    have hother : m.settingType ≠ GW_SETTING_TYPE_STRING := by
      rw [hbool]
      decide
    have huse : m.settingValue.inUse m.settingType = { bool := m.settingValue.bool } := by
      rw [SettingValue.inUse, if_pos hbool]
    rw [if_pos hbool, getBool_items (hitem hvalue), huse]
    refine (optional_flagged (g := fun b => b)
      { bool := m.settingValue.bool } True fun y => ?_).trans ?_
    · rw [Option.some.injEq, and_true, eq_comm]
    · simp only [hother, false_imp_iff, implies_true]
  rw [if_neg hbool]
  by_cases hint : m.settingType = GW_SETTING_TYPE_INT
  · have hvalue : settingValueItem m = some (.int m.settingValue.int.toInt) := by
      rw [settingValueItem, if_neg hbool, if_pos hint]
    have hother : m.settingType ≠ GW_SETTING_TYPE_STRING := by
      rw [hint]
      decide
    have huse : m.settingValue.inUse m.settingType = { int := m.settingValue.int } := by
      rw [SettingValue.inUse, if_neg hbool, if_pos hint]
    rw [if_pos hint, getInt64_items (hitem hvalue), huse]
    refine (optional_flagged { int := m.settingValue.int } True fun y => ?_).trans ?_
    · rw [checkInt_toInt, Option.map_some, Option.some.injEq, and_true, eq_comm]
    · simp only [hother, false_imp_iff, implies_true]
  rw [if_neg hint]
  by_cases hstring : m.settingType = GW_SETTING_TYPE_STRING
  · have hvalue : settingValueItem m = some (.text m.settingValue.string.bytes) := by
      rw [settingValueItem, if_neg hbool, if_neg hint, if_pos hstring]
    have huse : m.settingValue.inUse m.settingType = { string := m.settingValue.string } := by
      rw [SettingValue.inUse, if_neg hbool, if_neg hint, if_pos hstring]
    rw [if_pos hstring, getText_items (hitem hvalue), huse]
    refine (optional_flagged { string := m.settingValue.string }
      (TextFits GW_SETTINGS_VALUE_MAX_LEN true m.settingValue.string) fun y => ?_).trans ?_
    · rw [Option.map_eq_some_iff]
      constructor
      · rintro ⟨t, ht, rfl⟩
        obtain ⟨rfl, hfits⟩ := copyText_eq_some_iff.mp ht
        exact ⟨rfl, hfits⟩
      · rintro ⟨rfl, hfits⟩
        exact ⟨_, copyText_eq_some_iff.mpr ⟨rfl, hfits⟩, rfl⟩
    · simp only [hstring, true_imp_iff, TextFits, true_or, and_true]
  rw [if_neg hstring]
  by_cases henum : m.settingType = GW_SETTING_TYPE_ENUM
  · have hvalue : settingValueItem m = some (.int m.settingValue.enum.toNat) := by
      rw [settingValueItem, if_neg hbool, if_neg hint, if_neg hstring, if_pos henum]
    have huse : m.settingValue.inUse m.settingType = { enum := m.settingValue.enum } := by
      rw [SettingValue.inUse, if_neg hbool, if_neg hint, if_neg hstring]
    have hback : checkUInt 0 UINT8_MAX UInt8.ofNat m.settingValue.enum.toNat =
        some m.settingValue.enum :=
      (checkUInt_eq_some_iff fun v => UInt8.ofNat_toNat).mpr
        ⟨rfl, Nat.zero_le _, Nat.le_of_lt_succ m.settingValue.enum.toNat_lt⟩
    rw [if_pos henum, getUInt64_items (hitem (f := fun v : UInt8 => Item.int v.toNat) hvalue)
      fun v => (Nat.le_of_lt_succ v.toNat_lt).trans (by decide), huse]
    refine (optional_flagged { enum := m.settingValue.enum } True fun y => ?_).trans ?_
    · rw [hback, Option.map_some, Option.some.injEq, and_true, eq_comm]
    · simp only [hstring, false_imp_iff, implies_true]
  -- a type without a value
  · have hnone : m.hasSettingValue = false := by
      cases hhas : m.hasSettingValue with
      | false => rfl
      | true =>
          have htype := hknown hhas
          simp only [settingTypeKnown, hbool, hint, hstring, henum, or_self, decide_false] at htype
          cases htype
    rw [if_neg henum, hnone]
    simp [flagged, eq_comm]

theorem decoded_transmitted (henc : m.Encodable) (hread : m.Readable) :
    Decoded (items m) m.transmitted := by
  have hrequired : ∀ {α β : Type} {v : α} {f : α → Option β} {r : Except QcborError α},
      r = .ok v → required r f = f v := by
    rintro α β v f r rfl
    rfl
  exact {
    protocolVersion := by
      rw [hrequired (getUInt64_items (o := some m.protocolVersion) (mem_field 0 rfl)
        fun v => (Nat.le_of_lt_succ v.toNat_lt).trans (by decide)), henc.protocolVersion]
      exact congrArg some henc.protocolVersion.symm
    type := by
      rw [hrequired (getText_items (o := some m.type) (mem_field 1 rfl))]
      exact copyText_eq_some_iff.mpr ⟨rfl, henc.type⟩
    command := by
      rw [hrequired (getText_items (o := some m.command) (mem_field 3 rfl))]
      exact copyText_eq_some_iff.mpr ⟨rfl, henc.command⟩
    intValue := by
      rw [hrequired (getInt64_items (o := some m.intValue) (mem_field 5 rfl))]
      exact checkInt_toInt _
    boolValue := by
      refine ⟨decide (m.boolValue ≠ 0), ?_, ?_⟩
      · exact hrequired (getBool_items (o := some (decide (m.boolValue ≠ 0))) (mem_field 6 rfl))
      · simp [GwMessage.transmitted]
    hasIntValue := rfl
    hasBoolValue := rfl
    requestId := (optionalUInt32_items (mem_field 4 rfl)).mpr
      ⟨rfl, fun v hv => one_le_of_ne_zero hread.requestId hv⟩
    deviceId := (optionalText_items (mem_field 2 rfl)).mpr ⟨rfl, henc.deviceId⟩
    name := by
      refine ⟨nonempty m.name, ?_, (nonempty_getD _).symm⟩
      exact (optionalText_items (mem_field 7 rfl)).mpr
        ⟨rfl, fun t => textFits_of_nonempty henc.name⟩
    bleAddr := decodeBleAddr_items m
    snapshotId := (optionalUInt32_items (mem_field 10 rfl)).mpr
      ⟨rfl, fun v hv => one_le_of_ne_zero hread.snapshotId hv⟩
    sequence := (optionalUInt16_items (mem_field 11 rfl)).mpr rfl
    total := (optionalUInt16_items (mem_field 12 rfl)).mpr rfl
    valueType := (optionalUInt8_items (mem_field 13 rfl)).mpr rfl
    capabilityFlags := (optionalUInt8_items (mem_field 14 rfl)).mpr rfl
    minValue := (optionalInt32_items (mem_field 15 rfl)).mpr rfl
    maxValue := (optionalInt32_items (mem_field 16 rfl)).mpr rfl
    step := (optionalUInt32_items (mem_field 17 rfl)).mpr ⟨rfl, fun v _ => Nat.zero_le _⟩
    capabilityRevision :=
      (optionalUInt32_items (mem_field 20 rfl)).mpr ⟨rfl, fun v _ => Nat.zero_le _⟩
    label := by
      have hfits := fun t => textFits_of_nonempty (u := t) henc.capabilityLabel
      refine ⟨_, _, (optionalText_items (mem_field 18 rfl)).mpr ⟨rfl, hfits⟩,
        (optionalText_items (mem_field 34 rfl)).mpr ⟨rfl, hfits⟩, ?_⟩
      exact (nonempty_twice _).symm
    unit := by
      have hfits := fun t => textFits_of_nonempty (u := t) henc.capabilityUnit
      refine ⟨_, _, (optionalText_items (mem_field 19 rfl)).mpr ⟨rfl, hfits⟩,
        (optionalText_items (mem_field 36 rfl)).mpr ⟨rfl, hfits⟩, ?_⟩
      exact (nonempty_twice _).symm
    featureId := by
      refine ⟨flagged m.hasFeatureId m.featureId, flagged m.hasSettingGroup m.featureId,
        (optionalText_items (mem_field 21 rfl)).mpr ⟨rfl, fun t ht => ?_⟩,
        (optionalText_items (mem_field 35 rfl)).mpr ⟨rfl, fun t ht => ?_⟩,
        (isSome_flagged _ _).symm, (isSome_flagged _ _).symm, ?_⟩
      · obtain ⟨hhas, rfl⟩ := flagged_eq_some_iff.mp ht
        exact ⟨henc.featureId.1, Or.inr (hread.featureId hhas)⟩
      · obtain ⟨-, rfl⟩ := flagged_eq_some_iff.mp ht
        exact henc.featureId
      · cases hid : m.hasFeatureId <;> cases hgroup : m.hasSettingGroup <;>
          simp [GwMessage.transmitted, flagged, hid, hgroup]
    featureType := (optionalUInt8_items (mem_field 22 rfl)).mpr rfl
    featureSchemaVersion := (optionalUInt16_items (mem_field 23 rfl)).mpr rfl
    featureFlags := (optionalUInt16_items (mem_field 24 rfl)).mpr rfl
    propertyId := (optionalUInt8_items (mem_field 25 rfl)).mpr rfl
    featureValueBool := (optionalBool_items (mem_field 26 rfl)).mpr rfl
    featureValueInt := (optionalInt32_items (mem_field 27 rfl)).mpr rfl
    featureTool := by
      refine ⟨flagged m.hasFeatureTool m.featureTool,
        (optionalText_items (mem_field 28 rfl)).mpr ⟨rfl, fun t ht => ?_⟩,
        (isSome_flagged _ _).symm, rfl⟩
      obtain ⟨-, rfl⟩ := flagged_eq_some_iff.mp ht
      exact henc.featureTool
    featureTotal := (optionalUInt16_items (mem_field 29 rfl)).mpr rfl
    featureDecimals := (optionalUInt8_items (mem_field 30 rfl)).mpr rfl
    settingsSupported := (optionalUInt_items (mem_field 31 rfl)
      (fun b => b.toNat_le.trans (by decide)) fun b => by cases b <;> rfl).mpr
        ⟨rfl, fun b _ => ⟨Nat.zero_le _, b.toNat_le⟩⟩
    settingsSchemaRevision := (optionalUInt16_items (mem_field 32 rfl)).mpr rfl
    settingId := (optionalText_items (mem_field 33 rfl)).mpr ⟨rfl, hread.settingId⟩
    settingType := by
      refine ⟨flagged m.hasSettingType m.settingType, m.typedValue,
        (optionalUInt_items (mem_field 37 rfl)
          (fun v => (Nat.le_of_lt_succ v.toNat_lt).trans (by decide))
          fun v => UInt8.ofNat_toNat).mpr ⟨rfl, fun v hv => ?_⟩, ?_, (isSome_flagged _ _).symm, rfl,
        rfl, rfl⟩
      · obtain ⟨hhas, rfl⟩ := flagged_eq_some_iff.mp hv
        exact ⟨Nat.zero_le _, hread.settingType hhas⟩
      · rw [GwMessage.typedValue]
        cases hhas : m.hasSettingType with
        | false => rfl
        | true =>
            exact (decodeSettingValue_items henc.settingType).mpr ⟨rfl, hread.settingValue hhas⟩
    settingFlags := (optionalUInt16_items (mem_field 38 rfl)).mpr rfl
    settingsTransactionId := (optionalUInt_items (mem_field 40 rfl)
      (fun v => Nat.le_of_lt_succ v.toNat_lt) fun v => UInt64.ofNat_toNat).mpr
        ⟨rfl, fun v _ => ⟨Nat.zero_le _, Nat.le_of_lt_succ v.toNat_lt⟩⟩
    settingsExpectedRevision :=
      (optionalUInt32_items (mem_field 41 rfl)).mpr ⟨rfl, fun v _ => Nat.zero_le _⟩
    settingsNewRevision :=
      (optionalUInt32_items (mem_field 42 rfl)).mpr ⟨rfl, fun v _ => Nat.zero_le _⟩
    settingsOptionIndex := (optionalUInt8_items (mem_field 43 rfl)).mpr rfl
    settingsMaxLength := (optionalUInt16_items (mem_field 44 rfl)).mpr rfl
    settingsOptionCount := (optionalUInt16_items (mem_field 45 rfl)).mpr rfl
    settingsSequence := (optionalUInt16_items (mem_field 46 rfl)).mpr rfl }

theorem readable_of_decoded {m' : GwMessage} (henc : m.Encodable) (h : Decoded (items m) m') :
    m.Readable where
  requestId := by
    intro hzero
    obtain ⟨-, hpos⟩ := (optionalUInt32_items (o := m.requestId) (mem_field 4 rfl)).mp h.requestId
    exact absurd (hpos 0 hzero) (by decide)
  snapshotId := by
    intro hzero
    obtain ⟨-, hpos⟩ :=
      (optionalUInt32_items (o := m.snapshotId) (mem_field 10 rfl)).mp h.snapshotId
    exact absurd (hpos 0 hzero) (by decide)
  featureId := by
    intro hhas
    obtain ⟨id, group, hid, -⟩ := h.featureId
    obtain ⟨-, hfits⟩ :=
      (optionalText_items (o := flagged m.hasFeatureId m.featureId) (mem_field 21 rfl)).mp hid
    exact (hfits _ (flagged_eq_some_iff.mpr ⟨hhas, rfl⟩)).2.resolve_left Bool.false_ne_true
  settingId := ((optionalText_items (o := m.settingId) (mem_field 33 rfl)).mp h.settingId).2
  settingType := by
    intro hhas
    obtain ⟨type, value, htype, -⟩ := h.settingType
    obtain ⟨-, hfits⟩ :=
      (optionalUInt_items (o := flagged m.hasSettingType m.settingType) (mem_field 37 rfl)
        (fun v => (Nat.le_of_lt_succ v.toNat_lt).trans (by decide))
        fun v => UInt8.ofNat_toNat).mp htype
    exact (hfits _ (flagged_eq_some_iff.mpr ⟨hhas, rfl⟩)).2
  settingValue := by
    intro hhas
    obtain ⟨type, value, htype, hvalue, -⟩ := h.settingType
    obtain ⟨rfl, -⟩ :=
      (optionalUInt_items (o := flagged m.hasSettingType m.settingType) (mem_field 37 rfl)
        (fun v => (Nat.le_of_lt_succ v.toNat_lt).trans (by decide))
        fun v => UInt8.ofNat_toNat).mp htype
    rw [flagged_eq_some_iff.mpr ⟨hhas, rfl⟩] at hvalue
    exact ((decodeSettingValue_items henc.settingType).mp hvalue).2

/-- **The decoder takes what the encoder has written just when its values are readable, and returns
what was transmitted.** -/
theorem decodeMap_items_iff (henc : m.Encodable) {m' : GwMessage} :
    decodeMap (items m) = some m' ↔ m.Readable ∧ m' = m.transmitted := by
  constructor
  · intro h
    have hread := readable_of_decoded henc (decoded_of_decodeMap h)
    have htransmitted := decodeMap_of_decoded (decoded_transmitted henc hread)
    rw [h] at htransmitted
    exact ⟨hread, Option.some.inj htransmitted⟩
  · rintro ⟨hread, rfl⟩
    exact decodeMap_of_decoded (decoded_transmitted henc hread)

theorem cborCodecDecode_encode {q : Qcbor} (hq : q.Correct) {cap : Nat} {out : List UInt8}
    (henc : cborCodecEncode q m cap = some out) (hlen : out.length ≤ GW_MSG_MAX_LEN)
    {m' : GwMessage} :
    cborCodecDecode q out = some m' ↔ m.Readable ∧ m' = m.transmitted := by
  obtain ⟨hm, -, rfl, -⟩ := cborCodecEncode_eq_some_iff.mp henc
  have hmax : GW_MSG_MAX_LEN ≤ UINT32_MAX := by decide
  have hempty : (q.encode (items m)).length ≠ 0 := mt List.length_eq_zero_iff.mp (hq.nonempty _)
  rw [cborCodecDecode, if_neg (by omega), hq.decode_encode _ (writable_items m) (by omega)]
  exact decodeMap_items_iff hm

/-! ## Round trips -/

/-- A message and another one are the same on every field that the first one marks as present. -/
structure GwMessage.Agrees (m m' : GwMessage) : Prop where
  protocolVersion : m'.protocolVersion = m.protocolVersion
  type : m'.type = m.type
  command : m'.command = m.command
  deviceId : ∀ v, m.deviceId = some v → m'.deviceId = some v
  requestId : ∀ v, m.requestId = some v → m'.requestId = some v
  intValue : m.hasIntValue = true → m'.hasIntValue = true ∧ m'.intValue = m.intValue
  boolValue : m.hasBoolValue = true → m'.hasBoolValue = true ∧ m'.boolValue = m.boolValue
  name : m.name.bytes ≠ [] → m'.name = m.name
  bleAddr : ∀ v, m.bleAddr = some v → m'.bleAddr = some v
  snapshotId : ∀ v, m.snapshotId = some v → m'.snapshotId = some v
  sequence : ∀ v, m.sequence = some v → m'.sequence = some v
  total : ∀ v, m.total = some v → m'.total = some v
  valueType : ∀ v, m.valueType = some v → m'.valueType = some v
  capabilityFlags : ∀ v, m.capabilityFlags = some v → m'.capabilityFlags = some v
  minValue : ∀ v, m.minValue = some v → m'.minValue = some v
  maxValue : ∀ v, m.maxValue = some v → m'.maxValue = some v
  step : ∀ v, m.step = some v → m'.step = some v
  capabilityLabel : m.capabilityLabel.bytes ≠ [] → m'.capabilityLabel = m.capabilityLabel
  capabilityUnit : m.capabilityUnit.bytes ≠ [] → m'.capabilityUnit = m.capabilityUnit
  capabilityRevision : ∀ v, m.capabilityRevision = some v → m'.capabilityRevision = some v
  featureId : m.hasFeatureId = true → m'.hasFeatureId = true ∧ m'.featureId = m.featureId
  featureType : ∀ v, m.featureType = some v → m'.featureType = some v
  featureSchemaVersion : ∀ v, m.featureSchemaVersion = some v → m'.featureSchemaVersion = some v
  featureFlags : ∀ v, m.featureFlags = some v → m'.featureFlags = some v
  propertyId : ∀ v, m.propertyId = some v → m'.propertyId = some v
  featureValueBool : ∀ v, m.featureValueBool = some v → m'.featureValueBool = some v
  featureValueInt : ∀ v, m.featureValueInt = some v → m'.featureValueInt = some v
  featureTool : m.hasFeatureTool = true → m'.hasFeatureTool = true ∧ m'.featureTool = m.featureTool
  featureTotal : ∀ v, m.featureTotal = some v → m'.featureTotal = some v
  featureDecimals : ∀ v, m.featureDecimals = some v → m'.featureDecimals = some v
  settingsSupported : ∀ v, m.settingsSupported = some v → m'.settingsSupported = some v
  settingsSchemaRevision :
    ∀ v, m.settingsSchemaRevision = some v → m'.settingsSchemaRevision = some v
  settingId : ∀ v, m.settingId = some v → m'.settingId = some v
  settingGroup : m.hasSettingGroup = true → m'.hasSettingGroup = true ∧ m'.featureId = m.featureId
  settingType : m.hasSettingType = true → m'.hasSettingType = true ∧ m'.settingType = m.settingType
  settingFlags : ∀ v, m.settingFlags = some v → m'.settingFlags = some v
  settingValue : m.hasSettingValue = true → m'.hasSettingValue = true ∧
    m'.settingValue.inUse m.settingType = m.settingValue.inUse m.settingType
  settingsTransactionId :
    ∀ v, m.settingsTransactionId = some v → m'.settingsTransactionId = some v
  settingsExpectedRevision :
    ∀ v, m.settingsExpectedRevision = some v → m'.settingsExpectedRevision = some v
  settingsNewRevision : ∀ v, m.settingsNewRevision = some v → m'.settingsNewRevision = some v
  settingsOptionIndex : ∀ v, m.settingsOptionIndex = some v → m'.settingsOptionIndex = some v
  settingsMaxLength : ∀ v, m.settingsMaxLength = some v → m'.settingsMaxLength = some v
  settingsOptionCount : ∀ v, m.settingsOptionCount = some v → m'.settingsOptionCount = some v
  settingsSequence : ∀ v, m.settingsSequence = some v → m'.settingsSequence = some v

/-- Every value is one that the decoder accepts, `bool_value` is a Boolean, and the value of a
setting stands together with its type. -/
structure GwMessage.RoundTrips (m : GwMessage) : Prop extends m.Readable where
  boolValue : m.hasBoolValue = true → m.boolValue = 0 ∨ m.boolValue = 1
  typed : m.hasSettingValue = true → m.hasSettingType = true

theorem SettingValue.inUse_inUse (type : UInt8) (v : SettingValue) :
    (v.inUse type).inUse type = v.inUse type := by
  by_cases hbool : type = GW_SETTING_TYPE_BOOL
  · simp only [SettingValue.inUse, if_pos hbool]
  by_cases hint : type = GW_SETTING_TYPE_INT
  · simp only [SettingValue.inUse, if_neg hbool, if_pos hint]
  by_cases hstring : type = GW_SETTING_TYPE_STRING
  · simp only [SettingValue.inUse, if_neg hbool, if_neg hint, if_pos hstring]
  · simp only [SettingValue.inUse, if_neg hbool, if_neg hint, if_neg hstring]

theorem agrees_transmitted_iff : m.Agrees m.transmitted ↔
    (m.hasBoolValue = true → m.boolValue = 0 ∨ m.boolValue = 1) ∧
      (m.hasSettingValue = true → m.hasSettingType = true) := by
  constructor
  · intro h
    constructor
    · intro hhas
      obtain ⟨-, hvalue⟩ := h.boolValue hhas
      rw [GwMessage.transmitted] at hvalue
      dsimp only at hvalue
      by_cases hzero : m.boolValue = 0
      · exact Or.inl hzero
      · rw [if_pos hzero] at hvalue
        exact Or.inr hvalue.symm
    · intro hhas
      obtain ⟨hsome, -⟩ := h.settingValue hhas
      rw [GwMessage.transmitted] at hsome
      dsimp only at hsome
      rw [GwMessage.typedValue, isSome_flagged] at hsome
      exact (Bool.and_eq_true_iff.mp hsome).1
  · rintro ⟨hbool, htyped⟩
    exact {
      protocolVersion := rfl
      type := rfl
      command := rfl
      deviceId := fun v hv => hv
      requestId := fun v hv => hv
      intValue := fun _ => ⟨rfl, rfl⟩
      boolValue := by
        intro hhas
        refine ⟨rfl, ?_⟩
        rcases hbool hhas with hzero | hone
        · simp [GwMessage.transmitted, hzero]
        · simp [GwMessage.transmitted, hone]
      name := fun _ => rfl
      bleAddr := fun v hv => hv
      snapshotId := fun v hv => hv
      sequence := fun v hv => hv
      total := fun v hv => hv
      valueType := fun v hv => hv
      capabilityFlags := fun v hv => hv
      minValue := fun v hv => hv
      maxValue := fun v hv => hv
      step := fun v hv => hv
      capabilityLabel := fun _ => rfl
      capabilityUnit := fun _ => rfl
      capabilityRevision := fun v hv => hv
      featureId := fun hhas => ⟨hhas, by simp [GwMessage.transmitted, flagged, hhas]⟩
      featureType := fun v hv => hv
      featureSchemaVersion := fun v hv => hv
      featureFlags := fun v hv => hv
      propertyId := fun v hv => hv
      featureValueBool := fun v hv => hv
      featureValueInt := fun v hv => hv
      featureTool := fun hhas => ⟨hhas, by simp [GwMessage.transmitted, flagged, hhas]⟩
      featureTotal := fun v hv => hv
      featureDecimals := fun v hv => hv
      settingsSupported := fun v hv => hv
      settingsSchemaRevision := fun v hv => hv
      settingId := fun v hv => hv
      settingGroup := fun hhas => ⟨hhas, by simp [GwMessage.transmitted, flagged, hhas]⟩
      settingType := fun hhas => ⟨hhas, by simp [GwMessage.transmitted, flagged, hhas]⟩
      settingFlags := fun v hv => hv
      settingValue := by
        intro hhas
        have hvalue : m.typedValue = some (m.settingValue.inUse m.settingType) :=
          flagged_eq_some_iff.mpr ⟨Bool.and_eq_true_iff.mpr ⟨htyped hhas, hhas⟩, rfl⟩
        simp only [GwMessage.transmitted, hvalue, Option.isSome_some, Option.getD_some,
          SettingValue.inUse_inUse, and_self]
      settingsTransactionId := fun v hv => hv
      settingsExpectedRevision := fun v hv => hv
      settingsNewRevision := fun v hv => hv
      settingsOptionIndex := fun v hv => hv
      settingsMaxLength := fun v hv => hv
      settingsOptionCount := fun v hv => hv
      settingsSequence := fun v hv => hv }

/-- **A message comes back over the wire just when it is readable, has a Boolean in `bool_value` and
a type for the value of its setting.** -/
theorem wire_roundTrip_iff {q : Qcbor} (hq : q.Correct) {cap : Nat} {out : List UInt8}
    (henc : cborCodecEncode q m cap = some out) (hlen : out.length ≤ GW_MSG_MAX_LEN) :
    (∃ m', cborCodecDecode q out = some m' ∧ m.Agrees m') ↔ m.RoundTrips := by
  simp only [cborCodecDecode_encode hq henc hlen]
  constructor
  · rintro ⟨_, ⟨hread, rfl⟩, hagrees⟩
    obtain ⟨hbool, htyped⟩ := agrees_transmitted_iff.mp hagrees
    exact { toReadable := hread, boolValue := hbool, typed := htyped }
  · intro h
    exact ⟨m.transmitted, ⟨h.toReadable, rfl⟩, agrees_transmitted_iff.mpr ⟨h.boolValue, h.typed⟩⟩

/-- A request about the setting with the given id. -/
def settingRequest (id : CString) : GwMessage :=
  { protocolVersion := GW_PROTOCOL_VERSION
    type := .ofBytes (cstr "command")
    command := .ofBytes (cstr "settings_get")
    settingId := some (.ofBytes id) }

theorem settingRequest_back :
    ∃ m', cborCodecDecode .shortest (Cbor.encode (items (settingRequest (cstr "mode")))) = some m' ∧
      (settingRequest (cstr "mode")).Agrees m' := by
  have hlen : (Cbor.encode (items (settingRequest (cstr "mode")))).length ≤ GW_MSG_MAX_LEN := by
    decide
  have henc : cborCodecEncode .shortest (settingRequest (cstr "mode")) GW_MSG_MAX_LEN =
      some (Cbor.encode (items (settingRequest (cstr "mode")))) := by
    decide
  have hid : TextFits GW_SETTINGS_CBOR_MAX_ID_LEN false (.ofBytes (cstr "mode")) :=
    validString_iff.mp (by decide)
  refine (wire_roundTrip_iff Qcbor.shortest_correct henc hlen).mpr ?_
  exact {
    requestId := by decide
    snapshotId := by decide
    featureId := by decide
    settingId := by
      intro t ht
      cases ht
      exact hid
    settingType := by decide
    settingValue := fun h => by cases h
    boolValue := fun h => by cases h
    typed := fun h => by cases h }

/-- The encoder writes an empty id of a setting, which the decoder refuses. -/
theorem settingRequest_refused :
    ¬∀ q : Qcbor, q.Correct → ∀ (m : GwMessage) (cap : Nat) (out : List UInt8),
      cborCodecEncode q m cap = some out → out.length ≤ GW_MSG_MAX_LEN →
        ∃ m', cborCodecDecode q out = some m' ∧ m.Agrees m' := by
  intro h
  have hlen : (Cbor.encode (items (settingRequest []))).length ≤ GW_MSG_MAX_LEN := by
    decide
  have henc : cborCodecEncode .shortest (settingRequest []) GW_MSG_MAX_LEN =
      some (Cbor.encode (items (settingRequest []))) := by
    decide
  obtain ⟨m', hdecode, -⟩ := h .shortest Qcbor.shortest_correct _ _ _ henc hlen
  obtain ⟨hread, -⟩ := (cborCodecDecode_encode Qcbor.shortest_correct henc hlen).mp hdecode
  exact (hread.settingId _ rfl).2.elim (fun h => by cases h) fun h => h rfl

end BleGateway.CborCodec
