import BleGateway.CborCodec.Decoded

set_option autoImplicit false

/-! # The settings view

`gw_settings_view.c` reads the frames of the settings streams from the same bytes as
`cbor_codec_decode`, without the message around the setting. Its texts have arrays of their own, and
it refuses a setting of the type `GW_SETTING_TYPE_NONE`.
-/

namespace BleGateway.CborCodec

open Settings (GW_PROTOCOL_VERSION GW_SETTINGS_CBOR_MAX_ID_LEN GW_SETTING_FLAG_READONLY)
open Cbor (Item Entries)

/-! ## The view -/

def GW_SETTINGS_MAX_ID_LEN : Nat := 32
def GW_SETTINGS_MAX_GROUP_LEN : Nat := 32
def GW_SETTINGS_MAX_STRING_LEN : Nat := GW_SETTINGS_VALUE_MAX_LEN

/-- `gw_settings_view_t`. -/
structure SettingsView where
  sequence : Option UInt16
  settingId : Option Text
  title : Option Text
  group : Option Text
  unit : Option Text
  type : Option UInt8
  flags : Option UInt16
  maxLength : Option UInt16
  optionIndex : Option UInt8
  optionCount : Option UInt16
  transactionId : Option UInt64
  expectedRevision : Option UInt32
  newRevision : Option UInt32
  value : Option SettingValue
  deriving DecidableEq

/-- The end of `parse_settings_view`: the value, by the type that has been read, as
`cbor_codec_decode` reads it. -/
def parseSettingsValue (m : Entries) (type : Option UInt8) : Option (Option SettingValue) :=
  decodeSettingValue m type

/-- `parse_settings_view` behind the head of the map. -/
def parseSettingsMap (m : Entries) : Option SettingsView := do
  let sequence ← optionalUInt16 m GW_KEY_SETTINGS_SEQUENCE
  let settingId ← optionalText m GW_KEY_SETTINGS_ID GW_SETTINGS_MAX_ID_LEN false
  let title ← optionalText m GW_KEY_SETTINGS_TITLE GW_MSG_CAP_LABEL_LEN true
  let group ← optionalText m GW_KEY_SETTINGS_GROUP GW_SETTINGS_MAX_GROUP_LEN true
  let unit ← optionalText m GW_KEY_SETTINGS_UNIT GW_MSG_CAP_UNIT_LEN true
  -- `GW_SETTING_TYPE_NONE` is 0
  let type ← optionalUInt m GW_KEY_SETTINGS_TYPE 1 GW_SETTING_TYPE_ENUM.toNat UInt8.ofNat
  let flags ← optionalUInt16 m GW_KEY_SETTINGS_FLAGS
  let maxLength ← optionalUInt16 m GW_KEY_SETTINGS_MAX_LENGTH
  let optionIndex ← optionalUInt8 m GW_KEY_SETTINGS_OPTION_INDEX
  let optionCount ← optionalUInt16 m GW_KEY_SETTINGS_OPTION_COUNT
  let transactionId ← optionalUInt m GW_KEY_SETTINGS_TRANSACTION_ID 0 UINT64_MAX UInt64.ofNat
  let expectedRevision ← optionalUInt32 m GW_KEY_SETTINGS_EXPECTED_REVISION 0
  let newRevision ← optionalUInt32 m GW_KEY_SETTINGS_NEW_REVISION 0
  let value ← parseSettingsValue m type
  return {
    sequence, settingId, title, group, unit, type, flags, maxLength, optionIndex, optionCount
    transactionId, expectedRevision, newRevision, value }

/-- `parse_settings_view`. -/
def parseSettingsView (q : Qcbor) (buf : List UInt8) : Option SettingsView :=
  if buf.length = 0 then none else (q.decode buf).bind parseSettingsMap

/-! ## The two parsers -/

/-- `gw_settings_entry_t`. -/
structure SettingsEntry where
  settingId : Text
  settingType : UInt8
  flags : UInt16
  writable : Bool
  value : Option SettingValue
  group : Option Text
  maxLen : UInt16
  deriving DecidableEq

/-- `gw_settings_snapshot_t` with its one entry. -/
structure SettingsSnapshot where
  view : SettingsView
  entry : SettingsEntry
  deriving DecidableEq

/-- The value that goes into an entry: the member of its type, or `unknown`. -/
def entryValue (unknown : Option SettingValue) (type : UInt8) (v : SettingValue) :
    Option SettingValue :=
  if type = GW_SETTING_TYPE_BOOL then some { bool := v.bool }
  else if type = GW_SETTING_TYPE_INT then some { int := v.int }
  else if type = GW_SETTING_TYPE_STRING then
    (copyText GW_SETTINGS_MAX_STRING_LEN true v.string.bytes).map fun v => { string := v }
  else if type = GW_SETTING_TYPE_ENUM then some { enum := v.enum }
  else unknown

/-- A part of the view that is copied where it is there. -/
def copied {α : Type} (copy : α → Option α) : Option α → Option (Option α)
  | some v => (copy v).map some
  | none => some none

/-- `gw_settings_frame_view_parse`. -/
def gwSettingsFrameViewParse (q : Qcbor) (buf : List UInt8) : Option SettingsSnapshot := do
  let view ← parseSettingsView q buf
  let id ← view.settingId
  let type ← view.type
  let settingId ← copyText GW_SETTINGS_MAX_STRING_LEN true id.bytes
  let group ← copied (fun group => copyText GW_SETTINGS_MAX_STRING_LEN true group.bytes) view.group
  let value ← copied (entryValue (some {}) type) view.value
  return {
    view := view
    entry :=
      { settingId, group, value
        settingType := type
        flags := view.flags.getD 0
        writable := view.flags.all fun flags => flags &&& GW_SETTING_FLAG_READONLY == 0
        maxLen := view.maxLength.getD 0 } }

/-- `gw_settings_value_entry_t`. -/
structure SettingsValueEntry where
  settingId : Text
  settingType : UInt8
  value : Option SettingValue
  deriving DecidableEq

/-- `gw_settings_value_frame_view_parse`. -/
def gwSettingsValueFrameViewParse (q : Qcbor) (buf : List UInt8) : Option SettingsValueEntry := do
  let parsed ← parseSettingsView q buf
  let id ← parsed.settingId
  let type ← parsed.type
  let settingId ← copyText GW_SETTINGS_MAX_ID_LEN true id.bytes
  let value ← copied (entryValue none type) parsed.value
  return {
    settingId, value
    settingType := type }

/-! ## Agreement -/

/-- A snapshot reports the setting of a message. -/
structure SettingsSnapshot.Agrees (s : SettingsSnapshot) (m : GwMessage) : Prop where
  settingId : s.view.settingId = m.settingId ∧ m.settingId = some s.entry.settingId
  type : s.view.type = some m.settingType ∧ s.entry.settingType = m.settingType
  flags : s.view.flags = m.settingFlags ∧ s.entry.flags = m.settingFlags.getD 0
  sequence : s.view.sequence = m.settingsSequence
  title : s.view.title.getD .empty = m.capabilityLabel
  group : s.view.group.isSome = m.hasSettingGroup ∧ s.view.group.getD .empty = m.featureId ∧
    s.entry.group = s.view.group
  unit : s.view.unit.getD .empty = m.capabilityUnit
  optionIndex : s.view.optionIndex = m.settingsOptionIndex
  optionCount : s.view.optionCount = m.settingsOptionCount
  maxLength : s.view.maxLength = m.settingsMaxLength ∧ s.entry.maxLen = m.settingsMaxLength.getD 0
  expectedRevision : s.view.expectedRevision = m.settingsExpectedRevision
  newRevision : s.view.newRevision = m.settingsNewRevision
  transactionId : s.view.transactionId = m.settingsTransactionId
  value : s.view.value.isSome = m.hasSettingValue ∧ s.view.value.getD {} = m.settingValue ∧
    s.entry.value = s.view.value

/-- A value entry reports the setting of a message. -/
structure SettingsValueEntry.Agrees (s : SettingsValueEntry) (m : GwMessage) : Prop where
  settingId : m.settingId = some s.settingId
  type : s.settingType = m.settingType
  value : s.value.isSome = m.hasSettingValue ∧ s.value.getD {} = m.settingValue

/-- Both parsers of the view accept the bytes of a message and report its setting. -/
def DecodersAgree (q : Qcbor) (buf : List UInt8) (m : GwMessage) : Prop :=
  (∃ s, gwSettingsFrameViewParse q buf = some s ∧ s.Agrees m) ∧
    ∃ s, gwSettingsValueFrameViewParse q buf = some s ∧ s.Agrees m

/-- The text with a label is empty, or there is none. -/
def NoText (e : Entries) (key : Int) : Prop :=
  ∀ b, getTextStringInMapN e key = .ok b → Text.ofBytes b = .empty

/-- The setting has a type, and a title, unit or group that it does not have is not replaced by the
text of a capability or feature with which it shares the array. -/
structure Exclusive (e : Entries) : Prop where
  typed : getUInt64InMapN e GW_KEY_SETTINGS_TYPE ≠ .ok 0
  title : itemInMap e GW_KEY_SETTINGS_TITLE = .error .labelNotFound →
    NoText e CBOR_KEY_CAPABILITY_LABEL
  unit : itemInMap e GW_KEY_SETTINGS_UNIT = .error .labelNotFound →
    NoText e CBOR_KEY_CAPABILITY_UNIT
  group : itemInMap e GW_KEY_SETTINGS_GROUP = .error .labelNotFound → NoText e CBOR_KEY_FEATURE_ID

/-! ## Texts in a shared array -/

variable {e : Entries} {allowEmpty : Bool} {capacity : Nat}

theorem eq_ofBytes_of_copyText {b : List UInt8} {t : Text}
    (h : copyText capacity allowEmpty b = some t) : t = .ofBytes b := by
  unfold copyText at h
  split at h
  · cases h
  · exact (Option.some.inj h).symm

/-- A text that fits is copied as it is. -/
theorem copyText_bytes {t : Text} (h : t.bytes.length < capacity) :
    copyText capacity true t.bytes = some t := by
  rw [copyText, if_neg (by simpa using h), Text.ofBytes_bytes]

theorem labelNotFound_iff {key : Int} {o : Option Text}
    (h : optionalText e key capacity allowEmpty = some o) :
    itemInMap e key = .error .labelNotFound ↔ o = none := by
  cases hitem : itemInMap e key with
  | error err =>
      have hget : getTextStringInMapN e key = .error err := by rw [getTextStringInMapN, hitem]
      unfold optionalText at h
      rw [hget] at h
      cases err with
      | labelNotFound =>
          cases h
          simp
      | other => cases h
  | ok item =>
      refine iff_of_false (by simp) ?_
      rintro rfl
      unfold optionalText optional at h
      cases hget : getTextStringInMapN e key with
      | ok b =>
          rw [hget] at h
          obtain ⟨t, -, ht⟩ := Option.map_eq_some_iff.mp h
          cases ht
      | error err =>
          rw [hget] at h
          -- an entry of another kind is no missing label
          rw [getTextStringInMapN, hitem] at hget
          cases item <;> cases hget <;> cases h

theorem getD_empty_iff {key : Int} {o : Option Text}
    (h : optionalText e key capacity allowEmpty = some o) :
    o.getD .empty = .empty ↔ NoText e key := by
  cases o with
  | none =>
      refine iff_of_true rfl fun b hb => ?_
      have hitem := (labelNotFound_iff h).mpr rfl
      rw [getTextStringInMapN, hitem] at hb
      cases hb
  | some t =>
      obtain ⟨b, hb, hcopy⟩ := exists_of_optional h
      have ht := eq_ofBytes_of_copyText hcopy
      constructor
      · intro hempty b' hb'
        obtain rfl : b = b' := Except.ok.inj (hb.symm.trans hb')
        rw [← ht]
        exact hempty
      · intro hnone
        rw [Option.getD_some, ht]
        exact hnone b hb

/-- The array shows the text of the setting exactly if the other text does not show through. -/
theorem shown_iff {key other : Int} {otherCapacity : Nat} {text under : Option Text}
    (htext : optionalText e key capacity true = some text)
    (hunder : optionalText e other otherCapacity allowEmpty = some under) :
    text.getD .empty = text.getD (under.getD .empty) ↔
      (itemInMap e key = .error .labelNotFound → NoText e other) := by
  rw [labelNotFound_iff htext, ← getD_empty_iff hunder]
  cases text with
  | none =>
      rw [Option.getD_none, Option.getD_none]
      exact ⟨fun h _ => h.symm, fun h => (h rfl).symm⟩
  | some t => simp

/-! ## The type -/

/-- The view reads the type as the decoder does, but for the type 0. -/
theorem optionalUInt_settingType {type : Option UInt8}
    (h : optionalUInt e GW_KEY_SETTINGS_TYPE 0 GW_SETTING_TYPE_ENUM.toNat UInt8.ofNat =
      some type) :
    (getUInt64InMapN e GW_KEY_SETTINGS_TYPE = .ok 0 ∧
      optionalUInt e GW_KEY_SETTINGS_TYPE 1 GW_SETTING_TYPE_ENUM.toNat UInt8.ofNat = none) ∨
    (getUInt64InMapN e GW_KEY_SETTINGS_TYPE ≠ .ok 0 ∧
      optionalUInt e GW_KEY_SETTINGS_TYPE 1 GW_SETTING_TYPE_ENUM.toNat UInt8.ofNat =
        some type) := by
  unfold optionalUInt optional at *
  cases hget : getUInt64InMapN e GW_KEY_SETTINGS_TYPE with
  | error err =>
      rw [hget] at h
      refine .inr ⟨by simp, ?_⟩
      cases err with
      | labelNotFound => exact h
      | other => cases h
  | ok v =>
      rw [hget] at h
      dsimp only at h ⊢
      unfold checkUInt at *
      by_cases hzero : v = 0
      · rw [if_pos (.inl (by omega)), hzero]
        exact .inl ⟨rfl, rfl⟩
      · refine .inr ⟨fun heq => hzero (Except.ok.inj heq), ?_⟩
        rw [← h]
        congr 1
        by_cases hmax : GW_SETTING_TYPE_ENUM.toNat < v
        · rw [if_pos (.inr hmax), if_pos (.inr hmax)]
        · rw [if_neg (by omega), if_neg (by omega)]

/-! ## The view of a message -/

/-- The value that has been read has no other member than that of its type, and its text fits. -/
theorem entryValue_of_decode {type : UInt8} {v : SettingValue}
    (h : decodeSettingValue e (some type) = some (some v)) (unknown : Option SettingValue) :
    entryValue unknown type v = some v := by
  unfold decodeSettingValue at h
  unfold entryValue
  dsimp only at h
  by_cases hbool : type = GW_SETTING_TYPE_BOOL
  · rw [if_pos hbool] at h ⊢
    obtain ⟨b, -, hv⟩ := exists_of_optional h
    cases hv
    rfl
  rw [if_neg hbool] at h ⊢
  by_cases hint : type = GW_SETTING_TYPE_INT
  · rw [if_pos hint] at h ⊢
    obtain ⟨n, -, hv⟩ := exists_of_optional h
    obtain ⟨n, -, rfl⟩ := Option.map_eq_some_iff.mp hv
    rfl
  rw [if_neg hint] at h ⊢
  by_cases hstring : type = GW_SETTING_TYPE_STRING
  · rw [if_pos hstring] at h ⊢
    obtain ⟨b, -, hv⟩ := exists_of_optional h
    obtain ⟨t, ht, rfl⟩ := Option.map_eq_some_iff.mp hv
    have hlength : t.bytes.length < GW_SETTINGS_MAX_STRING_LEN := length_of_copyText ht
    show (copyText GW_SETTINGS_MAX_STRING_LEN true t.bytes).map _ = _
    rw [copyText_bytes hlength]
    rfl
  rw [if_neg hstring] at h ⊢
  by_cases henum : type = GW_SETTING_TYPE_ENUM
  · rw [if_pos henum] at h ⊢
    obtain ⟨n, -, hv⟩ := exists_of_optional h
    obtain ⟨n, -, rfl⟩ := Option.map_eq_some_iff.mp hv
    rfl
  · rw [if_neg henum] at h
    cases h

theorem copied_eq {α : Type} {copy : α → Option α} {o : Option α}
    (h : ∀ v, o = some v → copy v = some v) : copied copy o = some o := by
  cases o with
  | none => rfl
  | some v => rw [copied, h v rfl, Option.map_some]

/-- The view of the map that a message was decoded from. -/
theorem parseSettingsMap_of_decoded {m : GwMessage} (h : Decoded e m)
    {title group unit : Option Text} {type : Option UInt8} {value : Option SettingValue}
    (htitle : optionalText e GW_KEY_SETTINGS_TITLE GW_MSG_CAP_LABEL_LEN true = some title)
    (hgroup : optionalText e GW_KEY_SETTINGS_GROUP DEVICE_FEATURE_ID_MAX_LEN true = some group)
    (hunit : optionalText e GW_KEY_SETTINGS_UNIT GW_MSG_CAP_UNIT_LEN true = some unit)
    (htype : optionalUInt e GW_KEY_SETTINGS_TYPE 1 GW_SETTING_TYPE_ENUM.toNat UInt8.ofNat =
      some type)
    (hvalue : decodeSettingValue e type = some value) :
    parseSettingsMap e = some
      { title, group, unit, type, value
        sequence := m.settingsSequence
        settingId := m.settingId
        flags := m.settingFlags
        maxLength := m.settingsMaxLength
        optionIndex := m.settingsOptionIndex
        optionCount := m.settingsOptionCount
        transactionId := m.settingsTransactionId
        expectedRevision := m.settingsExpectedRevision
        newRevision := m.settingsNewRevision } := by
  have hid : optionalText e GW_KEY_SETTINGS_ID GW_SETTINGS_MAX_ID_LEN false = some m.settingId :=
    h.settingId
  have hgroup' : optionalText e GW_KEY_SETTINGS_GROUP GW_SETTINGS_MAX_GROUP_LEN true = some group :=
    hgroup
  unfold parseSettingsMap
  rw [h.settingsSequence, hid, htitle, hgroup', hunit, htype, h.settingFlags, h.settingsMaxLength,
    h.settingsOptionIndex, h.settingsOptionCount, h.settingsTransactionId,
    h.settingsExpectedRevision, h.settingsNewRevision]
  show (decodeSettingValue e type).bind _ = _
  rw [hvalue]
  rfl

/-- Nothing is read from a map with the type 0. -/
theorem parseSettingsMap_untyped
    (htype : optionalUInt e GW_KEY_SETTINGS_TYPE 1 GW_SETTING_TYPE_ENUM.toNat UInt8.ofNat = none) :
    parseSettingsMap e = none := by
  unfold parseSettingsMap
  rw [htype]
  simp

/-! ## The two decoders -/

/-- **The decoders agree** on a message with a setting and its type exactly if the type is not 0 and
no text of a capability or feature shows through. -/
theorem decodersAgree_iff {q : Qcbor} {buf : List UInt8} {m : GwMessage}
    (he : q.decode buf = some e) (hm : cborCodecDecode q buf = some m)
    (hid : m.settingId.isSome = true) (htype : m.hasSettingType = true) :
    DecodersAgree q buf m ↔ Exclusive e := by
  obtain ⟨⟨hpos, -⟩, e', he', hd⟩ := cborCodecDecode_eq_some_iff.mp hm
  obtain rfl : e = e' := Option.some.inj (he.symm.trans he')
  have hview : parseSettingsView q buf = parseSettingsMap e := by
    rw [parseSettingsView, if_neg hpos, he, Option.bind_some]
  obtain ⟨id, hsome⟩ := Option.isSome_iff_exists.mp hid
  obtain ⟨label, title, hlabel, htitle, hshownTitle⟩ := hd.label
  obtain ⟨capUnit, unit, hcapUnit, hunit, hshownUnit⟩ := hd.unit
  obtain ⟨feature, group, hfeature, hgroup, -, hhasGroup, hshownGroup⟩ := hd.featureId
  obtain ⟨type, value, hreadType, hvalue, hhasType, hsettingType, hhasValue, hsettingValue⟩ :=
    hd.settingType
  obtain ⟨t, rfl⟩ := Option.isSome_iff_exists.mp (hhasType ▸ htype)
  rw [Option.getD_some] at hsettingType
  rcases optionalUInt_settingType hreadType with ⟨hzero, hnone⟩ | ⟨htyped, hread⟩
  · -- the view refuses the map
    refine iff_of_false ?_ fun hx => hx.typed hzero
    rintro ⟨⟨s, hs, -⟩, -⟩
    unfold gwSettingsFrameViewParse at hs
    rw [hview, parseSettingsMap_untyped hnone] at hs
    cases hs
  have hparse := parseSettingsMap_of_decoded hd htitle hgroup hunit hread hvalue
  have hvalueCopy : ∀ unknown, copied (entryValue unknown t) value = some value := fun unknown =>
    copied_eq fun v hv => entryValue_of_decode (hv ▸ hvalue) unknown
  have hgroupCopy : copied (fun group => copyText GW_SETTINGS_MAX_STRING_LEN true group.bytes)
      group = some group := by
    refine copied_eq fun g hg => copyText_bytes ?_
    have hlength : g.bytes.length < DEVICE_FEATURE_ID_MAX_LEN :=
      length_of_optionalText (hg ▸ hgroup)
    exact Nat.lt_of_lt_of_le hlength (by decide)
  have hidLength : id.bytes.length < GW_SETTINGS_MAX_ID_LEN :=
    length_of_optionalText (hsome ▸ hd.settingId)
  have hidCopy : copyText GW_SETTINGS_MAX_ID_LEN true id.bytes = some id :=
    copyText_bytes hidLength
  have hidStored : copyText GW_SETTINGS_MAX_STRING_LEN true id.bytes = some id :=
    copyText_bytes (Nat.lt_of_lt_of_le hidLength (by decide))
  have hframe := gwSettingsFrameViewParse.eq_1 q buf
  rw [hview, hparse, hsome] at hframe
  simp only [Option.bind_eq_bind, Option.bind_some, hidStored, hgroupCopy, hvalueCopy] at hframe
  have hentry := gwSettingsValueFrameViewParse.eq_1 q buf
  rw [hview, hparse, hsome] at hentry
  simp only [Option.bind_eq_bind, Option.bind_some, hidCopy, hvalueCopy] at hentry
  have hexclusive : Exclusive e ↔ title.getD .empty = m.capabilityLabel ∧
      unit.getD .empty = m.capabilityUnit ∧ group.getD .empty = m.featureId := by
    rw [hshownTitle, hshownUnit, hshownGroup, shown_iff htitle hlabel, shown_iff hunit hcapUnit,
      shown_iff hgroup hfeature]
    exact ⟨fun h => ⟨h.title, h.unit, h.group⟩, fun h => ⟨htyped, h.1, h.2.1, h.2.2⟩⟩
  rw [hexclusive]
  constructor
  · rintro ⟨⟨s, hs, hagrees⟩, -⟩
    obtain rfl := Option.some.inj (hframe.symm.trans hs)
    exact ⟨hagrees.title, hagrees.unit, hagrees.group.2.1⟩
  · rintro ⟨hl, hu, hg⟩
    refine ⟨⟨_, hframe, ?_⟩, ⟨_, hentry, ?_⟩⟩
    · exact {
        settingId := ⟨hsome.symm, hsome⟩
        type := ⟨by rw [hsettingType], hsettingType.symm⟩
        flags := ⟨rfl, rfl⟩
        sequence := rfl
        title := hl
        group := ⟨hhasGroup.symm, hg, rfl⟩
        unit := hu
        optionIndex := rfl
        optionCount := rfl
        maxLength := ⟨rfl, rfl⟩
        expectedRevision := rfl
        newRevision := rfl
        transactionId := rfl
        value := ⟨hhasValue.symm, hsettingValue.symm, rfl⟩ }
    · exact ⟨hsome, hsettingType.symm, hhasValue.symm, hsettingValue.symm⟩

/-- A frame about the setting `mode` with a type and with further entries. -/
def settingFrame (type : Int) (more : Entries) : Entries :=
  [(CBOR_KEY_PROTOCOL_VERSION, .int 4), (CBOR_KEY_TYPE, .text (cstr "settings_item")),
    (CBOR_KEY_COMMAND, .text (cstr "get")), (CBOR_KEY_INT_VALUE, .int 0),
    (CBOR_KEY_BOOL_VALUE, .bool false), (GW_KEY_SETTINGS_ID, .text (cstr "mode")),
    (GW_KEY_SETTINGS_TYPE, .int type)] ++ more

/-- What the shortest encoding of a frame is decoded to. -/
def sentFrame (frame : Entries) : Option GwMessage := cborCodecDecode .shortest (Cbor.encode frame)

theorem decodersAgree_iff_titled : ∃ m,
    sentFrame (settingFrame 1 [(GW_KEY_SETTINGS_TITLE, .text (cstr "Mode"))]) = some m ∧
      DecodersAgree .shortest
        (Cbor.encode (settingFrame 1 [(GW_KEY_SETTINGS_TITLE, .text (cstr "Mode"))])) m := by
  have hsent : (sentFrame (settingFrame 1 [(GW_KEY_SETTINGS_TITLE, .text (cstr "Mode"))])).map
      (fun m => decide (m.settingId.isSome = true ∧ m.hasSettingType = true)) = some true := by
    decide
  obtain ⟨m, hm, hp⟩ := Option.map_eq_some_iff.mp hsent
  obtain ⟨hid, htype⟩ := of_decide_eq_true hp
  have hdecode : Qcbor.shortest.decode
      (Cbor.encode (settingFrame 1 [(GW_KEY_SETTINGS_TITLE, .text (cstr "Mode"))])) =
      some (settingFrame 1 [(GW_KEY_SETTINGS_TITLE, .text (cstr "Mode"))]) := by decide
  refine ⟨m, hm, (decodersAgree_iff hdecode hm hid htype).mpr ⟨by decide, ?_, ?_, ?_⟩⟩
  · intro htitle
    exact absurd htitle (by decide)
  · intro _ b hb
    exact absurd hb (by
      rw [show getTextStringInMapN _ CBOR_KEY_CAPABILITY_UNIT = .error .labelNotFound by decide]
      simp)
  · intro _ b hb
    exact absurd hb (by
      rw [show getTextStringInMapN _ CBOR_KEY_FEATURE_ID = .error .labelNotFound by decide]
      simp)

/-- The decoder accepts a setting of the type 0, and it gives the label of a capability for the
title that the setting does not have. -/
theorem decoders_differ :
    (∃ m, sentFrame (settingFrame 0 []) = some m ∧ m.settingId.isSome ∧ m.hasSettingType ∧
      ¬DecodersAgree .shortest (Cbor.encode (settingFrame 0 [])) m) ∧
    ∃ m, sentFrame (settingFrame 1 [(CBOR_KEY_CAPABILITY_LABEL, .text (cstr "Lamp"))]) = some m ∧
      m.settingId.isSome ∧ m.hasSettingType ∧ ¬DecodersAgree .shortest
        (Cbor.encode (settingFrame 1 [(CBOR_KEY_CAPABILITY_LABEL, .text (cstr "Lamp"))])) m := by
  constructor
  · have hsent : (sentFrame (settingFrame 0 [])).map
        (fun m => decide (m.settingId.isSome = true ∧ m.hasSettingType = true)) = some true := by
      decide
    have hrefused : gwSettingsFrameViewParse .shortest (Cbor.encode (settingFrame 0 [])) =
        none := by
      decide
    obtain ⟨m, hm, hp⟩ := Option.map_eq_some_iff.mp hsent
    obtain ⟨hid, htype⟩ := of_decide_eq_true hp
    refine ⟨m, hm, hid, htype, ?_⟩
    rintro ⟨⟨s, hs, -⟩, -⟩
    rw [hrefused] at hs
    cases hs
  · have hsent : (sentFrame (settingFrame 1 [(CBOR_KEY_CAPABILITY_LABEL, .text (cstr "Lamp"))])).map
        (fun m => decide ((m.settingId.isSome = true ∧ m.hasSettingType = true) ∧
          m.capabilityLabel.bytes = cstr "Lamp")) = some true := by
      decide
    have hview : (gwSettingsFrameViewParse .shortest (Cbor.encode
        (settingFrame 1 [(CBOR_KEY_CAPABILITY_LABEL, .text (cstr "Lamp"))]))).map
          (fun s => (s.view.title.getD .empty).bytes) = some [] := by
      decide
    obtain ⟨m, hm, hp⟩ := Option.map_eq_some_iff.mp hsent
    obtain ⟨⟨hid, htype⟩, hlabel⟩ := of_decide_eq_true hp
    refine ⟨m, hm, hid, htype, ?_⟩
    rintro ⟨⟨s, hs, hagrees⟩, -⟩
    rw [hs, Option.map_some, hagrees.title, hlabel] at hview
    exact absurd hview (by decide)

end BleGateway.CborCodec
