import BleGateway.CborCodec.Json
import BleGateway.CborCodec.RoundTrip

/-! # From a message to JSON and back

Every member of the object for a message is found under its name, and says the value of its field.
What does not come back is a request id beyond `INT_MAX`, which `valueint` cuts off, and the flags
of a feature id and of a feature tool, which the way back never sets.
-/

namespace BleGateway.CborCodec

open Settings (GW_PROTOCOL_VERSION)

variable {m : GwMessage} {key : CString}

/-! ## Numbers -/

theorem truncate_intCast (n : Int) : truncate n = n := by
  rw [truncate, Rat.num_intCast, Rat.den_intCast, Int.ofNat_one, Int.tdiv_one]

theorem valueint_intCast (n : Int) :
    valueint n = if INT32_MAX ≤ n then INT32_MAX else if n ≤ INT32_MIN then INT32_MIN else n := by
  rw [valueint, truncate_intCast]
  simp only [Int.cast_le]

/-- `valueint` is exact in the range of `int`. -/
theorem intCast_eq_valueint_iff {n : Int} :
    ((n : ℚ) = valueint n) ↔ INT32_MIN ≤ n ∧ n ≤ INT32_MAX := by
  rw [valueint_intCast, Int.cast_inj]
  have hrange : INT32_MIN ≤ INT32_MAX := by decide
  constructor
  · intro h
    split at h
    · omega
    split at h
    · omega
    · omega
  · rintro ⟨hlo, hhi⟩
    split
    · omega
    split
    · omega
    · rfl

theorem valueint_eq {n : Int} (hlo : INT32_MIN ≤ n) (hhi : n ≤ INT32_MAX) : valueint n = n := by
  have h := intCast_eq_valueint_iff.mpr ⟨hlo, hhi⟩
  exact_mod_cast h.symm

/-! ### Back to the type of a field -/

theorem map_uint8 (o : Option UInt8) :
    (o.map fun v => (v.toNat : Int)).map UInt8.ofInt = o := by
  cases o with
  | none => rfl
  | some v =>
      have hlt := v.toNat_lt
      have hback : UInt8.ofInt v.toNat = v := by
        rw [UInt8.ofInt, Int.emod_eq_of_lt (by omega) (by omega), Int.toNat_natCast,
          UInt8.ofNat_toNat]
      exact congrArg some hback

theorem map_uint16 (o : Option UInt16) :
    (o.map fun v => (v.toNat : Int)).map UInt16.ofInt = o := by
  cases o with
  | none => rfl
  | some v =>
      have hlt := v.toNat_lt
      have hback : UInt16.ofInt v.toNat = v := by
        rw [UInt16.ofInt, Int.emod_eq_of_lt (by omega) (by omega), Int.toNat_natCast,
          UInt16.ofNat_toNat]
      exact congrArg some hback

theorem map_uint32 (o : Option UInt32) :
    (o.map fun v => (v.toNat : Int)).map UInt32.ofInt = o := by
  cases o with
  | none => rfl
  | some v =>
      have hlt := v.toNat_lt
      have hback : UInt32.ofInt v.toNat = v := by
        rw [UInt32.ofInt, Int.emod_eq_of_lt (by omega) (by omega), Int.toNat_natCast,
          UInt32.ofNat_toNat]
      exact congrArg some hback

theorem map_int32 (o : Option Int32) : (o.map Int32.toInt).map Int32.ofInt = o := by
  cases o with
  | none => rfl
  | some v => exact congrArg some (Int32.ofInt_toInt v)

/-! ## The members of a message -/

theorem members_nodup (m : GwMessage) : ((members m).map Prod.fst).Nodup := by
  have hkeys : (members m).map Prod.fst = (members {}).map Prod.fst := rfl
  rw [hkeys]
  decide

theorem mem_member {f : CString × Option JsonValue} (i : Nat) (h : (members m)[i]? = some f) :
    f ∈ members m :=
  List.mem_of_getElem? h

theorem lookup_members {o : Option JsonValue} (h : (key, o) ∈ members m) :
    (jsonObject m).lookup key = o :=
  Fields.lookup_present (members_nodup m) h

/-- A text that may be missing. -/
theorem copyJsonString_members {o : Option Text} (h : (key, o.map .string) ∈ members m)
    {capacity : Nat} (hfits : ∀ t, o = some t → t.bytes.length < capacity) :
    copyJsonString (jsonObject m) key capacity false = some o := by
  rw [copyJsonString, lookup_members h]
  cases o with
  | none => rfl
  | some t =>
      have hvalid : validString t capacity true = true :=
        validString_iff.mpr ⟨hfits t rfl, Or.inl rfl⟩
      exact if_pos hvalid

/-- A text that has to be there, and not to be empty. -/
theorem copyJsonString_required {t : Text} (h : (key, some (.string t)) ∈ members m)
    {capacity : Nat}
    (hfits : t.bytes.length < capacity) :
    copyJsonString (jsonObject m) key capacity true =
      if t.bytes = [] then none else some (some t) := by
  rw [copyJsonString, lookup_members h]
  dsimp only
  have hvalid : validString t capacity (!true) = true ↔ ¬t.bytes = [] := by
    rw [validString_iff, TextFits]
    simp [hfits]
  by_cases hempty : t.bytes = []
  · rw [if_neg (mt hvalid.mp (not_not.mpr hempty)), if_pos hempty]
  · rw [if_pos (hvalid.mpr hempty), if_neg hempty]

theorem optionalJsonInteger_members {α : Type} {o : Option α} {toInt : α → Int}
    (h : (key, o.map fun v => .number (toInt v)) ∈ members m) {minimum maximum : Int}
    (hrange : ∀ v, o = some v → minimum ≤ toInt v ∧ toInt v ≤ maximum) :
    optionalJsonInteger (jsonObject m) key minimum maximum = some (o.map toInt) := by
  rw [optionalJsonInteger, lookup_members h]
  cases o with
  | none => rfl
  | some v =>
      obtain ⟨hlo, hhi⟩ := hrange v rfl
      dsimp only [Option.map_some]
      rw [truncate_intCast, if_neg, if_neg (not_not.mpr rfl)]
      rw [Int.cast_lt, Int.cast_lt]
      omega

theorem jsonUInt8_members {o : Option UInt8}
    (h : (key, o.map fun v => .number (v.toNat : Int)) ∈ members m) :
    optionalJsonInteger (jsonObject m) key 0 UINT8_MAX = some (o.map fun v => (v.toNat : Int)) := by
  refine optionalJsonInteger_members h fun v _ => ?_
  have hlt := v.toNat_lt
  simp only [UINT8_MAX]
  omega

theorem jsonUInt16_members {o : Option UInt16}
    (h : (key, o.map fun v => .number (v.toNat : Int)) ∈ members m) :
    optionalJsonInteger (jsonObject m) key 0 UINT16_MAX =
      some (o.map fun v => (v.toNat : Int)) := by
  refine optionalJsonInteger_members h fun v _ => ?_
  have hlt := v.toNat_lt
  simp only [UINT16_MAX]
  omega

theorem jsonUInt32_members {o : Option UInt32}
    (h : (key, o.map fun v => .number (v.toNat : Int)) ∈ members m) :
    optionalJsonInteger (jsonObject m) key 0 UINT32_MAX =
      some (o.map fun v => (v.toNat : Int)) := by
  refine optionalJsonInteger_members h fun v _ => ?_
  have hlt := v.toNat_lt
  simp only [UINT32_MAX]
  omega

theorem jsonInt32_members {o : Option Int32}
    (h : (key, o.map fun v => .number v.toInt) ∈ members m) :
    optionalJsonInteger (jsonObject m) key INT32_MIN INT32_MAX = some (o.map Int32.toInt) := by
  refine optionalJsonInteger_members h fun v _ => ?_
  have hlo := v.le_toInt
  have hhi := v.toInt_lt
  simp only [INT32_MIN, INT32_MAX]
  omega

theorem jsonBool_members {o : Option Bool} (h : (key, o.map .bool) ∈ members m) :
    jsonBool (jsonObject m) key = some o := by
  rw [jsonBool, lookup_members h]
  cases o <;> rfl

theorem jsonInt_members {n : Int} (h : (key, some (.number n)) ∈ members m) {minimum maximum : Int}
    (hlo : minimum ≤ n) (hhi : n ≤ maximum) (hmin : INT32_MIN ≤ n) :
    jsonInt (jsonObject m) key minimum maximum =
      if n ≤ INT32_MAX then some (some n) else none := by
  rw [jsonInt, lookup_members h]
  dsimp only
  by_cases hmax : n ≤ INT32_MAX
  · rw [if_pos hmax, valueint_eq hmin hmax, if_neg]
    rintro (h | h | h)
    · exact absurd (Int.cast_lt.mp h) (by omega)
    · exact absurd (Int.cast_lt.mp h) (by omega)
    · exact h rfl
  · rw [if_neg hmax, if_pos]
    exact Or.inr (Or.inr (mt intCast_eq_valueint_iff.mp fun h => hmax h.2))

theorem jsonBleAddr_members (m : GwMessage) : jsonBleAddr (jsonObject m) = some m.bleAddr := by
  have haddress := lookup_members (mem_member (m := m) 8 rfl)
  have htype := lookup_members (mem_member (m := m) 9 rfl)
  rw [jsonBleAddr, haddress, htype]
  cases m.bleAddr with
  | none => rfl
  | some a =>
      have hlt := a.type.toNat_lt
      have hvalue : valueint ((a.type.toNat : Int) : ℚ) = a.type.toNat := by
        apply valueint_eq
        · simp only [INT32_MIN]
          omega
        · simp only [INT32_MAX]
          omega
      have hback := map_uint8 (some a.type)
      dsimp only [Option.map_some] at hback ⊢
      rw [parseBleAddr_formatBleAddr]
      dsimp only [Option.bind_some]
      rw [hvalue, if_neg, Option.some.inj hback]
      rintro (h | h | h)
      · omega
      · simp only [UINT8_MAX] at h
        omega
      · exact h rfl

/-- A value that is no number, or an integer that a `double` holds. -/
def Exact (o : Option JsonValue) : Prop :=
  ∀ v, o = some (.number v) → ∃ n : Int, v = n ∧ -exactBound ≤ n ∧ n ≤ exactBound

theorem exact_map {α : Type} (o : Option α) {f : α → JsonValue} (h : ∀ a, Exact (some (f a))) :
    Exact (o.map f) := by
  cases o with
  | none =>
      intro v hv
      cases hv
  | some a => exact h a

theorem exact_int {n : Int} (hlo : -exactBound ≤ n) (hhi : n ≤ exactBound) :
    Exact (some (.number n)) := by
  intro v hv
  exact ⟨n, (JsonValue.number.inj (Option.some.inj hv)).symm, hlo, hhi⟩

theorem exact_string (t : Text) : Exact (some (.string t)) := by
  intro v hv
  cases hv

theorem exact_bool (b : Bool) : Exact (some (.bool b)) := by
  intro v hv
  cases hv

theorem exact_uint8 (n : UInt8) : Exact (some (.number (n.toNat : Int))) := by
  have hlt := n.toNat_lt
  apply exact_int <;> simp only [exactBound] <;> omega

theorem exact_uint16 (n : UInt16) : Exact (some (.number (n.toNat : Int))) := by
  have hlt := n.toNat_lt
  apply exact_int <;> simp only [exactBound] <;> omega

theorem exact_uint32 (n : UInt32) : Exact (some (.number (n.toNat : Int))) := by
  have hlt := n.toNat_lt
  apply exact_int <;> simp only [exactBound] <;> omega

theorem exact_int32 (n : Int32) : Exact (some (.number n.toInt)) := by
  have hlo := n.le_toInt
  have hhi := n.toInt_lt
  apply exact_int <;> simp only [exactBound] <;> omega

theorem exact_members (m : GwMessage) : ∀ f ∈ members m, Exact f.2 := by
  simp only [members, baseMembers, featureMembers, List.forall_mem_append, List.forall_mem_cons,
    List.not_mem_nil, false_imp_iff, implies_true, and_true, exact_map, exact_string, exact_bool,
    exact_uint8, exact_uint16, exact_uint32, exact_int32]

/-- cJSON prints the object of every message, so that it comes back. -/
theorem printable_jsonObject (m : GwMessage) : Printable (jsonObject m) := by
  refine ⟨(members_nodup m).sublist (Fields.map_fst_present_sublist (members m)), ?_⟩
  intro e he v hv
  exact exact_members m _ (Fields.mem_present he) v (congrArg some hv)

theorem jsonInt_requestId (hne : m.requestId ≠ some 0) :
    jsonInt (jsonObject m) (cstr "request_id") 1 UINT32_MAX =
      m.requestId.elim (some none) fun v =>
        if (v.toNat : Int) ≤ INT32_MAX then some (some (v.toNat : Int)) else none := by
  have hmem : (cstr "request_id", m.requestId.map fun v => .number (v.toNat : Int)) ∈ members m :=
    mem_member 4 rfl
  cases hid : m.requestId with
  | none =>
      rw [hid] at hmem
      rw [jsonInt, lookup_members hmem]
      rfl
  | some v =>
      have hpos := one_le_of_ne_zero hne hid
      have hlt := v.toNat_lt
      rw [hid] at hmem
      have hmin : INT32_MIN ≤ (v.toNat : Int) := by
        simp only [INT32_MIN]
        omega
      have hmax : (v.toNat : Int) ≤ UINT32_MAX := by
        simp only [UINT32_MAX]
        omega
      exact jsonInt_members hmem (by omega) hmax hmin

/-! ## Round trips -/

/-- No field of a setting is there. Title and unit of a setting are fields of other messages. -/
structure GwMessage.NoSettings (m : GwMessage) : Prop where
  settingsSupported : m.settingsSupported = none
  settingsSchemaRevision : m.settingsSchemaRevision = none
  settingId : m.settingId = none
  hasSettingGroup : m.hasSettingGroup = false
  hasSettingType : m.hasSettingType = false
  settingFlags : m.settingFlags = none
  hasSettingValue : m.hasSettingValue = false
  settingsTransactionId : m.settingsTransactionId = none
  settingsExpectedRevision : m.settingsExpectedRevision = none
  settingsNewRevision : m.settingsNewRevision = none
  settingsOptionIndex : m.settingsOptionIndex = none
  settingsMaxLength : m.settingsMaxLength = none
  settingsOptionCount : m.settingsOptionCount = none
  settingsSequence : m.settingsSequence = none

/-- The request id is an `int`, there is no feature id and no feature tool, and no text that has to
be there starts with a NUL. -/
structure GwMessage.Bridges (m : GwMessage) : Prop where
  type : m.type.bytes ≠ []
  command : m.command.bytes ≠ []
  deviceId : ∀ t, m.deviceId = some t → t.bytes ≠ []
  requestId : ∀ v, m.requestId = some v → (v.toNat : Int) ≤ INT32_MAX
  featureId : m.hasFeatureId = false
  featureTool : m.hasFeatureTool = false

/-- The base of what comes back. -/
theorem jsonBase_jsonObject (hm : m.Received) (htype : m.type.bytes ≠ [])
    (hcommand : m.command.bytes ≠ [])
    (hrequest : ∀ v, m.requestId = some v → (v.toNat : Int) ≤ INT32_MAX) :
    jsonBase (jsonObject m) = some
      { protocolVersion := m.protocolVersion, type := m.type, command := m.command
        deviceId := m.deviceId.bind nonempty, name := m.name, requestId := m.requestId
        intValue := m.intValue, hasIntValue := true, boolValue := m.boolValue, hasBoolValue := true
        snapshotId := m.snapshotId, sequence := m.sequence, total := m.total
        valueType := m.valueType, capabilityFlags := m.capabilityFlags, minValue := m.minValue
        maxValue := m.maxValue, step := m.step, capabilityLabel := m.capabilityLabel
        capabilityUnit := m.capabilityUnit, capabilityRevision := m.capabilityRevision } := by
  have hoptional : ∀ {t u : Text} {capacity : Nat}, t.bytes.length < capacity →
      nonempty t = some u → u.bytes.length < capacity := by
    intro t u capacity ht hu
    obtain ⟨-, rfl⟩ := flagged_eq_some_iff.mp hu
    exact ht
  have h1 : copyJsonString (jsonObject m) (cstr "type") GW_MSG_TYPE_LEN true =
      some (some m.type) := by
    rw [copyJsonString_required (mem_member 1 rfl) hm.type, if_neg htype]
  have h2 : copyJsonString (jsonObject m) (cstr "command") DEVICE_COMMAND_MAX_LEN true =
      some (some m.command) := by
    rw [copyJsonString_required (mem_member 3 rfl) hm.command, if_neg hcommand]
  have h3 : copyJsonString (jsonObject m) (cstr "device_id") DEVICE_ID_MAX_LEN false =
      some m.deviceId := copyJsonString_members (mem_member 2 rfl) hm.deviceId
  have h4 : copyJsonString (jsonObject m) (cstr "name") DEVICE_NAME_MAX_LEN false =
      some (nonempty m.name) :=
    copyJsonString_members (mem_member 7 rfl) fun t => hoptional hm.name
  have h5 : jsonVersion (jsonObject m) = some m.protocolVersion := by
    have hversion := lookup_members (mem_member (m := m) 0 rfl)
    rw [jsonVersion, hversion, hm.protocolVersion]
    rfl
  have h6 : jsonInt (jsonObject m) (cstr "request_id") 1 UINT32_MAX =
      some (m.requestId.map fun v => (v.toNat : Int)) := by
    rw [jsonInt_requestId hm.requestId]
    cases hid : m.requestId with
    | none => rfl
    | some v => exact if_pos (hrequest v hid)
  have h7 : jsonInt (jsonObject m) (cstr "int_value") INT32_MIN INT32_MAX =
      some (some m.intValue.toInt) := by
    have hlo : INT32_MIN ≤ m.intValue.toInt := m.intValue.le_toInt
    have hhi : m.intValue.toInt ≤ INT32_MAX := by
      have := m.intValue.toInt_lt
      simp only [INT32_MAX]
      omega
    rw [jsonInt_members (mem_member 5 rfl) hlo hhi hlo, if_pos hhi]
  have h8 : jsonBool (jsonObject m) (cstr "bool_value") = some (some (decide (m.boolValue ≠ 0))) :=
    jsonBool_members (mem_member 6 rfl)
  have h9 : optionalJsonInteger (jsonObject m) (cstr "snapshot_id") 1 UINT32_MAX =
      some (m.snapshotId.map fun v => (v.toNat : Int)) := by
    refine optionalJsonInteger_members (mem_member 10 rfl) fun v hv => ?_
    have hlt := v.toNat_lt
    have hpos := one_le_of_ne_zero hm.snapshotId hv
    simp only [UINT32_MAX]
    omega
  have h10 := jsonUInt16_members (o := m.sequence) (mem_member 11 rfl)
  have h11 := jsonUInt16_members (o := m.total) (mem_member 12 rfl)
  have h12 := jsonUInt8_members (o := m.valueType) (mem_member 13 rfl)
  have h13 := jsonUInt8_members (o := m.capabilityFlags) (mem_member 14 rfl)
  have h14 := jsonInt32_members (o := m.minValue) (mem_member 15 rfl)
  have h15 := jsonInt32_members (o := m.maxValue) (mem_member 16 rfl)
  have h16 := jsonUInt32_members (o := m.step) (mem_member 17 rfl)
  have h17 : copyJsonString (jsonObject m) (cstr "capability_label") GW_MSG_CAP_LABEL_LEN false =
      some (nonempty m.capabilityLabel) :=
    copyJsonString_members (mem_member 18 rfl) fun t => hoptional hm.capabilityLabel
  have h18 : copyJsonString (jsonObject m) (cstr "capability_unit") GW_MSG_CAP_UNIT_LEN false =
      some (nonempty m.capabilityUnit) :=
    copyJsonString_members (mem_member 19 rfl) fun t => hoptional hm.capabilityUnit
  have h19 := jsonUInt32_members (o := m.capabilityRevision) (mem_member 20 rfl)
  have hbool : (if decide (m.boolValue ≠ 0) = true then (1 : Int32) else 0) = m.boolValue := by
    rcases hm.boolValue with hzero | hone
    · rw [hzero]
      rfl
    · rw [hone]
      rfl
  simp only [jsonBase, h1, h2, h3, h4, h5, h6, h7, h8, h9, h10, h11, h12, h13, h14, h15, h16, h17,
    h18, h19, Option.bind_eq_bind, Option.bind_some, Option.pure_def, map_uint8, map_uint16,
    map_uint32, map_int32, nonempty_getD, Option.getD_some, Option.isSome_some, Int32.ofInt_toInt,
    hbool]

/-- The fields of a feature come back, but for the flags of two texts. -/
theorem jsonFeature_jsonObject (hm : m.Received) (hnone : m.NoSettings) (msg : GwMessage) :
    jsonFeature (jsonObject m) msg = some { msg with
      featureId := m.featureId, featureType := m.featureType
      featureSchemaVersion := m.featureSchemaVersion, featureFlags := m.featureFlags
      propertyId := m.propertyId, featureValueBool := m.featureValueBool
      featureValueInt := m.featureValueInt, featureTool := m.featureTool
      featureTotal := m.featureTotal, featureDecimals := m.featureDecimals
      bleAddr := m.bleAddr } := by
  have h1 : copyJsonString (jsonObject m) (cstr "feature_id") DEVICE_FEATURE_ID_MAX_LEN false =
      some (flagged m.hasFeatureId m.featureId) := by
    refine copyJsonString_members (mem_member 21 rfl) fun t ht => ?_
    obtain ⟨-, rfl⟩ := flagged_eq_some_iff.mp ht
    exact hm.featureId
  have h2 : copyJsonString (jsonObject m) (cstr "feature_tool") DEVICE_COMMAND_MAX_LEN false =
      some (flagged m.hasFeatureTool m.featureTool) := by
    refine copyJsonString_members (mem_member 28 rfl) fun t ht => ?_
    obtain ⟨-, rfl⟩ := flagged_eq_some_iff.mp ht
    exact hm.featureTool
  have h3 := jsonUInt8_members (o := m.featureType) (mem_member 22 rfl)
  have h4 := jsonUInt16_members (o := m.featureSchemaVersion) (mem_member 23 rfl)
  have h5 := jsonUInt16_members (o := m.featureFlags) (mem_member 24 rfl)
  have h6 := jsonUInt8_members (o := m.propertyId) (mem_member 25 rfl)
  have h7 := jsonInt32_members (o := m.featureValueInt) (mem_member 27 rfl)
  have h8 := jsonUInt16_members (o := m.featureTotal) (mem_member 29 rfl)
  have h9 := jsonUInt8_members (o := m.featureDecimals) (mem_member 30 rfl)
  have h10 := jsonBool_members (o := m.featureValueBool) (mem_member 26 rfl)
  have hid : (flagged m.hasFeatureId m.featureId).getD .empty = m.featureId := by
    cases hhas : m.hasFeatureId with
    | true => rfl
    | false => exact (hm.featureId_unset hhas hnone.hasSettingGroup).symm
  have htool : (flagged m.hasFeatureTool m.featureTool).getD .empty = m.featureTool := by
    cases hhas : m.hasFeatureTool with
    | true => rfl
    | false => exact (hm.featureTool_unset hhas).symm
  simp only [jsonFeature, h1, h2, h3, h4, h5, h6, h7, h8, h9, h10, jsonBleAddr_members,
    Option.bind_eq_bind, Option.bind_some, Option.pure_def, map_uint8, map_uint16, map_int32, hid,
    htool]

/-- The fields that JSON does not carry have their default. -/
theorem eq_of_unset (hm : m.Received) (hnone : m.NoSettings) (hid : m.hasFeatureId = false)
    (htool : m.hasFeatureTool = false) :
    { protocolVersion := m.protocolVersion, type := m.type, command := m.command
      deviceId := m.deviceId, name := m.name, requestId := m.requestId
      intValue := m.intValue, hasIntValue := true, boolValue := m.boolValue, hasBoolValue := true
      snapshotId := m.snapshotId, sequence := m.sequence, total := m.total
      valueType := m.valueType, capabilityFlags := m.capabilityFlags, minValue := m.minValue
      maxValue := m.maxValue, step := m.step, capabilityLabel := m.capabilityLabel
      capabilityUnit := m.capabilityUnit, capabilityRevision := m.capabilityRevision
      featureId := m.featureId, featureType := m.featureType
      featureSchemaVersion := m.featureSchemaVersion, featureFlags := m.featureFlags
      propertyId := m.propertyId, featureValueBool := m.featureValueBool
      featureValueInt := m.featureValueInt, featureTool := m.featureTool
      featureTotal := m.featureTotal, featureDecimals := m.featureDecimals
      bleAddr := m.bleAddr : GwMessage } = m := by
  have hint := hm.hasIntValue
  have hbool := hm.hasBoolValue
  have htype := hm.settingType_unset hnone.hasSettingType
  have hvalue := hm.settingValue_unset hnone.hasSettingValue
  obtain ⟨h1, h2, h3, h4, h5, h6, h7, h8, h9, h10, h11, h12, h13, h14⟩ := hnone
  cases m
  dsimp only at *
  subst_vars
  rfl

/-- A text or a request id that is refused on the way back. -/
theorem jsonBase_eq_none (hm : m.Received) (h : m.type.bytes = [] ∨ m.command.bytes = [] ∨
    ∃ v, m.requestId = some v ∧ INT32_MAX < (v.toNat : Int)) : jsonBase (jsonObject m) = none := by
  cases hbase : jsonBase (jsonObject m) with
  | none => rfl
  | some msg =>
      -- all six members in front were read, so that none of the three was refused
      obtain ⟨type, htype, hbase⟩ := exists_of_bind hbase
      obtain ⟨command, hcommand, hbase⟩ := exists_of_bind hbase
      obtain ⟨deviceId, -, hbase⟩ := exists_of_bind hbase
      obtain ⟨name, -, hbase⟩ := exists_of_bind hbase
      obtain ⟨version, -, hbase⟩ := exists_of_bind hbase
      obtain ⟨requestId, hrequest, -⟩ := exists_of_bind hbase
      rw [copyJsonString_required (mem_member 1 rfl) hm.type] at htype
      rw [copyJsonString_required (mem_member 3 rfl) hm.command] at hcommand
      rw [jsonInt_requestId hm.requestId] at hrequest
      rcases h with hempty | hempty | ⟨v, hid, hlarge⟩
      · rw [if_pos hempty] at htype
        cases htype
      · rw [if_pos hempty] at hcommand
        cases hcommand
      · rw [hid, Option.elim_some, if_neg (by omega)] at hrequest
        cases hrequest

/-- **A received message without fields of settings goes through JSON and comes back just when its
request id is an `int`, it has no feature id and no feature tool, and its texts are not empty.** -/
theorem json_roundTrip_iff {c : CJson} (hc : c.Exact (jsonObject m)) {q : Qcbor}
    {buf : List UInt8} (hm : cborCodecDecode q buf = some m) (hnone : m.NoSettings) {cap : UInt32}
    (hcap : cap ≠ 0)
    (hroom : c.room (jsonObject m) ≤ cap.toInt32.toInt) :
    (∃ s, msgToJson c m cap = some s ∧ jsonToMsg c s = some m) ↔ m.Bridges := by
  obtain ⟨-, e, -, hdecoded⟩ := cborCodecDecode_eq_some_iff.mp hm
  have hreceived := received_of_decoded hdecoded
  have hprint : msgToJson c m cap = some (c.print (jsonObject m)) := by
    rw [msgToJson, if_neg hcap, if_neg (by omega)]
  have hback : jsonToMsg c (c.print (jsonObject m)) =
      (jsonBase (jsonObject m)).bind (jsonFeature (jsonObject m)) := by
    rw [jsonToMsg, hc (printable_jsonObject m)]
    rfl
  rw [hprint]
  simp only [Option.some.injEq, exists_eq_left', hback]
  by_cases hrefused : m.type.bytes = [] ∨ m.command.bytes = [] ∨
      ∃ v, m.requestId = some v ∧ INT32_MAX < (v.toNat : Int)
  · -- the way back fails
    rw [jsonBase_eq_none hreceived hrefused]
    constructor
    · intro h
      cases h
    · intro h
      rcases hrefused with hempty | hempty | ⟨v, hid, hlarge⟩
      · exact absurd hempty h.type
      · exact absurd hempty h.command
      · exact absurd (h.requestId v hid) (by omega)
  · simp only [not_or, not_exists, not_and, not_lt] at hrefused
    obtain ⟨htype, hcommand, hrequest⟩ := hrefused
    rw [jsonBase_jsonObject hreceived htype hcommand hrequest, Option.bind_some,
      jsonFeature_jsonObject hreceived hnone]
    constructor
    · intro h
      have hsame := Option.some.inj h
      refine ⟨htype, hcommand, ?_, hrequest, ?_, ?_⟩
      · intro t ht hempty
        have hdevice : m.deviceId.bind nonempty = m.deviceId := congrArg GwMessage.deviceId hsame
        rw [ht, Option.bind_some, nonempty, flagged_eq_some_iff] at hdevice
        exact of_decide_eq_true hdevice.1 hempty
      · exact (congrArg GwMessage.hasFeatureId hsame).symm
      · exact (congrArg GwMessage.hasFeatureTool hsame).symm
    · intro h
      have hdevice : m.deviceId.bind nonempty = m.deviceId := by
        cases hid : m.deviceId with
        | none => rfl
        | some t =>
            rw [Option.bind_some]
            exact flagged_eq_some_iff.mpr ⟨decide_eq_true (h.deviceId t hid), rfl⟩
      rw [hdevice]
      exact congrArg some (eq_of_unset hreceived hnone h.featureId h.featureTool)

/-- A library that knows one object and its text. -/
def CJson.knowing (o : JsonObject) (text : CString) : CJson where
  print _ := text
  room _ := text.length + 1
  parse s := if s = text then some o else none

theorem CJson.knowing_exact (o : JsonObject) (text : CString) : (CJson.knowing o text).Exact o :=
  fun _ => if_pos rfl

/-- An event with the given request id, as it comes from the wire. -/
def eventWithId (id : UInt32) : GwMessage :=
  { protocolVersion := GW_PROTOCOL_VERSION
    type := .ofBytes (cstr "event")
    command := .ofBytes (cstr "on")
    hasIntValue := true
    hasBoolValue := true
    requestId := some id }

/-- The JSON text of this event. -/
def eventText (id : String) : CString :=
  cstr ("\x7b\"protocol_version\":4,\"type\":\"event\",\"command\":\"on\",\"request_id\":" ++ id ++
    ",\"int_value\":0,\"bool_value\":false\x7d")

theorem eventWithId_noSettings (id : UInt32) : (eventWithId id).NoSettings :=
  ⟨rfl, rfl, rfl, rfl, rfl, rfl, rfl, rfl, rfl, rfl, rfl, rfl, rfl, rfl⟩

theorem event_back : ∃ s,
    msgToJson (.knowing (jsonObject (eventWithId 7)) (eventText "7")) (eventWithId 7) 512 = some s ∧
      jsonToMsg (.knowing (jsonObject (eventWithId 7)) (eventText "7")) s =
        some (eventWithId 7) := by
  have hdecode : cborCodecDecode .shortest (Cbor.encode (items (eventWithId 7))) =
      some (eventWithId 7) := by
    decide
  refine (json_roundTrip_iff (CJson.knowing_exact _ _) hdecode (eventWithId_noSettings 7)
    (by decide) (by decide)).mpr ?_
  exact {
    type := by decide
    command := by decide
    deviceId := fun t ht => by cases ht
    requestId := by
      intro v hv
      cases hv
      decide
    featureId := rfl
    featureTool := rfl }

/-- A request id beyond `INT_MAX` does not come back. -/
theorem event_large_id_lost :
    ¬∀ (c : CJson) (q : Qcbor) (m : GwMessage) (buf : List UInt8) (cap : UInt32),
      c.Exact (jsonObject m) → cborCodecDecode q buf = some m → m.NoSettings → cap ≠ 0 →
        c.room (jsonObject m) ≤ cap.toInt32.toInt →
          ∃ s, msgToJson c m cap = some s ∧ jsonToMsg c s = some m := by
  intro h
  have hdecode : cborCodecDecode .shortest (Cbor.encode (items (eventWithId 3000000000))) =
      some (eventWithId 3000000000) := by
    decide
  obtain ⟨s, hprint, hback⟩ := h
    (.knowing (jsonObject (eventWithId 3000000000)) (eventText "3000000000")) _ _ _ 512
    (CJson.knowing_exact _ _) hdecode (eventWithId_noSettings _) (by decide) (by decide +kernel)
  obtain ⟨-, e, -, hdecoded⟩ := cborCodecDecode_eq_some_iff.mp hdecode
  have hrefused : jsonBase (jsonObject (eventWithId 3000000000)) = none :=
    jsonBase_eq_none (received_of_decoded hdecoded)
      (Or.inr (Or.inr ⟨3000000000, rfl, by decide⟩))
  obtain ⟨root, hroot, hback⟩ := exists_of_bind hback
  obtain ⟨msg, hbase, -⟩ := exists_of_bind hback
  rw [CJson.knowing] at hroot
  obtain ⟨-, ⟨⟩⟩ := Option.ite_none_right_eq_some.mp hroot
  rw [hrefused] at hbase
  cases hbase

end BleGateway.CborCodec
