import BleGateway.DeviceSchema.WellFormed

/-! # Storing a schema and loading it again

`schema_persist_record` of `device_schema_store.c` writes the committed snapshot of a device as one
blob of full size; its key is made from the index of the record. The loader takes every blob that it
accepts into the record of the same index, if the device is still in the device store.
-/

namespace BleGateway.DeviceSchema

/-! ## The blob of a snapshot -/

/-- A `device_schema_settings_state_t` as a byte. -/
def SettingsState.byte : SettingsState → UInt8
  | .unknown => 0
  | .unsupported => 1
  | .ready => 2

def Tool.persisted (t : Tool) : PersistedTool :=
  { command := chars t.command
    label := chars t.label
    unit := chars t.unit
    valueType := t.valueType
    flags := t.flags
    minValue := t.minValue
    maxValue := t.maxValue
    step := t.step }

def Feature.persisted (f : Feature) : PersistedFeature :=
  { featureId := chars f.featureId
    title := chars f.title
    unit := chars f.unit
    featureType := f.featureType
    featureSchemaVersion := f.featureSchemaVersion
    featureFlags := f.featureFlags
    propertyId := f.propertyId
    valueType := f.valueType
    decimals := f.decimals
    writableToolIndex := f.writableToolIndex }

/-- The blob that `schema_persist_record` fills: a zeroed one, the fields, and `memcpy` of as many
tools and features as there are. -/
def Snapshot.persisted (s : Snapshot) : Persisted :=
  { toolCount := UInt8.ofNat s.tools.length
    featureCount := UInt8.ofNat s.features.length
    deviceId := chars s.deviceId
    revision := s.revision
    tools := fun i => (s.tools[i.val]?.getD {}).persisted
    features := fun i => (s.features[i.val]?.getD {}).persisted
    settingsState := s.settingsState.byte
    settingsSchemaRevision := s.settingsSchemaRevision }

/-! ## Keys -/

theorem maxDevices_pos : 0 < DEVICE_STORE_MAX_DEVICES := by decide

/-- The part of an index that a key shows. -/
def bounded (index : Int32) : Ix :=
  ⟨index.toUInt32.toNat % DEVICE_STORE_MAX_DEVICES, Nat.mod_lt _ maxDevices_pos⟩

/-- `sch%02u`, for the numbers below one hundred. -/
def keyOf (i : Ix) : CString :=
  [115, 99, 104, UInt8.ofNat (48 + i.val / 10), UInt8.ofNat (48 + i.val % 10)]

/-- `schema_nvs_key`. -/
def schemaNvsKey (index : Int32) : CString := keyOf (bounded index)

/-- The blobs of the namespace by their keys. -/
abbrev Nvs := CString → Option Blob

/-- `schema_persist_record`. -/
def schemaPersistRecord (nvs : Nvs) (index : Int32) (snapshot : Snapshot) : Nvs :=
  Function.update nvs (schemaNvsKey index) (some (.v3 snapshot.persisted))

/-- `schema_load_persisted`. -/
def schemaLoadPersisted (known : DeviceId → Bool) (nvs : Nvs) : Records :=
  loadPersisted known fun i => nvs (schemaNvsKey (Int32.ofNat i.val))

/-- The record that `schema_runtime_find_locked` finds for a device. -/
def recordOf (records : Records) (id : DeviceId) : Option Record :=
  Directory.record Record.used (·.committed.deviceId) records id

theorem keyOf_injective : Function.Injective keyOf := by
  intro i j h
  revert i j
  decide

theorem bounded_ofNat (i : Ix) : bounded (Int32.ofNat i.val) = i := by
  revert i
  decide

/-! ## Texts -/

/-- A text of an array does not hold the NUL that ends it. -/
def Plain {size : Nat} (b : CharBuf size) : Prop := ∀ c ∈ b.text, c ≠ 0

variable {size : Nat} {b : CharBuf size}

/-- An array is the text and the NULs behind it. -/
theorem ofFn_chars (b : CharBuf size) :
    List.ofFn (chars b) = b.text ++ List.replicate (size - b.text.length) 0 := by
  have hle := b.bounded
  apply List.ext_getElem
  · rw [List.length_ofFn, List.length_append, List.length_replicate]
    omega
  · intro k hk hk'
    rw [List.getElem_ofFn, chars]
    by_cases htext : k < b.text.length
    · rw [List.getElem_append_left htext, List.getElem?_eq_getElem htext]
      rfl
    · rw [List.getElem_append_right (Nat.le_of_not_lt htext), List.getElem_replicate,
        List.getElem?_eq_none (Nat.le_of_not_lt htext)]
      rfl

theorem chars_text (h : Plain b) : (chars b).text = b.text := by
  have hle := b.bounded
  obtain ⟨n, hn⟩ : ∃ n, size - b.text.length = n + 1 := ⟨size - b.text.length - 1, by omega⟩
  rw [Chars.text, ofFn_chars, hn, List.replicate_succ]
  rw [List.takeWhile_append_of_pos fun c hc => decide_eq_true (h c hc)]
  simp

theorem chars_terminated (h : Plain b) :
    (chars b).terminated = true := by
  rw [Chars.terminated, chars_text h]
  exact decide_eq_true b.bounded

theorem chars_copy [NeZero size] (h : Plain b) :
    (chars b).copy = b := by
  apply CharBuf.ext
  rw [Chars.copy, chars_text h]
  exact strlcpy_text b.bounded

/-! ## What is stored is what is loaded -/

/-- The texts of a tool and of a feature. -/
structure Tool.Plain (t : Tool) : Prop where
  command : DeviceSchema.Plain t.command
  label : DeviceSchema.Plain t.label
  unit : DeviceSchema.Plain t.unit

structure Feature.Plain (f : Feature) : Prop where
  featureId : DeviceSchema.Plain f.featureId
  title : DeviceSchema.Plain f.title
  unit : DeviceSchema.Plain f.unit

/-- A committed snapshot of a device: it has passed the checks of the stream, and its texts have no
NUL inside. -/
structure Snapshot.Committed (s : Snapshot) : Prop where
  checked : s.Checked
  named : s.deviceId.text ≠ []
  templates : ∀ f ∈ s.features, featureMatchesTemplate f = true
  plain : Plain s.deviceId
  tools_plain : ∀ t ∈ s.tools, t.Plain
  features_plain : ∀ f ∈ s.features, f.Plain

theorem Tool.persisted_tool {t : Tool} (h : t.Plain) : t.persisted.tool = t := by
  rw [PersistedTool.tool, Tool.persisted, chars_copy h.command, chars_copy h.label,
    chars_copy h.unit]

theorem Tool.persisted_valid {t : Tool} (h : t.Plain) (hvalid : validTool t = true) :
    t.persisted.valid = true := by
  rw [PersistedTool.valid, persisted_tool h, hvalid, Bool.and_true]
  exact chars_terminated h.command

theorem Feature.persisted_feature {f : Feature} (h : f.Plain) : f.persisted.feature = f := by
  rw [PersistedFeature.feature, Feature.persisted, chars_copy h.featureId, chars_copy h.title,
    chars_copy h.unit]

theorem Feature.persisted_valid {f : Feature} (h : f.Plain)
    (hid : validFeatureId f.featureId = true) (htemplate : featureMatchesTemplate f = true) :
    f.persisted.valid = true := by
  rw [PersistedFeature.valid, persisted_feature h, hid, htemplate, Bool.and_true, Bool.and_true]
  exact chars_terminated h.featureId

theorem settingsState_byte (state : SettingsState) : settingsState state.byte = state := by
  cases state
  · rfl
  · rfl
  · rfl

/-- As many entries of the array as there are in the list. -/
theorem take_ofFn {α β : Type} {n : Nat} {l : List α} (f : α → β) (d : α) (h : l.length ≤ n) :
    (List.ofFn fun i : Fin n => f (l[i.val]?.getD d)).take l.length = l.map f := by
  apply List.ext_getElem
  · rw [List.length_take, List.length_ofFn, List.length_map]
    omega
  · intro k hk hk'
    rw [List.length_map] at hk'
    rw [List.getElem_take, List.getElem_ofFn, List.getElem_map]
    show f (l[k]?.getD d) = f l[k]
    rw [List.getElem?_eq_getElem hk', Option.getD_some]

namespace Snapshot

variable {s : Snapshot}

theorem count_toNat {n m : Nat} (h : n ≤ m) (hm : m < 256) : (UInt8.ofNat n).toNat = n := by
  rw [UInt8.toNat_ofNat']
  exact Nat.mod_eq_of_lt (by omega)

theorem persisted_tools (h : s.Checked) : s.persisted.usedTools = s.tools.map Tool.persisted := by
  rw [Persisted.usedTools]
  show (List.ofFn fun i : Fin DEVICE_SCHEMA_MAX_TOOLS => _).take
    (UInt8.ofNat s.tools.length).toNat = _
  rw [count_toNat h.tools_le (by decide)]
  exact take_ofFn Tool.persisted {} h.tools_le

theorem persisted_features (h : s.Checked) :
    s.persisted.usedFeatures = s.features.map Feature.persisted := by
  rw [Persisted.usedFeatures]
  show (List.ofFn fun i : Fin DEVICE_SCHEMA_MAX_FEATURES => _).take
    (UInt8.ofNat s.features.length).toNat = _
  rw [count_toNat h.features_le (by decide)]
  exact take_ofFn Feature.persisted {} h.features_le

/-- The blob holds the whole content. -/
theorem persisted_snapshot (h : s.Committed) : s.persisted.snapshot =
    { s with state := .unknown, snapshotId := 0 } := by
  have htools : (s.tools.map Tool.persisted).map PersistedTool.tool = s.tools := by
    rw [List.map_map]
    exact (List.map_congr_left fun t ht => Tool.persisted_tool (h.tools_plain t ht)).trans
      (List.map_id _)
  have hfeatures :
      (s.features.map Feature.persisted).map PersistedFeature.feature = s.features := by
    rw [List.map_map]
    exact (List.map_congr_left fun f hf => Feature.persisted_feature (h.features_plain f hf)).trans
      (List.map_id _)
  rw [Persisted.snapshot, persisted_tools h.checked, persisted_features h.checked, htools,
    hfeatures]
  have hid : s.persisted.deviceId.copy = s.deviceId := chars_copy h.plain
  have hstate : DeviceSchema.settingsState s.persisted.settingsState = s.settingsState :=
    settingsState_byte s.settingsState
  rw [hid, hstate]
  rfl

/-- The loader accepts the blob of a device that it knows. -/
theorem persisted_load (h : s.Committed) {known : DeviceId → Bool}
    (hknown : known s.deviceId = true) :
    s.persisted.load known = some s.persisted.snapshot := by
  have htools : s.persisted.toolCount.toNat = s.tools.length :=
    count_toNat h.checked.tools_le (by decide)
  have hfeatures : s.persisted.featureCount.toNat = s.features.length :=
    count_toNat h.checked.features_le (by decide)
  have htext : s.persisted.deviceId.text = s.deviceId.text := chars_text h.plain
  have hterminated : s.persisted.deviceId.terminated = true := chars_terminated h.plain
  have hcopy : s.persisted.deviceId.copy = s.deviceId := chars_copy h.plain
  have htoolsValid : (s.tools.map Tool.persisted).all PersistedTool.valid = true := by
    apply List.all_eq_true.mpr
    intro t ht
    obtain ⟨tool, hmem, rfl⟩ := List.mem_map.mp ht
    exact Tool.persisted_valid (h.tools_plain tool hmem) (h.checked.tools_valid tool hmem)
  have hfeaturesValid : (s.features.map Feature.persisted).all PersistedFeature.valid = true := by
    apply List.all_eq_true.mpr
    intro f hf
    obtain ⟨feature, hmem, rfl⟩ := List.mem_map.mp hf
    exact Feature.persisted_valid (h.features_plain feature hmem)
      (h.checked.ids_valid feature hmem) (h.templates feature hmem)
  have hcounts : ¬ (DEVICE_SCHEMA_MAX_TOOLS < s.tools.length ∨
      DEVICE_SCHEMA_MAX_FEATURES < s.features.length ∨ s.deviceId.text = []) := by
    rintro (hmany | hmany | hnone)
    · exact absurd h.checked.tools_le (Nat.not_le_of_lt hmany)
    · exact absurd h.checked.features_le (Nat.not_le_of_lt hmany)
    · exact h.named hnone
  rw [Persisted.load, htools, hfeatures, htext, if_neg hcounts, hterminated, hcopy, hknown,
    persisted_tools h.checked, persisted_features h.checked, htoolsValid, hfeaturesValid]
  rfl

end Snapshot

section Store

variable {s : Snapshot} {known : DeviceId → Bool} {nvs : Nvs} {index : Int32}

/-- What the loader makes of one blob. -/
def loadBlob (known : DeviceId → Bool) (b : Option Blob) : Record :=
  match b.bind (Blob.load known) with
  | some snapshot => .loaded snapshot
  | none => {}

/-- **One key, one record**: nothing but the record of the index is loaded anew. -/
theorem load_persist_eq (known : DeviceId → Bool) (nvs : Nvs) (index : Int32) (s : Snapshot) :
    schemaLoadPersisted known (schemaPersistRecord nvs index s) =
      Function.update (schemaLoadPersisted known nvs) (bounded index)
        (loadBlob known (some (.v3 s.persisted))) := by
  funext j
  have hkey : schemaNvsKey (Int32.ofNat j.val) = keyOf j := by
    rw [schemaNvsKey, bounded_ofNat]
  show loadBlob known (schemaPersistRecord nvs index s (schemaNvsKey (Int32.ofNat j.val))) = _
  rw [hkey, schemaPersistRecord]
  by_cases hj : j = bounded index
  · rw [hj, Function.update_self]
    exact congrArg (loadBlob known) (Function.update_self ..)
  · rw [Function.update_of_ne hj]
    show _ = loadBlob known (nvs (schemaNvsKey (Int32.ofNat j.val)))
    rw [hkey]
    apply congrArg (loadBlob known)
    exact Function.update_of_ne (fun heq => hj (keyOf_injective heq)) ..

/-- The record of a device that the loader knows. -/
theorem loadBlob_persisted (h : s.Committed) (hknown : known s.deviceId = true) :
    loadBlob known (some (.v3 s.persisted)) = .loaded s := by
  rw [loadBlob, Option.bind_some]
  show (match s.persisted.load known with
    | some snapshot => Record.loaded snapshot
    | none => {}) = _
  rw [Snapshot.persisted_load h hknown, Snapshot.persisted_snapshot h]
  rfl

/-- The record of an unknown device stays empty. -/
theorem loadBlob_unknown (h : s.Committed) (hknown : known s.deviceId = false) :
    loadBlob known (some (.v3 s.persisted)) = {} := by
  have hcopy : s.persisted.deviceId.copy = s.deviceId := chars_copy h.plain
  have hnone : s.persisted.load known = none := by
    rw [Persisted.load]
    split
    · rfl
    · rw [hcopy, hknown, Bool.and_false]
      rfl
  rw [loadBlob, Option.bind_some]
  show (match s.persisted.load known with
    | some snapshot => Record.loaded snapshot
    | none => {}) = _
  rw [hnone]

/-- **The round trip.** What is persisted for a device of the device store is loaded with the same
content under the same index. The records of all other indices are loaded as before, and so is what
the loader finds for another device, unless its record was the one of the index. -/
theorem load_persisted (h : s.Committed) (hknown : known s.deviceId = true) (nvs : Nvs)
    (index : Int32) :
    (∃ r, schemaLoadPersisted known (schemaPersistRecord nvs index s) (bounded index) = r ∧
      r.used = true ∧ r.hasCommitted = true ∧ r.committed.state = .ready ∧
      r.committed.deviceId = s.deviceId ∧ r.committed.contentEqual s = true) ∧
    (∀ j, j ≠ bounded index → schemaLoadPersisted known (schemaPersistRecord nvs index s) j =
      schemaLoadPersisted known nvs j) ∧
    ∀ id, id ≠ s.deviceId →
      ((schemaLoadPersisted known nvs (bounded index)).used = true →
        (schemaLoadPersisted known nvs (bounded index)).committed.deviceId ≠ id) →
      recordOf (schemaLoadPersisted known (schemaPersistRecord nvs index s)) id =
        recordOf (schemaLoadPersisted known nvs) id := by
  rw [load_persist_eq, loadBlob_persisted h hknown]
  refine ⟨⟨_, rfl, ?_⟩, fun j hj => ?_, fun id hid hold => ?_⟩
  · rw [Function.update_self]
    refine ⟨rfl, rfl, rfl, rfl, ?_⟩
    simp [Record.loaded, Snapshot.contentEqual]
  · rw [Function.update_of_ne hj]
  · rw [recordOf, recordOf]
    apply Directory.record_update_of_ne
    · intro hused hkey
      exact hold hused hkey
    · intro _ hkey
      exact hid hkey.symm

end Store

/-! ## A dimmer -/

def dimmerTool : Tool :=
  { command := strlcpy _ [100]
    label := strlcpy _ [68]
    valueType := VALUE_TYPE_INT
    maxValue := 100
    step := 1 }

def dimmerFeature : Feature :=
  { featureId := strlcpy _ [98]
    featureType := 2
    featureSchemaVersion := 1
    propertyId := 8
    valueType := VALUE_TYPE_INT }

/-- A schema with one tool and one feature. -/
def dimmer (id : DeviceId) : Snapshot :=
  { deviceId := id
    state := .ready
    revision := 3
    tools := [dimmerTool]
    features := [dimmerFeature]
    settingsState := .ready
    settingsSchemaRevision := 2 }

instance {size : Nat} (b : CharBuf size) : Decidable (Plain b) :=
  decidable_of_iff (b.text.all (fun c => !(c == 0)) = true) (by simp [Plain])

theorem dimmer_committed {id : DeviceId} (hid : id.text ≠ []) (hplain : Plain id) :
    (dimmer id).Committed where
  checked :=
    { tools_le := Nat.le_of_lt (by decide : 1 < DEVICE_SCHEMA_MAX_TOOLS)
      features_le := Nat.le_of_lt (by decide : 1 < DEVICE_SCHEMA_MAX_FEATURES)
      tools_valid := fun t ht => by
        rw [List.mem_singleton.mp ht]
        decide
      ids_valid := fun f hf => by
        rw [List.mem_singleton.mp hf]
        decide }
  named := hid
  templates f hf := by
    rw [List.mem_singleton.mp hf]
    decide
  plain := hplain
  tools_plain t ht := by
    rw [List.mem_singleton.mp ht]
    exact ⟨by decide, by decide, by decide⟩
  features_plain f hf := by
    rw [List.mem_singleton.mp hf]
    exact ⟨by decide, by decide, by decide⟩

theorem lamp_committed : (dimmer lamp).Committed :=
  dimmer_committed (by decide) (by decide)

/-- The dimmer comes back with its content. -/
theorem load_persisted_lamp : ∃ r, schemaLoadPersisted (· = lamp)
    (schemaPersistRecord (fun _ => none) 2 (dimmer lamp)) (bounded 2) = r ∧
      r.committed.contentEqual (dimmer lamp) = true := by
  have hloaded := @load_persisted (dimmer lamp) (· = lamp) lamp_committed (by decide)
    (fun _ => none) 2
  obtain ⟨⟨r, hr, -, -, -, -, hequal⟩, -, -⟩ := hloaded
  exact ⟨r, hr, hequal⟩

/-- A device that has left the device store gets no record, and a blob under the key of another
device's record takes its place. -/
theorem persisted_not_loaded :
    (∃ (known : DeviceId → Bool) (s : Snapshot), s.Committed ∧ ∀ (nvs : Nvs) (index : Int32),
      schemaLoadPersisted known (schemaPersistRecord nvs index s) (bounded index) = {}) ∧
    ∃ (known : DeviceId → Bool) (nvs : Nvs) (index : Int32) (s : Snapshot) (id : DeviceId),
      s.Committed ∧ known s.deviceId = true ∧ id ≠ s.deviceId ∧
        (recordOf (schemaLoadPersisted known nvs) id).isSome = true ∧
        recordOf (schemaLoadPersisted known (schemaPersistRecord nvs index s)) id = none := by
  constructor
  · refine ⟨fun _ => false, dimmer lamp, lamp_committed, fun nvs index => ?_⟩
    rw [load_persist_eq, loadBlob_unknown lamp_committed rfl, Function.update_self]
  · refine ⟨fun _ => true, schemaPersistRecord (fun _ => none) 2 (dimmer plug), 2, dimmer lamp,
      plug, lamp_committed, rfl, by decide, by decide +kernel, ?_⟩
    rw [← Option.isNone_iff_eq_none]
    decide +kernel

end BleGateway.DeviceSchema
