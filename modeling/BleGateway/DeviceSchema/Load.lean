import BleGateway.DeviceSchema.Discovery

set_option autoImplicit false

/-! # Loading the stored schemas

`schema_load_persisted` of `device_schema_store.c`: the blobs of the store, the migration of the
blobs of version 2, and the checks of a blob. A blob is given by its fields; its version and its
size only decide which layout it has. Its `char` arrays need not be terminated. The loader tests
that for the texts that it compares; a label, title or unit without a terminator is cut here.
-/

namespace BleGateway.DeviceSchema

/-! ## Character arrays -/

/-- The bytes of a `char[size]` array. -/
abbrev Chars (size : Nat) := Fin size → UInt8

namespace Chars

variable {size : Nat} (c : Chars size)

/-- The bytes in front of the first NUL; its length is `strnlen`. -/
def text : CString := (List.ofFn c).takeWhile (· ≠ 0)

/-- A NUL lies inside the array. -/
def terminated : Bool := c.text.length < size

/-- `strlcpy` into an array of the same size. -/
def copy [NeZero size] : CharBuf size := strlcpy size c.text

end Chars

/-- The array that holds a text, filled up with NUL. -/
def chars {size : Nat} (b : CharBuf size) : Chars size := fun i => b.text[i.val]?.getD 0

/-! ## Blobs -/

/-- A `device_schema_tool_t` in a blob. -/
structure PersistedTool where
  command : Chars DEVICE_COMMAND_MAX_LEN
  label : Chars GW_MSG_CAP_LABEL_LEN
  unit : Chars GW_MSG_CAP_UNIT_LEN
  valueType : UInt8
  flags : UInt8
  minValue : Int32
  maxValue : Int32
  step : UInt32

/-- A `device_schema_feature_t` in a blob. -/
structure PersistedFeature where
  featureId : Chars DEVICE_FEATURE_ID_MAX_LEN
  title : Chars GW_MSG_CAP_LABEL_LEN
  unit : Chars GW_MSG_CAP_UNIT_LEN
  featureType : UInt8
  featureSchemaVersion : UInt16
  featureFlags : UInt16
  propertyId : UInt8
  valueType : UInt8
  decimals : UInt8
  writableToolIndex : Int8

/-- `persisted_schema_v2_t`, without its version. -/
structure PersistedV2 where
  toolCount : UInt8
  featureCount : UInt8
  deviceId : Chars DEVICE_ID_MAX_LEN
  revision : UInt32
  tools : Fin DEVICE_SCHEMA_MAX_TOOLS → PersistedTool
  features : Fin DEVICE_SCHEMA_MAX_FEATURES → PersistedFeature

/-- `persisted_schema_t`, without its version. -/
structure Persisted extends PersistedV2 where
  settingsState : UInt8
  settingsSchemaRevision : UInt16

/-- A blob, by the layout that its version and its size tell. -/
inductive Blob
  | v2 (p : PersistedV2)
  | v3 (p : Persisted)
  /-- Any other version or size. -/
  | incompatible

namespace PersistedTool

variable (t : PersistedTool)

def tool : Tool :=
  { command := t.command.copy
    label := t.label.copy
    unit := t.unit.copy
    valueType := t.valueType
    flags := t.flags
    minValue := t.minValue
    maxValue := t.maxValue
    step := t.step }

/-- `schema_valid_tool`. -/
def valid : Bool := t.command.terminated && validTool t.tool

end PersistedTool

namespace PersistedFeature

variable (f : PersistedFeature)

def feature : Feature :=
  { featureId := f.featureId.copy
    title := f.title.copy
    unit := f.unit.copy
    featureType := f.featureType
    featureSchemaVersion := f.featureSchemaVersion
    featureFlags := f.featureFlags
    propertyId := f.propertyId
    valueType := f.valueType
    decimals := f.decimals
    writableToolIndex := f.writableToolIndex }

/-- `schema_valid_feature_id` and `schema_feature_matches_template`. -/
def valid : Bool :=
  f.featureId.terminated && validFeatureId f.feature.featureId && featureMatchesTemplate f.feature

end PersistedFeature

/-! ## The loader -/

/-- The migration of a blob of version 2. -/
def PersistedV2.migrate (p : PersistedV2) : Persisted :=
  { p with
    deviceId := chars p.deviceId.copy
    settingsState := 1
    settingsSchemaRevision := 0 }

/-- The settings state that a blob stores. -/
def settingsState (stored : UInt8) : SettingsState :=
  if stored = 0 then .unknown else if stored = 2 then .ready else .unsupported

namespace Persisted

variable (p : Persisted)

/-- The first `tool_count` tools. -/
def usedTools : List PersistedTool := (List.ofFn p.tools).take p.toolCount.toNat

/-- The first `feature_count` features. -/
def usedFeatures : List PersistedFeature := (List.ofFn p.features).take p.featureCount.toNat

/-- The committed snapshot of the record that a blob fills. -/
def snapshot : Snapshot :=
  { deviceId := p.deviceId.copy
    revision := p.revision
    tools := p.usedTools.map PersistedTool.tool
    features := p.usedFeatures.map PersistedFeature.feature
    settingsState := DeviceSchema.settingsState p.settingsState
    settingsSchemaRevision := p.settingsSchemaRevision }

/-- The checks of the loader; `known` are the devices of the device store. -/
def load (known : DeviceId → Bool) : Option Snapshot :=
  if DEVICE_SCHEMA_MAX_TOOLS < p.toolCount.toNat ∨
      DEVICE_SCHEMA_MAX_FEATURES < p.featureCount.toNat ∨ p.deviceId.text = [] then none
  else if !(p.deviceId.terminated && known p.deviceId.copy) then none
  else if p.usedTools.all PersistedTool.valid && p.usedFeatures.all PersistedFeature.valid then
    some p.snapshot
  else none

end Persisted

/-- The snapshot that a blob gives, if the loader accepts it. -/
def Blob.load (known : DeviceId → Bool) : Blob → Option Snapshot
  | .v2 p => p.migrate.load known
  | .v3 p => p.load known
  | .incompatible => none

/-- `schema_load_persisted`; `nvs` has the blob under each key. -/
def loadPersisted (known : DeviceId → Bool) (nvs : Ix → Option Blob) : Records := fun i =>
  match (nvs i).bind (Blob.load known) with
  | some snapshot => .loaded snapshot
  | none => {}

/-- The component after `device_schema_init`. -/
def boot (known : DeviceId → Bool) (nvs : Ix → Option Blob) : Sys :=
  { records := loadPersisted known nvs }

/-! ## What the loader has checked -/

section

variable {known : DeviceId → Bool} {p : Persisted} {snapshot : Snapshot} {b : Blob}

theorem Persisted.load_some (h : p.load known = some snapshot) :
    p.toolCount.toNat ≤ DEVICE_SCHEMA_MAX_TOOLS ∧
      p.featureCount.toNat ≤ DEVICE_SCHEMA_MAX_FEATURES ∧ p.deviceId.text ≠ [] ∧
        p.deviceId.terminated = true ∧ (∀ t ∈ p.usedTools, t.valid = true) ∧
          (∀ f ∈ p.usedFeatures, f.valid = true) ∧ snapshot = p.snapshot := by
  unfold load at h
  split at h
  · cases h
  rename_i hcount
  split at h
  · cases h
  rename_i hknown
  split at h
  · rename_i hvalid
    cases h
    rw [Bool.and_eq_true, List.all_eq_true, List.all_eq_true] at hvalid
    push Not at hcount
    simp only [Bool.not_eq_true', Bool.not_eq_false, Bool.and_eq_true] at hknown
    exact ⟨hcount.1, hcount.2.1, hcount.2.2, hknown.1, hvalid.1, hvalid.2, rfl⟩
  · cases h

/-- What the loader accepts is a blob of version 3, after the migration. -/
theorem Blob.load_some (h : b.load known = some snapshot) :
    ∃ p : Persisted, p.load known = some snapshot := by
  cases b with
  | v2 p => exact ⟨p.migrate, h⟩
  | v3 p => exact ⟨p, h⟩
  | incompatible => cases h

theorem Persisted.load_deviceId (h : p.load known = some snapshot) :
    snapshot.deviceId.text ≠ [] := by
  obtain ⟨-, -, hne, hterm, -, -, rfl⟩ := load_some h
  have hcopy : (p.deviceId.copy).text = p.deviceId.text :=
    strlcpy_text (by simpa [Chars.terminated] using hterm)
  show (p.deviceId.copy).text ≠ []
  rw [hcopy]
  exact hne

/-- The component starts as its runs do. -/
theorem boot_initial (known : DeviceId → Bool) (nvs : Ix → Option Blob) :
    (boot known nvs).Initial where
  loaded i hu := by
    have hrec : (boot known nvs).records i = loadPersisted known nvs i := rfl
    rw [hrec] at hu ⊢
    unfold loadPersisted at hu ⊢
    cases hb : (nvs i).bind (Blob.load known) with
    | none =>
        rw [hb] at hu
        cases hu
    | some snapshot =>
        obtain ⟨b, -, hload⟩ := Option.bind_eq_some_iff.mp hb
        obtain ⟨p, hp⟩ := Blob.load_some hload
        exact ⟨snapshot, Persisted.load_deviceId hp, rfl⟩
  vacant i hu := by
    have hrec : (boot known nvs).records i = loadPersisted known nvs i := rfl
    rw [hrec] at hu ⊢
    unfold loadPersisted at hu ⊢
    cases hb : (nvs i).bind (Blob.load known) with
    | none => rfl
    | some snapshot =>
        rw [hb] at hu
        cases hu
  rest := rfl

end

end BleGateway.DeviceSchema
