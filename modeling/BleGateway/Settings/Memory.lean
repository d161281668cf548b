import BleGateway.Types
import BleGateway.Lib.TextPool

set_option autoImplicit false

/-! # Snapshots and their builders

`device_settings_memory.c` and the data types of `device_settings.h`. A builder collects the
descriptors, options or values of a stream; a commit turns it into an immutable snapshot, which
is modelled by its value: the reference counts only decide when its memory is given back.

Offsets and counters are natural numbers. They are bounded by the capacity of a pool and by the
limits the builders check, far below `UINT16_MAX`.
-/

namespace BleGateway.Settings

def DEVICE_SETTINGS_MAX_SETTINGS : Nat := 16
def DEVICE_SETTINGS_MAX_ENUM_OPTS : Nat := 16
def DEVICE_SETTINGS_MAX_STRING_POOL : Nat := 512
def DEVICE_SETTINGS_MAX_DEVICES : Nat := 16

def DS_TYPE_BOOL : UInt8 := 1
def DS_TYPE_INT : UInt8 := 2
def DS_TYPE_FLOAT : UInt8 := 3
def DS_TYPE_STRING : UInt8 := 4
def DS_TYPE_ENUM : UInt8 := 5

def DS_FLAG_WRITABLE : UInt16 := 1
def DS_FLAG_SECRET : UInt16 := 2
def DS_FLAG_ADVANCED : UInt16 := 4

/-- The text that C code sees in a `char[size]` array: no NUL lies in it. -/
structure Text (size : Nat) extends CharBuf size where
  noNul : (0 : UInt8) ∉ text
  deriving DecidableEq

/-- An array that starts with a NUL. -/
def Text.empty {size : Nat} [NeZero size] : Text size := ⟨.empty, by simp⟩

/-! ## String pools -/

/-- `ds_string_pool_t`. The list holds the first `total_size` bytes of the buffer; the bytes
that pad a text to the alignment are never read. -/
structure StringPool where
  bytes : List UInt8
  capacity : Nat
  deriving DecidableEq

namespace StringPool

def totalSize (pool : StringPool) : Nat := pool.bytes.length

/-- A pool as the builders set it up: offset `0` reads as the empty text. -/
def fresh : StringPool := ⟨[0, 0, 0, 0], DEVICE_SETTINGS_MAX_STRING_POOL⟩

/-- `ds_string_pool_get`. -/
def get (pool : StringPool) (off : Nat) : CString :=
  if off < pool.totalSize then TextPool.textAt 0 pool.bytes off else []

/-- `ds_string_pool_add`: the pool with the text, and its offset. -/
def add (pool : StringPool) (str : CString) : Option (StringPool × Nat) :=
  let aligned := (str.length + 1 + 3) / 4 * 4
  if pool.totalSize + aligned > pool.capacity then none
  else
    some ({ pool with bytes := pool.bytes ++ (str ++ List.replicate (aligned - str.length) 0) },
      pool.totalSize)

/-- The text stands at the offset. -/
def Reads (pool : StringPool) (off : Nat) (s : CString) : Prop :=
  TextPool.Reads 0 pool.bytes off s

/-- `later` has the bytes of `pool` in front. -/
def Extends (pool later : StringPool) : Prop := ∃ more, later.bytes = pool.bytes ++ more

variable {pool later : StringPool} {off : Nat} {s : CString}

theorem Reads.get (h : pool.Reads off s) : pool.get off = s := by
  have hlt : off < pool.totalSize := TextPool.Reads.lt h
  rw [StringPool.get, if_pos hlt]
  exact TextPool.Reads.textAt h

theorem Extends.refl (pool : StringPool) : pool.Extends pool := ⟨[], by simp⟩

theorem Extends.trans {last : StringPool} (h : pool.Extends later) (h' : later.Extends last) :
    pool.Extends last := by
  obtain ⟨more, hmore⟩ := h
  obtain ⟨more', hmore'⟩ := h'
  exact ⟨more ++ more', by rw [hmore', hmore, List.append_assoc]⟩

theorem Reads.extends (h : pool.Reads off s) (hle : pool.Extends later) : later.Reads off s := by
  obtain ⟨more, hmore⟩ := hle
  rw [StringPool.Reads, hmore]
  exact TextPool.Reads.append h more

/-- **A successful append** leaves every earlier text and adds the new one. -/
theorem add_spec (hs : (0 : UInt8) ∉ s) (h : pool.add s = some (later, off)) :
    pool.Extends later ∧ later.Reads off s := by
  obtain ⟨-, ⟨⟩⟩ := Option.ite_none_left_eq_some.mp h
  refine ⟨⟨_, rfl⟩, ?_⟩
  -- the padding starts with the terminator
  have hpad : 0 < (s.length + 1 + 3) / 4 * 4 - s.length := by omega
  obtain ⟨pad, hpad⟩ := Nat.exists_eq_succ_of_ne_zero (Nat.pos_iff_ne_zero.mp hpad)
  rw [StringPool.Reads, hpad, List.replicate_succ]
  exact TextPool.reads_append hs pool.bytes _

theorem reads_fresh : fresh.Reads 0 [] := ⟨by simp, [], [0, 0, 0], rfl, rfl⟩

end StringPool

/-! ## Schemas -/

/-- `ds_setting_desc_t`; the texts are offsets into the pool of the schema. -/
structure SettingDesc where
  idOff : Nat := 0
  titleOff : Nat := 0
  groupOff : Nat := 0
  unitOff : Nat := 0
  minValue : Int32 := 0
  maxValue : Int32 := 0
  step : UInt32 := 0
  flags : UInt16 := 0
  maxLength : UInt16 := 0
  optionIndex : Nat := 0
  type : UInt8 := 0
  optionCount : Nat := 0
  deriving DecidableEq

def SettingDesc.isSecret (d : SettingDesc) : Bool := d.flags &&& DS_FLAG_SECRET ≠ 0

/-- `ds_enum_option_t`. -/
structure EnumOption where
  value : UInt8
  labelOff : Nat
  deriving DecidableEq

/-- `ds_schema_t`; the arrays are the lists of their used places. -/
structure Schema where
  schemaRevision : UInt32
  descriptors : List SettingDesc
  enumOptionPool : List EnumOption
  strings : StringPool
  deriving DecidableEq

def Schema.settingCount (schema : Schema) : Nat := schema.descriptors.length

/-- The id of a descriptor of the schema. -/
def Schema.idOf (schema : Schema) (d : SettingDesc) : CString := schema.strings.get d.idOff

/-- `ds_schema_builder_t`. -/
structure SchemaBuilder where
  strings : StringPool
  enumOptions : List EnumOption
  descriptors : List SettingDesc
  schemaRevision : UInt32
  deriving DecidableEq

namespace SchemaBuilder

/-- `ds_schema_builder_init`, with the revision that its caller enters. -/
def init (schemaRevision : UInt32) : SchemaBuilder := ⟨.fresh, [], [], schemaRevision⟩

/-- `ds_schema_builder_add_setting`. -/
def addSetting (b : SchemaBuilder) (desc : SettingDesc) : Option SchemaBuilder :=
  if b.descriptors.length ≥ DEVICE_SETTINGS_MAX_SETTINGS then none
  else some { b with descriptors := b.descriptors ++ [desc] }

/-- `ds_schema_builder_add_enum_option`: the builder with the option, and its index. -/
def addEnumOption (b : SchemaBuilder) (value : UInt8) (label : CString) :
    Option (SchemaBuilder × Nat) :=
  if b.enumOptions.length ≥ DEVICE_SETTINGS_MAX_SETTINGS * DEVICE_SETTINGS_MAX_ENUM_OPTS then none
  else
    match b.strings.add label with
    | none => none
    | some (strings, labelOff) =>
        some ({ b with strings := strings, enumOptions := b.enumOptions ++ [⟨value, labelOff⟩] },
          b.enumOptions.length)

/-- `ds_schema_builder_commit`, when the memory of the schema can be allocated. -/
def commit (b : SchemaBuilder) : Schema :=
  ⟨b.schemaRevision, b.descriptors, b.enumOptions, b.strings⟩

end SchemaBuilder

/-! ## Values -/

/-- `ds_value_entry_t`. The union of the value is its four bytes, as a little-endian number. -/
structure ValueEntry where
  idOff : Nat
  type : UInt8
  hasValue : Bool
  value : UInt32 := 0
  deriving DecidableEq

namespace ValueEntry

/-- A write of `bool_val`: the lowest byte. -/
def setBool (e : ValueEntry) (v : Bool) : ValueEntry :=
  { e with value := e.value &&& 0xFFFFFF00 ||| (if v then 1 else 0) }

def setInt (e : ValueEntry) (v : Int32) : ValueEntry := { e with value := v.toUInt32 }

/-- A write of `string_off`: the two lower bytes. -/
def setStringOff (e : ValueEntry) (off : Nat) : ValueEntry :=
  { e with value := e.value &&& 0xFFFF0000 ||| UInt32.ofNat (off % 2 ^ 16) }

/-- A write of `enum_val`, an `int32_t`. -/
def setEnum (e : ValueEntry) (v : UInt8) : ValueEntry := { e with value := v.toUInt32 }

end ValueEntry

/-- `ds_values_t`. -/
structure Values where
  configRevision : UInt32
  values : List ValueEntry
  stringPool : StringPool
  deriving DecidableEq

def Values.valueCount (v : Values) : Nat := v.values.length

/-- The id of an entry; the values have a pool of their own. -/
def Values.idOf (v : Values) (e : ValueEntry) : CString := v.stringPool.get e.idOff

/-- `ds_values_builder_t`. -/
structure ValuesBuilder where
  stringPool : StringPool
  entries : List ValueEntry
  configRevision : UInt32
  deriving DecidableEq

namespace ValuesBuilder

/-- `ds_values_builder_init`, with the revision that its caller enters. -/
def init (configRevision : UInt32) : ValuesBuilder := ⟨.fresh, [], configRevision⟩

/-- `ds_values_builder_add`. -/
def add (b : ValuesBuilder) (entry : ValueEntry) : Option ValuesBuilder :=
  if b.entries.length ≥ DEVICE_SETTINGS_MAX_SETTINGS then none
  else some { b with entries := b.entries ++ [entry] }

/-- `ds_values_builder_commit`, when the memory of the values can be allocated. -/
def commit (b : ValuesBuilder) : Values := ⟨b.configRevision, b.entries, b.stringPool⟩

end ValuesBuilder

end BleGateway.Settings
