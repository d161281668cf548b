import BleGateway.Lib.Grid
import BleGateway.Settings.OptionSpans
import BleGateway.Settings.Wire

/-! # Which changes are taken

`prevalidate_change` of `device_settings_transaction.c` compares a change with the descriptor that
its id names. Against a committed schema this is a statement about what the device has sent: the
bounds and the step of a number, the options of an enumeration, the length of a text. A step or a
length of zero restricts nothing.
-/

namespace BleGateway.Settings

open Protocol

/-! ## What a descriptor admits -/

/-- The number lies in the range, on the grid of the step if there is one. -/
def SettingDesc.IntFits (d : SettingDesc) (v : Int32) : Prop :=
  if d.step = 0 then d.minValue.toInt ≤ v.toInt ∧ v.toInt ≤ d.maxValue.toInt
  else Grid.OnGrid d.minValue.toInt d.maxValue.toInt d.step.toNat v.toInt

/-- The text is shorter than the field of a message, and no longer than the setting allows if it
limits the length. -/
def SettingDesc.StringFits (d : SettingDesc) (s : CString) : Prop :=
  s.length < GW_SETTINGS_VALUE_MAX_LEN ∧ (d.maxLength ≠ 0 → s.length ≤ d.maxLength.toNat)

/-- The number is the value of an option that was sent for the setting with number `k`. -/
def EnumFits (frames : List Message) (k : Nat) (v : Int32) : Prop :=
  ∃ m ∈ optionsSent frames k, ∃ value, m.settingsOptionIndex = some value ∧ value.toNat = v.toInt

/-- The descriptor with number `k` admits the change. -/
structure Admits (frames : List Message) (k : Nat) (d : SettingDesc) (ch : ChangeRequest) :
    Prop where
  writable : d.flags &&& DS_FLAG_WRITABLE ≠ 0
  type : d.type = ch.type
  supported : d.type = DS_TYPE_BOOL ∨ d.type = DS_TYPE_INT ∨ d.type = DS_TYPE_STRING ∨
    d.type = DS_TYPE_ENUM
  int : d.type = DS_TYPE_INT → d.IntFits ch.intVal
  enum : d.type = DS_TYPE_ENUM → EnumFits frames k ch.enumVal
  string : d.type = DS_TYPE_STRING → d.StringFits ch.str

/-- The id names the descriptor with number `k`: it is the first one with this id. -/
def Schema.Names (schema : Schema) (id : CString) (k : Nat) (d : SettingDesc) : Prop :=
  schema.descriptors[k]? = some d ∧ schema.idOf d = id ∧
    ∀ (j : Nat) (e : SettingDesc), j < k → schema.descriptors[j]? = some e → schema.idOf e ≠ id

/-! ## The checks -/

section Checks

variable {schema : Schema} {d : SettingDesc}

theorem intAllowed_iff (d : SettingDesc) (v : Int32) : intAllowed d v = true ↔ d.IntFits v := by
  rw [intAllowed, Bool.not_eq_true', Bool.or_eq_false_iff, Bool.or_eq_false_iff,
    decide_eq_false_iff_not, decide_eq_false_iff_not, Int32.not_lt, Int32.not_lt,
    Int32.le_iff_toInt_le, Int32.le_iff_toInt_le, SettingDesc.IntFits]
  by_cases hstep : d.step = 0
  · rw [if_pos hstep]
    simp [hstep]
  · rw [if_neg hstep, Grid.OnGrid, and_assoc]
    refine and_congr_right fun hmin => and_congr_right fun _ => ?_
    rw [← Grid.narrow_mod_eq_zero_iff hmin]
    simp [hstep]

theorem stringAllowed_iff (d : SettingDesc) (s : CString) :
    stringAllowed d s = true ↔ d.StringFits s := by
  rw [stringAllowed, Bool.not_eq_true', Bool.or_eq_false_iff, Bool.or_eq_false_iff,
    decide_eq_false_iff_not, decide_eq_false_iff_not, SettingDesc.StringFits]
  have hsize : GW_SETTINGS_VALUE_MAX_LEN ≤ DS_CHANGE_UNION_SIZE := by decide
  by_cases hmax : d.maxLength = 0
  · simp only [hmax, ne_eq, not_true_eq_false, decide_false, Bool.false_and, and_true,
      false_imp_iff]
    omega
  · simp only [hmax, ne_eq, not_false_eq_true, decide_true, Bool.true_and,
      decide_eq_false_iff_not, true_imp_iff]
    omega

/-- Eight bits keep their value in thirty-two. -/
theorem toInt_widened (v : UInt8) : v.toUInt32.toInt32.toInt = v.toNat := by
  have hlt := v.toNat_lt
  have hwide : v.toUInt32.toNat = v.toNat := UInt8.toNat_toUInt32 v
  show BitVec.toInt v.toUInt32.toBitVec = _
  rw [BitVec.toInt_eq_toNat_of_lt]
  · exact congrArg Int.ofNat hwide
  · show 2 * v.toUInt32.toNat < _
    rw [hwide]
    omega

/-- What holds of an element of one list holds of its partner in the other. -/
theorem exists_mem_iff_of_forall₂ {α β : Type} {R : α → β → Prop} {p : α → Prop} {q : β → Prop}
    (hpq : ∀ a b, R a b → (p a ↔ q b)) {as : List α} {bs : List β} (h : List.Forall₂ R as bs) :
    (∃ a ∈ as, p a) ↔ ∃ b ∈ bs, q b := by
  induction h with
  | nil => simp
  | cons hab _ ih => rw [List.exists_mem_cons_iff, List.exists_mem_cons_iff, hpq _ _ hab, ih]

theorem enumAllowed_iff {frames : List Message} (h : OptionsLaidOut frames schema) {k : Nat}
    (hd : schema.descriptors[k]? = some d) (v : Int32) :
    enumAllowed schema d v = true ↔ EnumFits frames k v := by
  have hvalue : ∀ (o : EnumOption) (m : Message),
      o.SentAs (fun off s => schema.strings.get off = s) m →
        (o.value.toUInt32.toInt32 = v ↔
          ∃ value, m.settingsOptionIndex = some value ∧ value.toNat = v.toInt) := by
    intro o m hsent
    rw [← Int32.toInt_inj, toInt_widened, hsent.1]
    constructor
    · intro heq
      exact ⟨o.value, rfl, heq⟩
    · rintro ⟨value, hsame, heq⟩
      rw [Option.some.inj hsame]
      exact heq
  calc enumAllowed schema d v = true
      ↔ ∃ o ∈ schema.optionsOf d, o.value.toUInt32.toInt32 = v := by
        rw [enumAllowed, List.any_eq_true, Schema.optionsOf]
        simp only [decide_eq_true_eq]
    _ ↔ EnumFits frames k v := exists_mem_iff_of_forall₂ hvalue (h.holds k d hd)

/-- The search gives the descriptor that the id names. -/
theorem find?_eq_some_iff_names {id : CString} :
    (schema.descriptors.find? fun e => schema.idOf e = id) = some d ↔
      ∃ k, schema.Names id k d := by
  rw [List.find?_eq_some_iff_getElem]
  constructor
  · rintro ⟨hid, k, hk, hget, hfirst⟩
    refine ⟨k, ?_, of_decide_eq_true hid, fun j e hj he => ?_⟩
    · rw [List.getElem?_eq_getElem hk, hget]
    · obtain ⟨hlt, rfl⟩ := List.getElem?_eq_some_iff.mp he
      have hno := hfirst j hj
      simpa using hno
  · rintro ⟨k, hget, hid, hfirst⟩
    obtain ⟨hk, rfl⟩ := List.getElem?_eq_some_iff.mp hget
    refine ⟨decide_eq_true hid, k, hk, rfl, fun j hj => ?_⟩
    have hno := hfirst j _ hj (List.getElem?_eq_getElem (hj.trans hk))
    simpa using hno

end Checks

/-! ## No setting without a name -/

/-- The descriptors of a builder have ids. -/
structure Named (b : SchemaBuilder) : Prop where
  empty : b.strings.Reads 0 []
  id : ∀ d ∈ b.descriptors, ∃ id, id ≠ [] ∧ b.strings.Reads d.idOff id

theorem named_rule : SchemaRule fun b _ => Named b where
  start revision _ _ := ⟨StringPool.reads_fresh, fun _ hd => absurd hd List.not_mem_nil⟩
  other _ _ _ _ _ h := h
  item r stream stream' _ msg _ hacc h := by
    obtain ⟨-, -, -, hext, settingId, desc, hid, -, hdesc, hread, -⟩ := acceptItem_spec h.empty hacc
    refine ⟨h.empty.extends hext, fun d hd => ?_⟩
    rw [hdesc] at hd
    rcases List.mem_append.mp hd with hold | hnew
    · obtain ⟨id, hne, hread'⟩ := h.id d hold
      exact ⟨id, hne, hread'.extends hext⟩
    · rw [List.mem_singleton.mp hnew]
      obtain ⟨-, hne⟩ := Option.filter_eq_some_iff.mp hid
      exact ⟨settingId.text, of_decide_eq_true hne, hread⟩
  option r stream stream' _ msg _ hacc h := by
    obtain ⟨-, hext, hsame⟩ := acceptOption_spec hacc
    refine ⟨h.empty.extends hext, fun d hd => ?_⟩
    have hmem : d.sansOptions ∈ stream.builder.descriptors.map SettingDesc.sansOptions := by
      rw [← hsame]
      exact List.mem_map_of_mem hd
    obtain ⟨old, hold, heq⟩ := List.mem_map.mp hmem
    have hoff : old.idOff = d.idOff := congrArg (·.idOff) heq
    obtain ⟨id, hne, hread⟩ := h.id old hold
    rw [← hoff]
    exact ⟨id, hne, hread.extends hext⟩

section Committed

variable {σ : Streams} {frames : List Message} {schema : Schema}

theorem idOf_ne_nil (hσ : Streams.machine.Reachable σ)
    (hc : Commit.schema frames schema ∈ σ.commits) {d : SettingDesc}
    (hd : d ∈ schema.descriptors) : schema.idOf d ≠ [] := by
  obtain ⟨b, rfl, h⟩ := schemaRule_commits named_rule hσ hc
  obtain ⟨id, hne, hread⟩ := h.id d hd
  show b.strings.get d.idOff ≠ []
  rw [hread.get]
  exact hne

/-! ## The changes that are taken -/

theorem guarded_iff {c : Prop} [Decidable c] {b : Bool} :
    (if c then false else b) = true ↔ ¬c ∧ b = true := by
  by_cases hc : c
  · simp [hc]
  · simp [hc]

theorem unless_iff {p : Prop} {b : Bool} : ¬(p ∧ (!b) = true) ↔ (p → b = true) := by
  simp

/-- What is checked of the descriptor that the search has found. -/
theorem prevalidateChange_found {ch : ChangeRequest} {d : SettingDesc}
    (hid : ch.settingId.text ≠ [])
    (hfind : (schema.descriptors.find? fun e => schema.idOf e = ch.settingId.text) = some d) :
    prevalidateChange (some schema) ch = true ↔
      d.flags &&& DS_FLAG_WRITABLE ≠ 0 ∧ d.type = ch.type ∧ d.type ≠ DS_TYPE_FLOAT ∧
        (d.type = DS_TYPE_INT → intAllowed d ch.intVal = true) ∧
        (d.type = DS_TYPE_ENUM → enumAllowed schema d ch.enumVal = true) ∧
        (d.type = DS_TYPE_STRING → stringAllowed d ch.str = true) := by
  unfold prevalidateChange
  dsimp only
  rw [if_neg hid, hfind]
  dsimp only
  rw [guarded_iff, guarded_iff, guarded_iff, guarded_iff, guarded_iff, guarded_iff, unless_iff,
    unless_iff, unless_iff, not_not]
  simp only [and_true, ne_eq]

/-- **Prevalidation.** A change is taken against a committed schema exactly if its id names a
descriptor that admits it. -/
theorem prevalidateChange_iff (hσ : Streams.machine.Reachable σ)
    (hc : Commit.schema frames schema ∈ σ.commits) (ch : ChangeRequest) :
    prevalidateChange (some schema) ch = true ↔
      ∃ k d, schema.Names ch.settingId.text k d ∧ Admits frames k d ch := by
  obtain ⟨b, hb, hspanned⟩ := schemaRule_commits spanned_rule hσ hc
  have hlaid : OptionsLaidOut frames schema := hb ▸ hspanned.laidOut
  have htypes : TypesKnown schema.descriptors := Committed.typesKnown ⟨σ, hσ, frames, hc⟩
  constructor
  · intro h
    have hid : ch.settingId.text ≠ [] := by
      intro hempty
      simp [prevalidateChange, hempty] at h
    cases hfind : schema.descriptors.find? fun e => schema.idOf e = ch.settingId.text with
    | none => simp [prevalidateChange, hid, hfind] at h
    | some d =>
        obtain ⟨k, hnames⟩ := find?_eq_some_iff_names.mp hfind
        obtain ⟨hwritable, htype, hfloat, hint, henum, hstring⟩ :=
          (prevalidateChange_found hid hfind).mp h
        obtain ⟨hlo, hhi⟩ := htypes d (List.mem_of_getElem? hnames.1)
        exact ⟨k, d, hnames,
          { writable := hwritable
            type := htype
            supported := settingType_cases hlo hhi hfloat
            int := fun h => (intAllowed_iff d _).mp (hint h)
            enum := fun h => (enumAllowed_iff hlaid hnames.1 _).mp (henum h)
            string := fun h => (stringAllowed_iff d _).mp (hstring h) }⟩
  · rintro ⟨k, d, hnames, hadmits⟩
    have hid : ch.settingId.text ≠ [] := by
      rw [← hnames.2.1]
      exact idOf_ne_nil hσ hc (List.mem_of_getElem? hnames.1)
    rw [prevalidateChange_found hid (find?_eq_some_iff_names.mpr ⟨k, hnames⟩)]
    refine ⟨hadmits.writable, hadmits.type, ?_, ?_, ?_, ?_⟩
    · rcases hadmits.supported with h | h | h | h <;> (rw [h]; decide)
    · exact fun h => (intAllowed_iff d _).mpr (hadmits.int h)
    · exact fun h => (enumAllowed_iff hlaid hnames.1 _).mpr (hadmits.enum h)
    · exact fun h => (stringAllowed_iff d _).mpr (hadmits.string h)

end Committed

/-! ## Numbers of the lamp -/

def intItemFrame (minValue maxValue : Int32) (step : Option UInt32) : Message :=
  { itemFrame (settingId 97 no_nul) 0 1 with
    settingType := some DS_TYPE_INT
    minValue := some minValue
    maxValue := some maxValue
    step := step }

def describeInt (minValue maxValue : Int32) (step : Option UInt32) : List Label :=
  [frame (beginFrame 1), frame (intItemFrame minValue maxValue step), frame (endFrame 1)]

/-- The setting is to have a value with these bytes. -/
def setInt (b₀ b₁ b₂ b₃ : UInt8) : ChangeRequest where
  settingId := settingId 97 no_nul
  type := DS_TYPE_INT
  union := Vector.ofFn fun i =>
    match i.val with
    | 0 => b₀
    | 1 => b₁
    | 2 => b₂
    | 3 => b₃
    | _ => 0

/-- The largest number is a multiple of 3 above the smallest one. -/
theorem prevalidateChange_largest : ∃ (frames : List Message) (schema : Schema) (k : Nat)
    (d : SettingDesc),
    schema.Names (settingId 97 no_nul).text k d ∧ Admits frames k d (setInt 255 255 255 127) := by
  obtain ⟨σ, hσ, frames, schema, hc, htaken⟩ := exists_schema_of_run
    (describeInt Int32.minValue Int32.maxValue (some 3))
    (fun s => prevalidateChange (some s) (setInt 255 255 255 127)) (by decide +kernel)
  obtain ⟨k, d, hnames, hadmits⟩ := (prevalidateChange_iff hσ hc _).mp htaken
  exact ⟨frames, schema, k, d, hnames, hadmits⟩

/-- The only setting of the schema takes a number that is no multiple of its step above the lower
bound. -/
def Schema.takesOffGrid (ch : ChangeRequest) (snapshot : Schema) : Bool :=
  match snapshot.descriptors with
  | [d] => snapshot.idOf d = ch.settingId.text ∧ d.type = DS_TYPE_INT ∧
      prevalidateChange (some snapshot) ch = true ∧
      ¬Grid.OnGrid d.minValue.toInt d.maxValue.toInt d.step.toNat ch.intVal.toInt
  | _ => false

/-- Without a step, every number of the range is taken. -/
theorem takes_off_grid : ∃ σ, Streams.machine.Reachable σ ∧ ∃ frames schema d ch,
    Commit.schema frames schema ∈ σ.commits ∧ schema.Names ch.settingId.text 0 d ∧
      d.type = DS_TYPE_INT ∧ prevalidateChange (some schema) ch = true ∧
      ¬Grid.OnGrid d.minValue.toInt d.maxValue.toInt d.step.toNat ch.intVal.toInt := by
  obtain ⟨σ, hσ, frames, schema, hc, htakes⟩ := exists_schema_of_run (describeInt 0 10 none)
    (Schema.takesOffGrid (setInt 1 0 0 0)) (by decide +kernel)
  unfold Schema.takesOffGrid at htakes
  split at htakes
  · rename_i d hdescs
    obtain ⟨hid, htype, htaken, hoff⟩ := of_decide_eq_true htakes
    refine ⟨σ, hσ, frames, schema, d, _, hc, ⟨?_, hid, ?_⟩, htype, htaken, hoff⟩
    · rw [hdescs]
      rfl
    · intro j e hj
      exact absurd hj (Nat.not_lt_zero j)
  · cases htakes

end BleGateway.Settings
