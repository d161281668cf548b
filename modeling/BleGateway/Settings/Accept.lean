import BleGateway.Settings.Streams

/-! # What an accepted frame adds

One lemma for each frame that adds to a builder: what must hold for it to be accepted, and what
the builder holds afterwards.
-/

namespace BleGateway.Settings

open Protocol

variable {r : DeviceRecord} {msg : Message}

/-! ## Texts -/

theorem Message.noNul_groupText (msg : Message) : (0 : UInt8) ∉ msg.groupText := by
  rw [groupText]
  cases msg.settingGroup with
  | some group => exact group.noNul
  | none => exact List.not_mem_nil

variable {later pool : StringPool} {desc : SettingDesc}

theorem addText_spec {str : CString} {otherwise off : Nat} (hstr : (0 : UInt8) ∉ str)
    (h : addText pool str otherwise = some (later, off)) :
    pool.Extends later ∧ if str ≠ [] then later.Reads off str else off = otherwise := by
  rw [addText] at h
  split at h
  · rename_i hne
    rw [if_pos hne]
    exact StringPool.add_spec hstr h
  · rename_i hne
    cases h
    exact ⟨StringPool.Extends.refl _, by rw [if_neg hne]⟩

/-- An optional text that is absent reads as the empty text at offset `0`. -/
theorem addText_zero {str : CString} {off : Nat} (hstr : (0 : UInt8) ∉ str)
    (hempty : pool.Reads 0 []) (h : addText pool str 0 = some (later, off)) :
    pool.Extends later ∧ later.Reads off str := by
  obtain ⟨hext, hread⟩ := addText_spec hstr h
  refine ⟨hext, ?_⟩
  by_cases hne : str = []
  · rw [if_neg (not_not.mpr hne)] at hread
    rw [hread, hne]
    exact hempty.extends hext
  · rwa [if_pos hne] at hread

/-- The texts of an item stand in the pool at the offsets of its descriptor. -/
theorem addItemTexts_spec {settingId : CString} (hid : (0 : UInt8) ∉ settingId)
    (hempty : pool.Reads 0 []) (h : addItemTexts pool settingId msg = some (later, desc)) :
    pool.Extends later ∧ later.Reads desc.idOff settingId ∧
      (if msg.settingTitle.text ≠ [] then later.Reads desc.titleOff msg.settingTitle.text
        else desc.titleOff = desc.idOff) ∧
      later.Reads desc.groupOff msg.groupText ∧ later.Reads desc.unitOff msg.settingUnit.text := by
  simp only [addItemTexts, Option.bind_eq_bind, Option.bind_eq_some_iff, Option.pure_def,
    Option.some.injEq, Prod.mk.injEq, Prod.exists] at h
  obtain ⟨pool₁, idOff, h₁, pool₂, titleOff, h₂, pool₃, groupOff, h₃, pool₄, unitOff, h₄, rfl,
    rfl⟩ := h
  obtain ⟨hext₁, hid₁⟩ := StringPool.add_spec hid h₁
  obtain ⟨hext₂, htitle⟩ := addText_spec msg.settingTitle.noNul h₂
  have hempty₂ : pool₂.Reads 0 [] := (hempty.extends hext₁).extends hext₂
  obtain ⟨hext₃, hgroup⟩ := addText_zero msg.noNul_groupText hempty₂ h₃
  obtain ⟨hext₄, hunit⟩ := addText_zero msg.settingUnit.noNul (hempty₂.extends hext₃) h₄
  have hext₂₄ : pool₂.Extends pool₄ := hext₃.trans hext₄
  refine ⟨(hext₁.trans hext₂).trans hext₂₄, (hid₁.extends hext₂).extends hext₂₄, ?_,
    hgroup.extends hext₄, hunit⟩
  by_cases hne : msg.settingTitle.text = []
  · rw [if_neg (not_not.mpr hne)] at htitle ⊢
    exact htitle
  · rw [if_pos hne] at htitle ⊢
    exact htitle.extends hext₂₄

/-! ## Items -/

theorem SchemaBuilder.addSetting_spec {b b' : SchemaBuilder} (h : b.addSetting desc = some b') :
    b' = { b with descriptors := b.descriptors ++ [desc] } := by
  rw [addSetting] at h
  split at h
  · cases h
  · exact (Option.some.inj h).symm

/-- **An accepted item** is the next one, has a new id, and its descriptor is appended. -/
theorem acceptItem_spec {stream stream' : SchemaStream}
    (hempty : stream.builder.strings.Reads 0 []) (h : acceptItem r stream msg = some stream') :
    r.stagingReceivedCount < r.stagingExpectedCount ∧
      msg.settingsSequence.map (·.toNat) = some r.stagingReceivedCount ∧
      stream'.owner = stream.owner ∧
      stream.builder.strings.Extends stream'.builder.strings ∧
      ∃ settingId desc, msg.id? = some settingId ∧
        (∀ d ∈ stream.builder.descriptors.take r.stagingReceivedCount,
          stream.builder.strings.get d.idOff ≠ settingId.text) ∧
        stream'.builder.descriptors = stream.builder.descriptors ++ [desc] ∧
        stream'.builder.strings.Reads desc.idOff settingId.text ∧
        DescribedBy stream'.builder.strings.Reads desc msg := by
  simp only [acceptItem, Option.bind_eq_bind, Option.bind_eq_some_iff, Option.guard_eq_some',
    Option.pure_def, Option.some.injEq, exists_const, Prod.exists] at h
  obtain ⟨total, _, sequence, hseq, settingId, hid, type, htype, _, _, hlt, hnext, hnew, pool,
    texts, htexts, _, b, hb, rfl⟩ := h
  obtain ⟨hext, hidOff, htitle, hgroup, hunit⟩ :=
    addItemTexts_spec settingId.noNul hempty htexts
  have hbuilder := SchemaBuilder.addSetting_spec hb
  subst hbuilder
  refine ⟨hlt, by rw [hseq, Option.map_some, hnext], rfl, hext, settingId, _, hid, hnew, rfl,
    hidOff, ?_⟩
  exact
    { id := ⟨settingId, hid, hidOff⟩
      title := htitle
      group := hgroup
      unit := hunit
      type := htype
      flags := rfl
      maxLength := rfl
      minValue := rfl
      maxValue := rfl
      step := rfl }

/-! ## Options -/

/-- A descriptor without its options. -/
def SettingDesc.sansOptions (d : SettingDesc) : SettingDesc :=
  { d with optionIndex := 0, optionCount := 0 }

theorem moveOption_sansOptions (b : SchemaBuilder) (sequence optionSlot insertAt : Nat) :
    (moveOption b sequence optionSlot insertAt).descriptors.map SettingDesc.sansOptions =
      b.descriptors.map SettingDesc.sansOptions := by
  rw [moveOption]
  split
  · refine List.ext_getElem (by simp) fun i hi hi' => ?_
    simp only [List.getElem_map, List.getElem_mapIdx]
    split
    · rfl
    · rfl
  · rfl

theorem moveOption_strings (b : SchemaBuilder) (sequence optionSlot insertAt : Nat) :
    (moveOption b sequence optionSlot insertAt).strings = b.strings := by
  rw [moveOption]
  split
  · rfl
  · rfl

/-- Replacing an element by one that maps to the same value. -/
theorem map_set_of_same {α β : Type} {l : List α} {f : α → β} {k : Nat} {a b : α}
    (hk : (l.map f)[k]? = some (f a)) (hab : f b = f a) : (l.set k b).map f = l.map f := by
  rw [List.map_set, hab]
  refine List.ext_getElem? fun i => ?_
  rw [List.getElem?_set]
  split
  · rename_i hik
    subst hik
    split
    · exact hk.symm
    · rename_i hlt
      exact (List.getElem?_eq_none (Nat.le_of_not_lt hlt)).symm
  · rfl

/-- **An accepted option** changes nothing of the descriptors but their options. -/
theorem acceptOption_spec {stream stream' : SchemaStream}
    (h : acceptOption r stream msg = some stream') :
    stream'.owner = stream.owner ∧
      stream.builder.strings.Extends stream'.builder.strings ∧
      stream'.builder.descriptors.map SettingDesc.sansOptions =
        stream.builder.descriptors.map SettingDesc.sansOptions := by
  simp only [acceptOption, Option.bind_eq_bind, Option.bind_eq_some_iff, Option.guard_eq_some',
    Option.pure_def, Option.some.injEq, exists_const, Prod.exists] at h
  obtain ⟨sequence, _, value, _, _, _, htype, _, _, b, slot, hb, rfl⟩ := h
  -- a descriptor of type ENUM is one of the list
  obtain ⟨parent, hparent⟩ : ∃ d, stream.builder.descriptors[sequence.toNat]? = some d := by
    cases hd : stream.builder.descriptors[sequence.toNat]? with
    | some d => exact ⟨d, rfl⟩
    | none =>
        rw [List.getD_eq_getElem?_getD, hd] at htype
        exact absurd htype (by decide)
  have hb' : stream.builder.strings.Extends b.strings ∧
      b.descriptors = stream.builder.descriptors := by
    obtain ⟨-, hb⟩ := Option.ite_none_left_eq_some.mp hb
    cases hadd : stream.builder.strings.add msg.settingTitle.text with
    | none => rw [hadd] at hb; exact absurd hb (by simp)
    | some p =>
        rw [hadd] at hb
        obtain ⟨rfl, _⟩ := Prod.mk.inj (Option.some.inj hb)
        exact ⟨(StringPool.add_spec msg.settingTitle.noNul hadd).1, rfl⟩
  have hsame := moveOption_sansOptions b sequence.toNat slot
    (if (stream.builder.descriptors.getD sequence.toNat {}).optionCount = 0 then slot
      else (stream.builder.descriptors.getD sequence.toNat {}).optionIndex +
        (stream.builder.descriptors.getD sequence.toNat {}).optionCount)
  rw [hb'.2] at hsame
  refine ⟨rfl, ?_, ?_⟩
  · rw [moveOption_strings]
    exact hb'.1
  · have hget : stream.builder.descriptors.getD sequence.toNat {} = parent := by
      rw [List.getD_eq_getElem?_getD, hparent, Option.getD_some]
    rw [hget] at hsame ⊢
    rw [map_set_of_same (a := parent), hsame]
    · rw [hsame, List.getElem?_map, hparent, Option.map_some]
    · rfl

/-! ## Values -/

theorem ValuesBuilder.add_spec {b b' : ValuesBuilder} {entry : ValueEntry}
    (h : b.add entry = some b') : b' = { b with entries := b.entries ++ [entry] } := by
  rw [add] at h
  split at h
  · cases h
  · exact (Option.some.inj h).symm

theorem findDescriptor_spec {schema : Option Schema} {settingId : CString}
    (h : findDescriptor schema settingId = some desc) :
    ∃ committed, schema = some committed ∧ desc ∈ committed.descriptors ∧
      committed.idOf desc = settingId := by
  obtain ⟨committed, hschema, hfind⟩ := Option.bind_eq_some_iff.mp h
  refine ⟨committed, hschema, List.mem_of_find?_eq_some hfind, ?_⟩
  simpa using List.find?_some hfind

/-- Entering a value keeps the id and the type of its entry. -/
theorem enterValue_spec {schema : Option Schema} {entry entry' : ValueEntry} {type : UInt8}
    {value : SettingValue}
    (h : enterValue schema desc pool entry type value = some (later, entry')) :
    pool.Extends later ∧ entry'.idOff = entry.idOff ∧ entry'.type = entry.type := by
  have hsame : ∀ {e : ValueEntry}, some (pool, e) = some (later, entry') →
      e.idOff = entry.idOff → e.type = entry.type →
      pool.Extends later ∧ entry'.idOff = entry.idOff ∧ entry'.type = entry.type := by
    intro e he hid htype
    cases he
    exact ⟨StringPool.Extends.refl _, hid, htype⟩
  rw [enterValue] at h
  split at h
  · exact hsame h rfl rfl
  · split at h
    · exact hsame h rfl rfl
    · split at h
      · split at h
        · cases h
        · split at h
          · -- the text of a string value is the only thing that goes to the pool
            obtain ⟨⟨pool', off⟩, hadd, he⟩ := Option.map_eq_some_iff.mp h
            cases he
            exact ⟨(StringPool.add_spec value.noNul_asString hadd).1, rfl, rfl⟩
          · exact hsame h rfl rfl
      · split at h
        · split at h
          · exact hsame h rfl rfl
          · cases h
        · cases h

/-- **An accepted value** is the next one and belongs to a setting of the schema. -/
theorem acceptValue_spec {stream stream' : ValuesStream}
    (h : acceptValue r stream msg = some stream') :
    r.stagingReceivedCount < r.stagingExpectedCount ∧ stream'.owner = stream.owner ∧
      stream.builder.stringPool.Extends stream'.builder.stringPool ∧
      ∃ committed d entry settingId, r.schema = some committed ∧ d ∈ committed.descriptors ∧
        committed.idOf d = settingId ∧ d.type = entry.type ∧
        stream'.builder.stringPool.Reads entry.idOff settingId ∧
        stream'.builder.entries = stream.builder.entries ++ [entry] := by
  simp only [acceptValue, Option.bind_eq_bind, Option.bind_eq_some_iff, Option.guard_eq_some',
    Option.pure_def, Option.some.injEq, exists_const, Prod.exists] at h
  obtain ⟨sequence, _, settingId, _, type, _, value, _, hlt, _, desc, hdesc, htype, pool, idOff,
    hadd, later, entry, henter, b, hb, rfl⟩ := h
  obtain ⟨committed, hschema, hmem, hid⟩ := findDescriptor_spec hdesc
  obtain ⟨hext, hread⟩ := StringPool.add_spec settingId.noNul hadd
  obtain ⟨hext', hidOff, hentry⟩ := enterValue_spec henter
  have hbuilder := ValuesBuilder.add_spec hb
  subst hbuilder
  refine ⟨hlt, rfl, hext.trans hext', committed, desc, _, settingId.text, hschema, hmem, hid, ?_,
    ?_, rfl⟩
  · split
    · exact htype.trans hentry.symm
    · exact htype.trans hentry.symm
  · have hlater : later.Reads entry.idOff settingId.text := by
      rw [hidOff]
      exact hread.extends hext'
    split
    · exact hlater
    · exact hlater

end BleGateway.Settings
