import Mathlib.Data.List.GetD
import BleGateway.Lib.Spans
import BleGateway.Settings.SchemaRuns

/-! # The options of a setting

All options of a schema stand in one array, and a descriptor records the range of its own. Option
frames of different settings may come in any order between the item frames: an option goes in behind
those of its setting, and the ranges behind it move. In a committed schema the ranges are a tiling
of the array, and each holds what was sent for its setting.
-/

namespace BleGateway.Settings

open Protocol

/-! ## What was sent and what is stored -/

/-- The options sent for the setting with number `k`, in the order in which they came. -/
def optionsSent (frames : List Message) (k : Nat) : List Message :=
  frames.filter fun m => m.type = .settingsOptionItem ∧ m.settingsSequence.map (·.toNat) = some k

/-- The options in the range of a descriptor. -/
def Schema.optionsOf (schema : Schema) (d : SettingDesc) : List EnumOption :=
  (schema.enumOptionPool.drop d.optionIndex).take d.optionCount

/-- The place `q` of the option array lies in the range of the descriptor. -/
def SettingDesc.Spans (d : SettingDesc) (q : Nat) : Prop :=
  d.optionIndex ≤ q ∧ q < d.optionIndex + d.optionCount

/-- The option says what its frame said; `reads off s` means that the text `s` stands at `off`. -/
def EnumOption.SentAs (reads : Nat → CString → Prop) (o : EnumOption) (m : Message) : Prop :=
  m.settingsOptionIndex = some o.value ∧ reads o.labelOff m.settingTitle.text

/-- The ranges of a schema and the option frames of its stream. -/
structure OptionsLaidOut (frames : List Message) (schema : Schema) : Prop where
  within : ∀ d ∈ schema.descriptors, d.optionIndex + d.optionCount ≤ schema.enumOptionPool.length
  apart : ∀ (j k : Nat) (d e : SettingDesc), schema.descriptors[j]? = some d →
    schema.descriptors[k]? = some e → j ≠ k → ∀ q, ¬(d.Spans q ∧ e.Spans q)
  covered : ∀ q, q < schema.enumOptionPool.length → ∃ d ∈ schema.descriptors,
    d.type = DS_TYPE_ENUM ∧ d.Spans q
  /-- Every option frame was sent for an enumeration. -/
  addressed : ∀ m ∈ frames, m.type = .settingsOptionItem → ∃ k d,
    m.settingsSequence.map (·.toNat) = some k ∧ schema.descriptors[k]? = some d ∧
      d.type = DS_TYPE_ENUM
  holds : ∀ k d, schema.descriptors[k]? = some d →
    List.Forall₂ (EnumOption.SentAs fun off s => schema.strings.get off = s) (schema.optionsOf d)
      (optionsSent frames k)
  distinct : ∀ d ∈ schema.descriptors, ((schema.optionsOf d).map (·.value)).Nodup

theorem EnumOption.SentAs.mono {reads reads' : Nat → CString → Prop} {o : EnumOption} {m : Message}
    (h : o.SentAs reads m) (hle : ∀ off s, reads off s → reads' off s) : o.SentAs reads' m :=
  ⟨h.1, hle _ _ h.2⟩

section Sent

variable {frames : List Message} {msg : Message} {k : Nat}

theorem optionsSent_append :
    optionsSent (frames ++ [msg]) k = optionsSent frames k ++ optionsSent [msg] k :=
  List.filter_append ..

theorem optionsSent_other (h : msg.type ≠ .settingsOptionItem) : optionsSent [msg] k = [] := by
  rw [optionsSent, List.filter_cons_of_neg (by simp [h]), List.filter_nil]

theorem optionsSent_self {sequence : UInt16} (h : msg.type = .settingsOptionItem)
    (hseq : msg.settingsSequence = some sequence) : optionsSent [msg] sequence.toNat = [msg] := by
  rw [optionsSent, List.filter_cons_of_pos (by simp [h, hseq]), List.filter_nil]

theorem optionsSent_ne {sequence : UInt16} (hseq : msg.settingsSequence = some sequence)
    (hk : k ≠ sequence.toNat) : optionsSent [msg] k = [] := by
  rw [optionsSent, List.filter_cons_of_neg (by simp [hseq, hk.symm]), List.filter_nil]

end Sent

/-! ## The ranges in a builder -/

/-- Where the range of the descriptor with number `k` starts. -/
def optionStart (ds : List SettingDesc) (k : Nat) : Nat := (ds.getD k {}).optionIndex

/-- How many options it has. -/
def optionCount (ds : List SettingDesc) (k : Nat) : Nat := (ds.getD k {}).optionCount

/-- The options of the descriptor with number `k`. -/
def SchemaBuilder.options (b : SchemaBuilder) (k : Nat) : List EnumOption :=
  Spans.segment b.enumOptions (optionStart b.descriptors k) (optionCount b.descriptors k)

/-- The ranges of a builder and the option frames of its stream. -/
structure Spanned (b : SchemaBuilder) (frames : List Message) : Prop where
  empty : b.strings.Reads 0 []
  tiling : Spans.Tiling b.enumOptions (optionStart b.descriptors) (optionCount b.descriptors)
  enum : ∀ k, 0 < optionCount b.descriptors k → (b.descriptors.getD k {}).type = DS_TYPE_ENUM
  addressed : ∀ m ∈ frames, m.type = .settingsOptionItem → ∃ k,
    m.settingsSequence.map (·.toNat) = some k ∧
      (b.descriptors.getD k {}).type = DS_TYPE_ENUM
  holds : ∀ k, List.Forall₂ (EnumOption.SentAs b.strings.Reads) (b.options k)
    (optionsSent frames k)
  distinct : ∀ k, ((b.options k).map (·.value)).Nodup

section Builder

variable {r : DeviceRecord} {stream stream' : SchemaStream} {msg : Message}
  {b b' : SchemaBuilder} {frames : List Message}

/-- What an item frame does to the options: nothing, its descriptor has none yet. -/
theorem acceptItem_options (h : acceptItem r stream msg = some stream') :
    stream'.builder.enumOptions = stream.builder.enumOptions ∧ ∃ desc : SettingDesc,
      stream'.builder.descriptors = stream.builder.descriptors ++ [desc] ∧
        desc.optionIndex = stream.builder.enumOptions.length ∧ desc.optionCount = 0 := by
  simp only [acceptItem, Option.bind_eq_bind, Option.bind_eq_some_iff, Option.guard_eq_some',
    Option.pure_def, Option.some.injEq, exists_const, Prod.exists] at h
  obtain ⟨_, -, _, -, _, -, _, -, -, -, -, -, -, pool, texts, htexts, -, b, hb, rfl⟩ := h
  have hnone : texts.optionCount = 0 := by
    simp only [addItemTexts, Option.bind_eq_bind, Option.bind_eq_some_iff, Option.pure_def,
      Option.some.injEq, Prod.mk.injEq, Prod.exists] at htexts
    obtain ⟨_, _, -, _, _, -, _, _, -, _, _, -, -, rfl⟩ := htexts
    rfl
  obtain rfl := SchemaBuilder.addSetting_spec hb
  exact ⟨rfl, _, rfl, rfl, hnone⟩

variable {ds : List SettingDesc} {d : SettingDesc}

theorem getD_append {desc : SettingDesc} (k : Nat) :
    (ds ++ [desc]).getD k {} = if k = ds.length then desc else ds.getD k {} := by
  rcases Nat.lt_trichotomy k ds.length with hlt | heq | hgt
  · rw [if_neg (Nat.ne_of_lt hlt)]
    exact List.getD_append _ _ _ _ hlt
  · subst heq
    simp
  · rw [if_neg (Nat.ne_of_gt hgt), List.getD_eq_default _ _ (by simp; omega),
      List.getD_eq_default _ _ (by omega)]

theorem Spanned.start (revision : UInt32) (hmsg : msg.type = .settingsBegin) :
    Spanned (.init revision) [msg] := by
  have hnot : msg.type ≠ .settingsOptionItem := by rw [hmsg]; decide
  have hnone : ∀ k, (SchemaBuilder.init revision).options k = [] := by
    intro k
    exact Spans.segment_zero
  refine ⟨StringPool.reads_fresh, ?_, fun k hk => absurd hk (Nat.lt_irrefl 0), ?_, fun k => ?_,
    fun k => ?_⟩
  · exact Spans.Tiling.nil (fun _ => rfl) (fun _ => rfl)
  · intro m hm htype
    rw [List.mem_singleton.mp hm] at htype
    exact absurd htype hnot
  · rw [hnone, optionsSent_other hnot]
    exact List.Forall₂.nil
  · rw [hnone]
    exact List.nodup_nil

theorem Spanned.other (h : Spanned b frames) (hmsg : msg.type ≠ .settingsOptionItem) :
    Spanned b (frames ++ [msg]) := by
  refine ⟨h.empty, h.tiling, h.enum, fun m hm htype => ?_, fun k => ?_, h.distinct⟩
  · rcases List.mem_append.mp hm with hold | hnew
    · exact h.addressed m hold htype
    · rw [List.mem_singleton.mp hnew] at htype
      exact absurd htype hmsg
  · rw [optionsSent_append, optionsSent_other hmsg, List.append_nil]
    exact h.holds k

/-- The ranges with one more descriptor. -/
theorem Spanned.item (h : Spanned stream.builder frames) (hmsg : msg.type = .settingsItem)
    (hacc : acceptItem r stream msg = some stream') :
    Spanned stream'.builder (frames ++ [msg]) := by
  have hnot : msg.type ≠ .settingsOptionItem := by rw [hmsg]; decide
  obtain ⟨hopts, desc, hdesc, hindex, hcount⟩ := acceptItem_options hacc
  obtain ⟨-, -, -, hext, -⟩ := acceptItem_spec h.empty hacc
  have hcounts : optionCount stream'.builder.descriptors =
      optionCount stream.builder.descriptors := by
    funext k
    rw [optionCount, optionCount, hdesc, getD_append]
    split
    · rename_i heq
      rw [hcount, heq, List.getD_eq_default _ _ (Nat.le_refl _)]
    · rfl
  have hstart : ∀ k, optionStart stream'.builder.descriptors k =
        optionStart stream.builder.descriptors k ∨
      optionCount stream.builder.descriptors k = 0 ∧
        optionStart stream'.builder.descriptors k ≤ stream.builder.enumOptions.length := by
    intro k
    rw [optionStart, optionStart, hdesc, getD_append]
    split
    · rename_i heq
      refine Or.inr ⟨?_, Nat.le_of_eq hindex⟩
      rw [optionCount, heq, List.getD_eq_default _ _ (Nat.le_refl _)]
    · exact Or.inl rfl
  have hsame : ∀ k, stream'.builder.options k = stream.builder.options k := by
    intro k
    rw [SchemaBuilder.options, SchemaBuilder.options, hopts, hcounts]
    exact Spans.segment_restart hstart k
  have htypes : ∀ k, (stream.builder.descriptors.getD k {}).type = DS_TYPE_ENUM →
      (stream'.builder.descriptors.getD k {}).type = DS_TYPE_ENUM := by
    intro k hk
    rw [hdesc, getD_append, if_neg]
    · exact hk
    · -- behind the last descriptor there is no enumeration
      intro heq
      rw [heq, List.getD_eq_default _ _ (Nat.le_refl _)] at hk
      exact absurd hk (by decide)
  refine ⟨h.empty.extends hext, ?_, ?_, ?_, ?_, ?_⟩
  · rw [hopts, hcounts]
    exact h.tiling.restart hstart
  · intro k hk
    rw [hcounts] at hk
    exact htypes k (h.enum k hk)
  · intro m hm htype
    obtain ⟨k, hseq, hk⟩ := (h.other hnot).addressed m hm htype
    exact ⟨k, hseq, htypes k hk⟩
  · intro k
    rw [hsame k]
    exact ((h.other hnot).holds k).imp fun _ _ hsent => hsent.mono fun _ _ hr => hr.extends hext
  · intro k
    rw [hsame k]
    exact h.distinct k

/-! ## One more option -/

variable {p sequence : Nat}

/-- The option moves to its place. -/
theorem moveOption_enumOptions {o : EnumOption} (hb : b.enumOptions = b'.enumOptions ++ [o])
    (hp : p ≤ b'.enumOptions.length) :
    (moveOption b sequence b'.enumOptions.length p).enumOptions =
      Spans.insertAt b'.enumOptions p o := by
  rw [moveOption]
  split
  · show b.enumOptions.take p ++ b.enumOptions.drop b'.enumOptions.length ++
      (b.enumOptions.drop p).take (b'.enumOptions.length - p) = _
    have hrest : (b'.enumOptions.drop p).take (b'.enumOptions.length - p) =
        b'.enumOptions.drop p := List.take_of_length_le (by rw [List.length_drop])
    rw [hb, Spans.insertAt, List.take_append_of_le_length hp, List.drop_left,
      List.drop_append_of_le_length hp, List.take_append_of_le_length (by rw [List.length_drop]),
      hrest, List.append_assoc]
    rfl
  · -- the end of the array is the place
    have hend : p = b'.enumOptions.length := by omega
    rw [hb, hend, Spans.insertAt_length]

/-- The descriptors behind the place, with the default descriptor behind the last one. -/
theorem moveOption_getD {optionSlot : Nat} (k : Nat) :
    (moveOption b sequence optionSlot p).descriptors.getD k {} =
      if p < optionSlot ∧ k ≠ sequence ∧ 0 < optionCount b.descriptors k ∧
          p ≤ optionStart b.descriptors k then
        { b.descriptors.getD k {} with optionIndex := optionStart b.descriptors k + 1 }
      else b.descriptors.getD k {} := by
  rw [moveOption]
  by_cases hmove : p < optionSlot
  · rw [if_pos hmove]
    dsimp only
    rw [List.getD_eq_getElem?_getD, List.getElem?_mapIdx, optionCount, optionStart,
      List.getD_eq_getElem?_getD]
    cases hk : b.descriptors[k]? with
    | none => simp
    | some d =>
        simp only [Option.map_some, Option.getD_some, hmove, true_and]
  · rw [if_neg hmove, if_neg fun h => hmove h.1]

theorem getD_set (hlt : sequence < ds.length) (k : Nat) :
    (ds.set sequence d).getD k {} = if k = sequence then d else ds.getD k {} := by
  rw [List.getD_eq_getElem?_getD, List.getElem?_set, List.getD_eq_getElem?_getD]
  by_cases hk : k = sequence
  · rw [if_pos hk.symm, if_pos hk, if_pos (by omega)]
    rfl
  · rw [if_neg fun heq => hk heq.symm, if_neg hk]

/-- The descriptors after an option of the descriptor `sequence` has gone in. -/
theorem getD_moved {optionSlot : Nat} (hlt : sequence < b.descriptors.length) (k : Nat) :
    ((moveOption b sequence optionSlot p).descriptors.set sequence d).getD k {} =
      if k = sequence then d
      else if p < optionSlot ∧ k ≠ sequence ∧ 0 < optionCount b.descriptors k ∧
          p ≤ optionStart b.descriptors k then
        { b.descriptors.getD k {} with optionIndex := optionStart b.descriptors k + 1 }
      else b.descriptors.getD k {} := by
  have hlen := congrArg List.length (moveOption_sansOptions b sequence optionSlot p)
  rw [List.length_map, List.length_map] at hlen
  rw [getD_set (by omega), moveOption_getD]

theorem type_shifted {c : Prop} [Decidable c] (index : Nat) :
    (if c then { d with optionIndex := index } else d).type = d.type := by
  split
  · rfl
  · rfl

/-- The ranges grow as a tiling does. -/
theorem grown_moved {cells : List EnumOption} {optionSlot : Nat}
    (htiling : Spans.Tiling cells (optionStart ds) (optionCount ds)) (hdescs : b.descriptors = ds)
    (hlt : sequence < ds.length) (hslot : cells.length = optionSlot)
    (hp : p = Spans.place cells (optionStart ds) (optionCount ds) sequence) :
    Spans.Grown cells (optionStart ds) (optionCount ds) sequence
      (optionStart ((moveOption b sequence optionSlot p).descriptors.set sequence
        { ds.getD sequence {} with
          optionIndex := if (ds.getD sequence {}).optionCount = 0 then p
            else (ds.getD sequence {}).optionIndex
          optionCount := (ds.getD sequence {}).optionCount + 1 }))
      (optionCount ((moveOption b sequence optionSlot p).descriptors.set sequence
        { ds.getD sequence {} with
          optionIndex := if (ds.getD sequence {}).optionCount = 0 then p
            else (ds.getD sequence {}).optionIndex
          optionCount := (ds.getD sequence {}).optionCount + 1 })) := by
  have hlt' : sequence < b.descriptors.length := by rw [hdescs]; exact hlt
  refine ⟨funext fun k => ?_, ?_, fun k hk => ?_⟩
  · by_cases hk : k = sequence
    · subst hk
      rw [Function.update_self, optionCount, getD_moved hlt', if_pos rfl]
      rfl
    · rw [Function.update_of_ne hk, optionCount, getD_moved hlt', if_neg hk, hdescs]
      split
      · rfl
      · rfl
  · rw [optionStart, getD_moved hlt', if_pos rfl]
    show (if optionCount ds sequence = 0 then p else optionStart ds sequence) = _
    split
    · rename_i hempty
      rw [hp, Spans.place, if_pos hempty]
    · rfl
  · have hwithin := htiling.within k
    rw [optionStart, getD_moved hlt', if_neg hk, hdescs, ← hp]
    by_cases hshift : 0 < optionCount ds k ∧ p ≤ optionStart ds k
    · rw [if_pos ⟨by omega, hk, hshift⟩, if_pos hshift]
    · rw [if_neg fun h => hshift h.2.2, if_neg hshift]
      rfl

/-- **An accepted option** goes in behind the options of its setting. -/
theorem acceptOption_options
    (htiling : Spans.Tiling stream.builder.enumOptions (optionStart stream.builder.descriptors)
      (optionCount stream.builder.descriptors))
    (h : acceptOption r stream msg = some stream') :
    ∃ sequence value labelOff, msg.settingsSequence = some sequence ∧
      msg.settingsOptionIndex = some value ∧
      (stream.builder.descriptors.getD sequence.toNat {}).type = DS_TYPE_ENUM ∧
      (∀ o ∈ stream.builder.options sequence.toNat, o.value ≠ value) ∧
      stream'.builder.strings.Reads labelOff msg.settingTitle.text ∧
      stream'.builder.enumOptions = Spans.insertAt stream.builder.enumOptions
        (Spans.place stream.builder.enumOptions (optionStart stream.builder.descriptors)
          (optionCount stream.builder.descriptors) sequence.toNat) ⟨value, labelOff⟩ ∧
      Spans.Grown stream.builder.enumOptions (optionStart stream.builder.descriptors)
        (optionCount stream.builder.descriptors) sequence.toNat
        (optionStart stream'.builder.descriptors) (optionCount stream'.builder.descriptors) ∧
      ∀ k, (stream'.builder.descriptors.getD k {}).type =
        (stream.builder.descriptors.getD k {}).type := by
  simp only [acceptOption, Option.bind_eq_bind, Option.bind_eq_some_iff, Option.guard_eq_some',
    Option.pure_def, Option.some.injEq, exists_const, Prod.exists] at h
  obtain ⟨sequence, hseq, value, hvalue, -, -, htype, -, hnew, b, slot, hb, rfl⟩ := h
  -- what the option adds to the builder before it moves
  rw [SchemaBuilder.addEnumOption] at hb
  split at hb
  · cases hb
  split at hb
  · cases hb
  rename_i strings labelOff hadd
  obtain ⟨hbuilder, hslot⟩ := Prod.mk.inj (Option.some.inj hb)
  obtain ⟨-, hread⟩ := StringPool.add_spec msg.settingTitle.noNul hadd
  have hplace := htiling.place_le sequence.toNat
  have hpos : (if (stream.builder.descriptors.getD sequence.toNat {}).optionCount = 0 then slot
      else (stream.builder.descriptors.getD sequence.toNat {}).optionIndex +
        (stream.builder.descriptors.getD sequence.toNat {}).optionCount) =
      Spans.place stream.builder.enumOptions (optionStart stream.builder.descriptors)
        (optionCount stream.builder.descriptors) sequence.toNat := by
    rw [← hslot]
    rfl
  have hdescs : b.descriptors = stream.builder.descriptors := by rw [← hbuilder]
  have hopts : b.enumOptions = stream.builder.enumOptions ++ [⟨value, labelOff⟩] := by
    rw [← hbuilder]
  have hlt : sequence.toNat < stream.builder.descriptors.length := by
    by_contra hge
    rw [List.getD_eq_default _ _ (Nat.le_of_not_lt hge)] at htype
    exact absurd htype (by decide)
  refine ⟨sequence, value, labelOff, hseq, hvalue, htype, hnew, ?_, ?_, ?_, ?_⟩
  · show (moveOption b _ _ _).strings.Reads labelOff msg.settingTitle.text
    rw [moveOption_strings, ← hbuilder]
    exact hread
  · show (moveOption b _ slot _).enumOptions = _
    rw [hpos, ← hslot]
    exact moveOption_enumOptions hopts hplace
  · exact grown_moved htiling hdescs hlt hslot hpos
  · intro k
    show ((List.set (moveOption b _ slot _).descriptors _ _).getD k {}).type = _
    rw [getD_moved (by rw [hdescs]; exact hlt), hdescs]
    by_cases hk : k = sequence.toNat
    · rw [if_pos hk, hk]
    · rw [if_neg hk]
      exact type_shifted _

/-- The ranges with one more option. -/
theorem Spanned.option (h : Spanned stream.builder frames) (hmsg : msg.type = .settingsOptionItem)
    (hacc : acceptOption r stream msg = some stream') :
    Spanned stream'.builder (frames ++ [msg]) := by
  obtain ⟨-, hext, -⟩ := acceptOption_spec hacc
  obtain ⟨sequence, value, labelOff, hseq, hvalue, htype, hnew, hread, hopts, hgrown, htypes⟩ :=
    acceptOption_options h.tiling hacc
  have hself : stream'.builder.options sequence.toNat =
      stream.builder.options sequence.toNat ++ [⟨value, labelOff⟩] := by
    rw [SchemaBuilder.options, hopts]
    exact Spans.segment_grow_self h.tiling hgrown
  have hother : ∀ k, k ≠ sequence.toNat → stream'.builder.options k = stream.builder.options k := by
    intro k hk
    rw [SchemaBuilder.options, hopts]
    exact Spans.segment_grow_other h.tiling hgrown hk
  have hold : ∀ k, List.Forall₂ (EnumOption.SentAs stream'.builder.strings.Reads)
      (stream.builder.options k) (optionsSent frames k) := fun k =>
    (h.holds k).imp fun _ _ hsent => hsent.mono fun _ _ hr => hr.extends hext
  refine ⟨h.empty.extends hext, ?_, fun k hk => ?_, fun m hm hm' => ?_, fun k => ?_, fun k => ?_⟩
  · rw [hopts]
    exact h.tiling.grow hgrown
  · rw [htypes]
    by_cases hkseq : k = sequence.toNat
    · rw [hkseq]
      exact htype
    · rw [hgrown.count_other hkseq] at hk
      exact h.enum k hk
  · rcases List.mem_append.mp hm with hmem | hlast
    · obtain ⟨k, hk, henum⟩ := h.addressed m hmem hm'
      exact ⟨k, hk, (htypes k).trans henum⟩
    · rw [List.mem_singleton.mp hlast, hseq]
      exact ⟨sequence.toNat, rfl, (htypes _).trans htype⟩
  · by_cases hk : k = sequence.toNat
    · rw [hk, hself, optionsSent_append, optionsSent_self hmsg hseq]
      exact List.rel_append (hold _) (List.Forall₂.cons ⟨hvalue, hread⟩ List.Forall₂.nil)
    · rw [hother k hk, optionsSent_append, optionsSent_ne hseq hk, List.append_nil]
      exact hold k
  · by_cases hk : k = sequence.toNat
    · rw [hk, hself, List.map_append]
      refine List.nodup_append.mpr ⟨h.distinct _, List.nodup_singleton _, fun v hv w hw => ?_⟩
      obtain ⟨o, ho, rfl⟩ := List.mem_map.mp hv
      rw [List.mem_singleton.mp hw]
      exact hnew o ho
    · rw [hother k hk]
      exact h.distinct k

end Builder

/-! ## Committed schemas -/

/-- Every frame of a schema stream keeps the ranges. -/
theorem spanned_rule : SchemaRule Spanned where
  start revision _ hmsg := Spanned.start revision hmsg
  other _ _ _ _ hoption h := h.other hoption
  item _ _ _ _ _ hmsg hacc h := h.item hmsg hacc
  option _ _ _ _ _ hmsg hacc h := h.option hmsg hacc

variable {d : SettingDesc} {ds : List SettingDesc}

theorem getD_of_getElem? {k : Nat} (h : ds[k]? = some d) :
    ds.getD k {} = d := by
  rw [List.getD_eq_getElem?_getD, h, Option.getD_some]

/-- An enumeration is a descriptor of the list. -/
theorem getElem?_of_enum {k : Nat} (h : (ds.getD k {}).type = DS_TYPE_ENUM) :
    ∃ d, ds[k]? = some d ∧ d.type = DS_TYPE_ENUM := by
  rw [List.getD_eq_getElem?_getD] at h
  cases hk : ds[k]? with
  | some d =>
      rw [hk] at h
      exact ⟨d, rfl, h⟩
  | none =>
      rw [hk] at h
      exact absurd h (by decide)

/-- What the ranges of a builder are in the schema that it becomes. -/
theorem Spanned.laidOut {b : SchemaBuilder} {frames : List Message} (h : Spanned b frames) :
    OptionsLaidOut frames b.commit := by
  have hstart : ∀ {k : Nat} {d : SettingDesc}, b.descriptors[k]? = some d →
      optionStart b.descriptors k = d.optionIndex ∧
        optionCount b.descriptors k = d.optionCount := by
    intro k d hd
    rw [optionStart, optionCount, getD_of_getElem? hd]
    exact ⟨rfl, rfl⟩
  have hopts : ∀ {k : Nat} {d : SettingDesc}, b.descriptors[k]? = some d →
      b.options k = b.commit.optionsOf d := by
    intro k d hd
    rw [SchemaBuilder.options, (hstart hd).1, (hstart hd).2]
    rfl
  refine ⟨fun d hd => ?_, fun j k d e hd he hne q => ?_, fun q hq => ?_, fun m hm htype => ?_,
    fun k d hd => ?_, fun d hd => ?_⟩
  · obtain ⟨k, hk⟩ := List.mem_iff_getElem?.mp hd
    obtain ⟨hindex, hcount⟩ := hstart hk
    rw [← hindex, ← hcount]
    exact h.tiling.within k
  · rintro ⟨⟨hdlo, hdhi⟩, helo, hehi⟩
    obtain ⟨hdindex, hdcount⟩ := hstart hd
    obtain ⟨heindex, hecount⟩ := hstart he
    have happart := h.tiling.apart j k hne (by omega) (by omega)
    omega
  · obtain ⟨k, hlo, hhi⟩ := h.tiling.covered q hq
    obtain ⟨d, hd, henum⟩ := getElem?_of_enum (h.enum k (by omega))
    obtain ⟨hindex, hcount⟩ := hstart hd
    exact ⟨d, List.mem_of_getElem? hd, henum, by omega, by omega⟩
  · obtain ⟨k, hseq, henum⟩ := h.addressed m hm htype
    obtain ⟨d, hd, hd'⟩ := getElem?_of_enum henum
    exact ⟨k, d, hseq, hd, hd'⟩
  · rw [← hopts hd]
    exact (h.holds k).imp fun _ _ hsent => hsent.mono fun _ _ hr => hr.get
  · obtain ⟨k, hk⟩ := List.mem_iff_getElem?.mp hd
    rw [← hopts hk]
    exact h.distinct k

/-- **Option ranges.** In every run, for every order of the frames, the ranges of a committed schema
lie in its option array, do not overlap, cover it, and hold what was sent for their settings. -/
theorem options_laidOut {σ : Streams} (hσ : Streams.machine.Reachable σ) {frames : List Message}
    {schema : Schema} (hc : Commit.schema frames schema ∈ σ.commits) :
    OptionsLaidOut frames schema := by
  obtain ⟨b, rfl, h⟩ := schemaRule_commits spanned_rule hσ hc
  exact h.laidOut

def enumItemFrame (id : Text GW_SETTINGS_CBOR_MAX_ID_LEN) (sequence total : UInt16) : Message :=
  { itemFrame id sequence total with settingType := some DS_TYPE_ENUM }

def optionLabel : Text GW_MSG_CAP_LABEL_LEN := ⟨⟨[79], by show 1 < 32; decide⟩, by decide⟩

def optionFrame (sequence : UInt16) (value : UInt8) : Message :=
  { type := .settingsOptionItem
    requestId := some 7
    settingsSequence := some sequence
    settingsOptionIndex := some value
    settingTitle := optionLabel }

theorem mode_ne_nul : (0 : UInt8) ∉ [97] := by decide

theorem style_ne_nul : (0 : UInt8) ∉ [98] := by decide

/-- Two enumerations; the second option of the first comes behind the option of the second. -/
def interleavedRun : List Label :=
  [frame (beginFrame 2), frame (enumItemFrame (settingId 97 mode_ne_nul) 0 2),
    frame (optionFrame 0 1), frame (enumItemFrame (settingId 98 style_ne_nul) 1 2),
    frame (optionFrame 1 5), frame (optionFrame 0 2), frame (endFrame 2)]

theorem options_laidOut_interleaved : ∃ frames schema,
    schema.enumOptionPool.map (·.value) = [1, 2, 5] ∧ OptionsLaidOut frames schema := by
  obtain ⟨σ, hσ, frames, schema, hc, hvalues⟩ := exists_schema_of_run interleavedRun
    (fun s => s.enumOptionPool.map (·.value) = [1, 2, 5]) (by decide +kernel)
  exact ⟨frames, schema, of_decide_eq_true hvalues, options_laidOut hσ hc⟩

end BleGateway.Settings
