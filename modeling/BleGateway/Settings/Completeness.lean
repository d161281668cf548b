import BleGateway.Settings.Accept

/-! # Every commit is complete

The invariant of the streams: an open stream has an active record whose counts are those of its
begin frame and of its builder, and the builder holds what the item frames said. It is kept by
every frame as long as the two streams of a device are not open together; a commit copies the
builder.
-/

namespace BleGateway.Settings

open Protocol

/-! ## Descriptors and their items -/

theorem DescribedBy.mono {reads reads' : Nat → CString → Prop} {d : SettingDesc} {m : Message}
    (h : DescribedBy reads d m) (hle : ∀ off s, reads off s → reads' off s) :
    DescribedBy reads' d m :=
  { h with
    id := h.id.imp fun _ hid => ⟨hid.1, hle _ _ hid.2⟩
    title := by
      have := h.title
      by_cases hne : m.settingTitle.text = []
      · rwa [if_neg (not_not.mpr hne)] at this ⊢
      · rw [if_pos hne] at this ⊢
        exact hle _ _ this
    group := hle _ _ h.group
    unit := hle _ _ h.unit }

/-- The options of a descriptor do not matter. -/
theorem DescribedBy.congr {reads : Nat → CString → Prop} {d d' : SettingDesc} {m : Message}
    (h : DescribedBy reads d m) (hd : d'.sansOptions = d.sansOptions) : DescribedBy reads d' m := by
  simp only [SettingDesc.sansOptions, SettingDesc.mk.injEq] at hd
  obtain ⟨hid, htitle, hgroup, hunit, hmin, hmax, hstep, hflags, hlen, _, htype, _⟩ := hd
  exact
    { id := by rw [hid]; exact h.id
      title := by rw [htitle, hid]; exact h.title
      group := by rw [hgroup]; exact h.group
      unit := by rw [hunit]; exact h.unit
      type := by rw [htype]; exact h.type
      flags := hflags.trans h.flags
      maxLength := hlen.trans h.maxLength
      minValue := hmin.trans h.minValue
      maxValue := hmax.trans h.maxValue
      step := hstep.trans h.step }

/-- The builder holds what the item frames said. -/
structure Built (b : SchemaBuilder) (frames : List Message) : Prop where
  empty : b.strings.Reads 0 []
  count : (itemsOf frames).length = b.descriptors.length
  described : ∀ i m d, (itemsOf frames)[i]? = some m → b.descriptors[i]? = some d →
    m.settingsSequence.map (·.toNat) = some i ∧ DescribedBy b.strings.Reads d m
  distinct : (b.descriptors.map fun d => b.strings.get d.idOff).Nodup

namespace Built

variable {b b' : SchemaBuilder} {frames : List Message} {msg : Message}

theorem reads (h : Built b frames) {d : SettingDesc} (hd : d ∈ b.descriptors) :
    ∃ s, b.strings.Reads d.idOff s := by
  obtain ⟨i, hi⟩ := List.mem_iff_getElem?.mp hd
  have hlt : i < (itemsOf frames).length := by
    rw [h.count]
    exact (List.getElem?_eq_some_iff.mp hi).1
  obtain ⟨_, hdesc⟩ := h.described i _ d (List.getElem?_eq_getElem hlt) hi
  obtain ⟨id, _, hread⟩ := hdesc.id
  exact ⟨id.text, hread⟩

/-- Ids read the same in a pool that has grown. -/
theorem get_eq (h : Built b frames) {pool : StringPool} (hext : b.strings.Extends pool)
    {d : SettingDesc} (hd : d ∈ b.descriptors) :
    pool.get d.idOff = b.strings.get d.idOff := by
  obtain ⟨s, hs⟩ := h.reads hd
  rw [hs.get, (hs.extends hext).get]

theorem map_get_eq (h : Built b frames) {pool : StringPool} (hext : b.strings.Extends pool) :
    (b.descriptors.map fun d => pool.get d.idOff) =
      b.descriptors.map fun d => b.strings.get d.idOff :=
  List.map_congr_left fun _ hd => h.get_eq hext hd

theorem start (revision : UInt32) (hmsg : msg.type = .settingsBegin) :
    Built (.init revision) [msg] := by
  have hitems : itemsOf [msg] = [] := by simp [itemsOf, hmsg]
  refine ⟨StringPool.reads_fresh, by rw [hitems]; rfl, fun i m d hm => ?_, List.nodup_nil⟩
  rw [hitems] at hm
  cases hm

/-- Frames that are no items do not count. -/
theorem other (h : Built b frames) (hmsg : msg.type ≠ .settingsItem) :
    Built b (frames ++ [msg]) := by
  have hitems : itemsOf (frames ++ [msg]) = itemsOf frames := by
    simp [itemsOf, List.filter_append, hmsg]
  exact ⟨h.empty, by rw [hitems]; exact h.count, by rw [hitems]; exact h.described, h.distinct⟩

/-- The next item. -/
theorem item {desc : SettingDesc} {settingId : Text GW_SETTINGS_CBOR_MAX_ID_LEN}
    (h : Built b frames) (hmsg : msg.type = .settingsItem)
    (hseq : msg.settingsSequence.map (·.toNat) = some b.descriptors.length)
    (hext : b.strings.Extends b'.strings)
    (hnew : ∀ d ∈ b.descriptors, b.strings.get d.idOff ≠ settingId.text)
    (hdesc : b'.descriptors = b.descriptors ++ [desc])
    (hread : b'.strings.Reads desc.idOff settingId.text)
    (hitem : DescribedBy b'.strings.Reads desc msg) : Built b' (frames ++ [msg]) := by
  have hitems : itemsOf (frames ++ [msg]) = itemsOf frames ++ [msg] := by
    simp [itemsOf, List.filter_append, hmsg]
  refine ⟨h.empty.extends hext, ?_, fun i m d hm hd => ?_, ?_⟩
  · rw [hitems, hdesc, List.length_append, List.length_append, h.count]
    rfl
  · rw [hitems] at hm
    rw [hdesc] at hd
    rcases Nat.lt_trichotomy i b.descriptors.length with hlt | rfl | hgt
    · rw [List.getElem?_append_left hlt] at hd
      rw [List.getElem?_append_left (h.count ▸ hlt)] at hm
      obtain ⟨hs, hdm⟩ := h.described i m d hm hd
      exact ⟨hs, hdm.mono fun _ _ hr => hr.extends hext⟩
    · -- the new one
      rw [List.getElem?_concat_length] at hd
      rw [← h.count, List.getElem?_concat_length] at hm
      cases hd
      cases hm
      exact ⟨hseq, hitem⟩
    · have hnone : (b.descriptors ++ [desc])[i]? = none := by
        refine List.getElem?_eq_none ?_
        rw [List.length_append, List.length_singleton]
        omega
      cases hnone.symm.trans hd
  · rw [hdesc, List.map_append, h.map_get_eq hext]
    refine List.nodup_append.mpr ⟨h.distinct, List.nodup_singleton _, fun s hs t ht => ?_⟩
    obtain ⟨d, hd, rfl⟩ := List.mem_map.mp hs
    obtain rfl := List.mem_singleton.mp ht
    change _ ≠ b'.strings.get desc.idOff
    rw [hread.get]
    exact hnew d hd

/-- A new option, or a move of options. -/
theorem option (h : Built b frames) (hext : b.strings.Extends b'.strings)
    (hdesc : b'.descriptors.map SettingDesc.sansOptions =
      b.descriptors.map SettingDesc.sansOptions) : Built b' frames := by
  have hids : (b'.descriptors.map fun d => b'.strings.get d.idOff) =
      b.descriptors.map fun d => b'.strings.get d.idOff := by
    have := congrArg (List.map fun d : SettingDesc => b'.strings.get d.idOff) hdesc
    rwa [List.map_map, List.map_map] at this
  refine ⟨h.empty.extends hext, ?_, fun i m d hm hd => ?_, ?_⟩
  · rw [h.count]
    simpa using (congrArg List.length hdesc).symm
  · have hsame : (b.descriptors.map SettingDesc.sansOptions)[i]? = some d.sansOptions := by
      rw [← hdesc, List.getElem?_map, hd, Option.map_some]
    rw [List.getElem?_map] at hsame
    obtain ⟨old, hold, he⟩ := Option.map_eq_some_iff.mp hsame
    obtain ⟨hs, hdm⟩ := h.described i m old hm hold
    exact ⟨hs, (hdm.mono fun _ _ hr => hr.extends hext).congr he.symm⟩
  · rw [hids, h.map_get_eq hext]
    exact h.distinct

end Built

/-! ## Open streams -/

theorem Announces.append {frames : List Message} {type : MsgType} {n : Nat}
    (h : Announces frames type n) (msg : Message) : Announces (frames ++ [msg]) type n := by
  obtain ⟨opening, rest, total, rfl, htype, htotal, hn⟩ := h
  exact ⟨opening, rest ++ [msg], total, rfl, htype, htotal, hn⟩

/-- A schema stream with its record and its frames. -/
structure SchemaOpen (r : DeviceRecord) (b : SchemaBuilder) (frames : List Message) : Prop where
  active : r.schemaStreamActive = true
  announced : Announces frames .settingsBegin r.stagingExpectedCount
  received : r.stagingReceivedCount = b.descriptors.length
  built : Built b frames

/-- A values stream with its record and its frames. -/
structure ValuesOpen (r : DeviceRecord) (b : ValuesBuilder) (frames : List Message) : Prop where
  active : r.valuesStreamActive = true
  announced : Announces frames .valuesBegin r.stagingExpectedCount
  received : r.stagingReceivedCount = b.entries.length
  belongs : ∀ v ∈ b.entries, ∃ committed d, r.schema = some committed ∧
    d ∈ committed.descriptors ∧ b.stringPool.Reads v.idOff (committed.idOf d) ∧ d.type = v.type

/-- The open streams, with the frames of the schema stream and of the values stream. -/
structure Open (p : Protocol) (schemaFrames valuesFrames : List Message) : Prop where
  distinct : p.Distinct
  schema : ∀ stream, p.schemaStream = some stream →
    ∃ r, p.recordOf stream.owner = some r ∧ SchemaOpen r stream.builder schemaFrames
  values : ∀ stream, p.valuesStream = some stream →
    ∃ r, p.recordOf stream.owner = some r ∧ ValuesOpen r stream.builder valuesFrames
  apart : ∀ a b, p.schemaStream = some a → p.valuesStream = some b → a.owner ≠ b.owner

/-- What the streams depend on in a record. -/
def DeviceRecord.staging (r : DeviceRecord) :
    Bool × DeviceId × Option Schema × Nat × Nat × Bool × Bool :=
  (r.used, r.deviceId, r.schema, r.stagingExpectedCount, r.stagingReceivedCount,
    r.schemaStreamActive, r.valuesStreamActive)

section Keep

variable {p p' : Protocol} {sf vf : List Message} {id : DeviceId} {i : Rx} {r r' : DeviceRecord}
  {msg : Message}

theorem framesAfter_self : framesAfter (some id) sf id msg = sf ++ [msg] := if_pos rfl

theorem framesAfter_of_ne {owner : DeviceId} (h : owner ≠ id) :
    framesAfter (some owner) sf id msg = sf := if_neg h

theorem SchemaOpen.congr {b : SchemaBuilder} (h : SchemaOpen r b sf) (hr : r'.staging = r.staging) :
    SchemaOpen r' b sf := by
  simp only [DeviceRecord.staging, Prod.mk.injEq] at hr
  obtain ⟨_, _, _, hexpected, hreceived, hactive, _⟩ := hr
  exact ⟨hactive.trans h.active, hexpected ▸ h.announced, hreceived.trans h.received, h.built⟩

theorem ValuesOpen.congr {b : ValuesBuilder} (h : ValuesOpen r b vf) (hr : r'.staging = r.staging) :
    ValuesOpen r' b vf := by
  simp only [DeviceRecord.staging, Prod.mk.injEq] at hr
  obtain ⟨_, _, hschema, hexpected, hreceived, _, hactive⟩ := hr
  refine ⟨hactive.trans h.active, hexpected ▸ h.announced, hreceived.trans h.received, ?_⟩
  rw [hschema]
  exact h.belongs

/-- A change that keeps the streams it leaves open, and their records. -/
theorem Open.elsewhere (h : Open p sf vf) (hd : p'.Distinct)
    (hs : ∀ stream, p'.schemaStream = some stream → p.schemaStream = some stream ∧
      p'.recordOf stream.owner = p.recordOf stream.owner)
    (hv : ∀ stream, p'.valuesStream = some stream → p.valuesStream = some stream ∧
      p'.recordOf stream.owner = p.recordOf stream.owner) : Open p' sf vf where
  distinct := hd
  schema stream hstream := by
    obtain ⟨hold, hrec⟩ := hs stream hstream
    rw [hrec]
    exact h.schema stream hold
  values stream hstream := by
    obtain ⟨hold, hrec⟩ := hv stream hstream
    rw [hrec]
    exact h.values stream hold
  apart a b ha hb := h.apart a b (hs a ha).1 (hv b hb).1

/-- A change of a record that the streams do not depend on. -/
theorem Open.touch (h : Open p sf vf) (hi : p.findRecord id = some i)
    (hr : r'.staging = (p.records i).staging) : Open (p.setRecord i r') sf vf := by
  obtain ⟨_, hu, hkey⟩ := findRecord_spec hi
  have hused : r'.used = true := (congrArg (·.1) hr).trans hu
  have hid : r'.deviceId = id := (congrArg (·.2.1) hr).trans hkey
  have hrec : ∀ {id' r}, p.recordOf id' = some r → ∃ r₁,
      (p.setRecord i r').recordOf id' = some r₁ ∧ r₁.staging = r.staging := by
    intro id' r hr'
    rw [recordOf_setRecord hi hid hused]
    by_cases he : id' = id
    · subst he
      rw [recordOf_of_find hi] at hr'
      cases hr'
      exact ⟨r', if_pos rfl, hr⟩
    · exact ⟨r, (if_neg he).trans hr', rfl⟩
  refine ⟨Distinct.setRecord hi hid h.distinct, fun stream hs => ?_, fun stream hv => ?_, h.apart⟩
  · obtain ⟨r, hr₀, hopen⟩ := h.schema stream hs
    obtain ⟨r₁, hr₁, hsame⟩ := hrec hr₀
    exact ⟨r₁, hr₁, hopen.congr hsame⟩
  · obtain ⟨r, hr₀, hopen⟩ := h.values stream hv
    obtain ⟨r₁, hr₁, hsame⟩ := hrec hr₀
    exact ⟨r₁, hr₁, hopen.congr hsame⟩

/-- A frame that has no effect; an item frame of the owner of the schema stream always has. -/
theorem Open.ignore (h : Open p sf vf)
    (hitem : msg.type = .settingsItem → p.schemaStream.map (·.owner) ≠ some id) :
    Open p (framesAfter (p.schemaStream.map (·.owner)) sf id msg)
      (framesAfter (p.valuesStream.map (·.owner)) vf id msg) := by
  refine ⟨h.distinct, fun stream hs => ?_, fun stream hv => ?_, h.apart⟩
  · obtain ⟨r, hr, hopen⟩ := h.schema stream hs
    refine ⟨r, hr, ?_⟩
    rw [hs, Option.map_some] at hitem ⊢
    by_cases he : stream.owner = id
    · subst he
      rw [framesAfter_self]
      have hmsg : msg.type ≠ .settingsItem := fun hm => hitem hm rfl
      exact ⟨hopen.active, hopen.announced.append msg, hopen.received, hopen.built.other hmsg⟩
    · rw [framesAfter_of_ne he]
      exact hopen
  · obtain ⟨r, hr, hopen⟩ := h.values stream hv
    refine ⟨r, hr, ?_⟩
    rw [hv, Option.map_some]
    by_cases he : stream.owner = id
    · subst he
      rw [framesAfter_self]
      exact ⟨hopen.active, hopen.announced.append msg, hopen.received, hopen.belongs⟩
    · rw [framesAfter_of_ne he]
      exact hopen

/-- A change of the schema stream of `id` and of its record. -/
theorem Open.schemaStep (h : Open p sf vf) (hi : p.findRecord id = some i)
    (hother : p.valuesStream.map (·.owner) ≠ some id) (hused : r'.used = true)
    (hid : r'.deviceId = id) {stream' : Option SchemaStream} {sf' : List Message}
    (hstream : ∀ stream, stream' = some stream →
      stream.owner = id ∧ SchemaOpen r' stream.builder sf') :
    Open { p.setRecord i r' with schemaStream := stream' } sf'
      (framesAfter (p.valuesStream.map (·.owner)) vf id msg) := by
  have hrec : ∀ id', ({ p.setRecord i r' with schemaStream := stream' } : Protocol).recordOf id' =
      if id' = id then some r' else p.recordOf id' :=
    fun id' => (recordOf_congr (by rfl) id').trans (recordOf_setRecord hi hid hused id')
  refine ⟨Distinct.setRecord hi hid h.distinct, fun stream hs => ?_, fun stream hv => ?_,
    fun a b ha hb he => ?_⟩
  · obtain ⟨howner, hopen⟩ := hstream stream hs
    exact ⟨r', by rw [hrec, if_pos howner], hopen⟩
  · have hv' : p.valuesStream = some stream := hv
    obtain ⟨r, hr, hopen⟩ := h.values stream hv'
    have hne : stream.owner ≠ id := fun he => hother (by rw [hv', Option.map_some, he])
    rw [hv', Option.map_some, framesAfter_of_ne hne]
    exact ⟨r, by rw [hrec, if_neg hne]; exact hr, hopen⟩
  · have hb' : p.valuesStream = some b := hb
    refine hother ?_
    rw [hb', Option.map_some, ← he, (hstream a ha).1]

/-- A change of the values stream of `id` and of its record. -/
theorem Open.valuesStep (h : Open p sf vf) (hi : p.findRecord id = some i)
    (hother : p.schemaStream.map (·.owner) ≠ some id) (hused : r'.used = true)
    (hid : r'.deviceId = id) {stream' : Option ValuesStream} {vf' : List Message}
    (hstream : ∀ stream, stream' = some stream →
      stream.owner = id ∧ ValuesOpen r' stream.builder vf') :
    Open { p.setRecord i r' with valuesStream := stream' }
      (framesAfter (p.schemaStream.map (·.owner)) sf id msg) vf' := by
  have hrec : ∀ id', ({ p.setRecord i r' with valuesStream := stream' } : Protocol).recordOf id' =
      if id' = id then some r' else p.recordOf id' :=
    fun id' => (recordOf_congr (by rfl) id').trans (recordOf_setRecord hi hid hused id')
  refine ⟨Distinct.setRecord hi hid h.distinct, fun stream hs => ?_, fun stream hv => ?_,
    fun a b ha hb he => ?_⟩
  · have hs' : p.schemaStream = some stream := hs
    obtain ⟨r, hr, hopen⟩ := h.schema stream hs'
    have hne : stream.owner ≠ id := fun he => hother (by rw [hs', Option.map_some, he])
    rw [hs', Option.map_some, framesAfter_of_ne hne]
    exact ⟨r, by rw [hrec, if_neg hne]; exact hr, hopen⟩
  · obtain ⟨howner, hopen⟩ := hstream stream hv
    exact ⟨r', by rw [hrec, if_pos howner], hopen⟩
  · have ha' : p.schemaStream = some a := ha
    refine hother ?_
    rw [ha', Option.map_some, he, (hstream b hb).1]

end Keep

end BleGateway.Settings
