import BleGateway.Settings.Completeness
import BleGateway.Settings.FrameSteps

/-! # One frame after the other

Each handler keeps the open streams in order and commits only what is complete; hence every
commit of a run whose streams stay apart is complete. The two streams of a device that are open
together spoil each other's counts.
-/

namespace BleGateway.Settings

open Protocol

/-- The streams are in order after a frame, and what the handler committed is complete. -/
structure After (p : Protocol) (sf vf : List Message) (id : DeviceId) (msg : Message)
    (res : Protocol × List Effect) : Prop where
  streams : Open res.1 (framesAfter (p.schemaStream.map (·.owner)) sf id msg)
    (framesAfter (p.valuesStream.map (·.owner)) vf id msg)
  complete : ∀ c ∈ res.2.filterMap (Effect.commit? res.1
    (framesAfter (p.schemaStream.map (·.owner)) sf id msg)
    (framesAfter (p.valuesStream.map (·.owner)) vf id msg)), c.Complete

section Frames

variable {p : Protocol} {sf vf : List Message} {id : DeviceId} {i : Rx} {msg : Message}

theorem after_ignore (h : Open p sf vf)
    (hitem : msg.type = .settingsItem → p.schemaStream.map (·.owner) ≠ some id) :
    After p sf vf id msg (p, []) :=
  ⟨h.ignore hitem, fun c hc => absurd hc (by simp)⟩

variable {stream : SchemaStream} {r : DeviceRecord}

theorem Open.values_ne (h : Open p sf vf) (hs : p.schemaStream = some stream)
    (howner : stream.owner = id) :
    p.valuesStream.map (·.owner) ≠ some id := by
  intro hv
  obtain ⟨b, hb, hid⟩ := Option.map_eq_some_iff.mp hv
  exact h.apart stream b hs hb (howner.trans hid.symm)

theorem Open.schema_ne (h : Open p sf vf) {stream : ValuesStream}
    (hv : p.valuesStream = some stream) (howner : stream.owner = id) :
    p.schemaStream.map (·.owner) ≠ some id := by
  intro hs
  obtain ⟨a, ha, hid⟩ := Option.map_eq_some_iff.mp hs
  exact h.apart a stream ha hv (hid.trans howner.symm)

/-- The open schema stream of a device and the record that its frames find. -/
theorem Open.schemaOpen (h : Open p sf vf) (hi : p.findRecord id = some i)
    (hs : p.schemaStream = some stream) (howner : stream.owner = id) :
    SchemaOpen (p.records i) stream.builder sf := by
  obtain ⟨r, hr, hopen⟩ := h.schema stream hs
  rw [howner, recordOf_of_find hi] at hr
  cases hr
  exact hopen

theorem Open.valuesOpen (h : Open p sf vf) (hi : p.findRecord id = some i) {stream : ValuesStream}
    (hv : p.valuesStream = some stream) (howner : stream.owner = id) :
    ValuesOpen (p.records i) stream.builder vf := by
  obtain ⟨r, hr, hopen⟩ := h.values stream hv
  rw [howner, recordOf_of_find hi] at hr
  cases hr
  exact hopen

/-- The record that a device gets anew is none that a stream has. -/
theorem findOrCreateRecord_open (h : Open p sf vf) {p' : Protocol} {i : Rx}
    (hrec : p.findOrCreateRecord id = some (p', i)) : Open p' sf vf := by
  obtain ⟨hd, hi, hs, hv, hothers, hown⟩ := findOrCreateRecord_spec h.distinct hrec
  have hkeep : ∀ {id' r}, p.recordOf id' = some r → p'.recordOf id' = p.recordOf id' := by
    intro id' r hr
    by_cases he : id' = id
    · subst he
      rcases hown with hsome | hnone
      · rw [hsome]
        exact recordOf_of_find hi
      · exact absurd (hnone.symm.trans hr) (by simp)
    · exact hothers id' he
  refine h.elsewhere hd (fun stream hst => ?_) fun stream hst => ?_
  · obtain ⟨r, hr, _⟩ := h.schema stream (hs.symm.trans hst)
    exact ⟨hs.symm.trans hst, hkeep hr⟩
  · obtain ⟨r, hr, _⟩ := h.values stream (hv.symm.trans hst)
    exact ⟨hv.symm.trans hst, hkeep hr⟩

/-! ## What a frame adds to an open stream -/

theorem SchemaOpen.item {stream' : SchemaStream} (h : SchemaOpen r stream.builder sf)
    (hmsg : msg.type = .settingsItem) (hacc : acceptItem r stream msg = some stream') :
    SchemaOpen { r with stagingReceivedCount := r.stagingReceivedCount + 1 } stream'.builder
      (sf ++ [msg]) := by
  obtain ⟨_, hseq, -, hext, settingId, desc, _, hnew, hdesc, hread, hitem⟩ :=
    acceptItem_spec h.built.empty hacc
  rw [h.received] at hseq hnew
  rw [List.take_length] at hnew
  have hcount : r.stagingReceivedCount + 1 = stream'.builder.descriptors.length := by
    rw [hdesc, List.length_append, List.length_singleton, h.received]
  exact ⟨h.active, h.announced.append msg, hcount,
    h.built.item hmsg hseq hext hnew hdesc hread hitem⟩

theorem SchemaOpen.option {stream' : SchemaStream} (h : SchemaOpen r stream.builder sf)
    (hmsg : msg.type = .settingsOptionItem) (hacc : acceptOption r stream msg = some stream') :
    SchemaOpen r stream'.builder (sf ++ [msg]) := by
  obtain ⟨-, hext, hdesc⟩ := acceptOption_spec hacc
  have hnot : msg.type ≠ .settingsItem := by rw [hmsg]; simp
  have hlen := congrArg List.length hdesc
  rw [List.length_map, List.length_map] at hlen
  exact ⟨h.active, h.announced.append msg, h.received.trans hlen.symm,
    (h.built.other hnot).option hext hdesc⟩

theorem ValuesOpen.value {stream stream' : ValuesStream} (h : ValuesOpen r stream.builder vf)
    (hacc : acceptValue r stream msg = some stream') :
    ValuesOpen { r with stagingReceivedCount := r.stagingReceivedCount + 1 } stream'.builder
      (vf ++ [msg]) := by
  obtain ⟨_, -, hext, committed, d, entry, settingId, hschema, hmem, hid, htype, hread,
    hentries⟩ := acceptValue_spec hacc
  have hcount : r.stagingReceivedCount + 1 = stream'.builder.entries.length := by
    rw [hentries, List.length_append, List.length_singleton, h.received]
  refine ⟨h.active, h.announced.append msg, hcount, fun v hv => ?_⟩
  rw [hentries] at hv
  rcases List.mem_append.mp hv with hold | hnew
  · obtain ⟨committed', d', hs', hd', hr', ht'⟩ := h.belongs v hold
    exact ⟨committed', d', hs', hd', hr'.extends hext, ht'⟩
  · obtain rfl := List.mem_singleton.mp hnew
    exact ⟨committed, d, hschema, hmem, hid ▸ hread, htype⟩

/-- What a schema stream has built is a complete commit, when all items are there. -/
theorem SchemaOpen.complete {b : SchemaBuilder} (h : SchemaOpen r b sf)
    (hall : r.stagingReceivedCount = r.stagingExpectedCount) :
    (Commit.schema sf b.commit).Complete := by
  refine ⟨?_, h.built.count, fun i m d hm hd => ?_, h.built.distinct⟩
  · have hcount : r.stagingExpectedCount = b.commit.settingCount := hall.symm.trans h.received
    exact hcount ▸ h.announced
  · obtain ⟨hseq, hdesc⟩ := h.built.described i m d hm hd
    exact ⟨hseq, hdesc.mono fun _ _ hr => hr.get⟩

/-- What a values stream has built is a complete commit, when all entries are there. -/
theorem ValuesOpen.complete {b : ValuesBuilder} (h : ValuesOpen r b vf)
    (hall : r.stagingReceivedCount = r.stagingExpectedCount) :
    (Commit.values vf b.commit r.schema).Complete := by
  refine ⟨?_, fun v hv => ?_⟩
  · have hcount : r.stagingExpectedCount = b.commit.valueCount := hall.symm.trans h.received
    exact hcount ▸ h.announced
  · obtain ⟨committed, d, hschema, hmem, hread, htype⟩ := h.belongs v hv
    exact ⟨committed, d, hschema, hmem, hread.get.symm, htype⟩

/-- The schema of a device whose record has been written. -/
theorem committedSchema (p' : Protocol) (hi : p.findRecord id = some i)
    (hp : p'.records = (p.setRecord i r).records) (hused : r.used = true) (hid : r.deviceId = id) :
    (p'.recordOf id).bind (·.schema) = r.schema := by
  rw [recordOf_congr hp, recordOf_setRecord hi hid hused, if_pos rfl, Option.bind_some]

/-! ## Frames -/

/-- **One frame** keeps the streams in order and commits only what is complete. -/
theorem onNotify_after (h : Open p sf vf) (alloc locked : Bool)
    (hschema : OpensSchema p id msg alloc → p.valuesStream.map (·.owner) ≠ some id)
    (hvalues : OpensValues p id msg alloc → p.schemaStream.map (·.owner) ≠ some id) :
    After p sf vf id msg (p.onNotify id msg alloc locked) := by
  have hstep := onNotify_step p id msg alloc locked
  generalize p.onNotify id msg alloc locked = res at hstep ⊢
  cases hstep with
  | skipped apart =>
      refine after_ignore h fun hitem howner => ?_
      obtain ⟨stream, hs, rfl⟩ := Option.map_eq_some_iff.mp howner
      obtain ⟨r, hr, hopen⟩ := h.schema stream hs
      obtain ⟨i, hi, hri⟩ := find_of_recordOf hr
      exact apart (.inl hitem) i stream ⟨hi, hs, rfl, by rw [hri]; exact hopen.active⟩
  | @schemaOpened p₁ i _ _ total opens record announced =>
      -- a stream with nothing in it
      obtain ⟨_, hi, -, hv₁, -⟩ := findOrCreateRecord_spec h.distinct record
      obtain ⟨_, hu, hkey⟩ := findRecord_spec hi
      refine ⟨?_, fun c hc => absurd hc (by simp [Effect.commit?])⟩
      rw [Option.isNone_iff_eq_none.mp opens.2.2.2.2.2.1, ← hv₁]
      refine (findOrCreateRecord_open h record).schemaStep hi (by rw [hv₁]; exact hschema opens)
        (by exact hu) (by exact hkey) fun stream hst => ?_
      cases hst
      exact ⟨rfl, rfl, ⟨msg, [], total, rfl, opens.1, announced, rfl⟩, rfl, Built.start _ opens.1⟩
  | refused type _ record =>
      obtain ⟨_, hi, hs₁, hv₁, -⟩ := findOrCreateRecord_spec h.distinct record
      refine ⟨?_, fun c hc => absurd hc (by simp [Effect.commit?])⟩
      rw [← hs₁, ← hv₁]
      exact ((findOrCreateRecord_open h record).ignore fun hitem => by
        cases type.symm.trans hitem).touch hi rfl
  | schemaRejected inside =>
      obtain ⟨_, hu, hkey⟩ := findRecord_spec inside.found
      exact ⟨h.schemaStep inside.found (h.values_ne inside.opened inside.owner) (by exact hu)
        (by exact hkey) fun _ hnone => absurd hnone (by simp),
        fun c hc => absurd hc (by simp [Effect.commit?])⟩
  | item inside type accepts =>
      have hopen := h.schemaOpen inside.found inside.opened inside.owner
      obtain ⟨_, hu, hkey⟩ := findRecord_spec inside.found
      refine ⟨h.schemaStep inside.found (h.values_ne inside.opened inside.owner) (by exact hu)
        (by exact hkey) fun st hst => ?_, fun c hc => absurd hc (by simp)⟩
      cases hst
      rw [inside.opened, Option.map_some, inside.owner, framesAfter_self]
      exact ⟨(acceptItem_spec hopen.built.empty accepts).2.2.1.trans inside.owner,
        hopen.item type accepts⟩
  | @option i _ stream' inside type accepts =>
      have hopen := h.schemaOpen inside.found inside.opened inside.owner
      obtain ⟨_, hu, hkey⟩ := findRecord_spec inside.found
      have hstep : Open { p.setRecord i (p.records i) with schemaStream := some stream' }
          (sf ++ [msg]) (framesAfter (p.valuesStream.map (·.owner)) vf id msg) :=
        h.schemaStep inside.found (h.values_ne inside.opened inside.owner) hu hkey fun st hst => by
          cases hst
          exact ⟨(acceptOption_spec accepts).1.trans inside.owner, hopen.option type accepts⟩
      refine ⟨?_, fun c hc => absurd hc (by simp)⟩
      rw [Protocol.setRecord, Function.update_eq_self] at hstep
      rw [inside.opened, Option.map_some, inside.owner, framesAfter_self]
      exact hstep
  | schemaCommitted inside type all =>
      have hopen := h.schemaOpen inside.found inside.opened inside.owner
      obtain ⟨_, hu, hkey⟩ := findRecord_spec inside.found
      refine ⟨h.schemaStep inside.found (h.values_ne inside.opened inside.owner) (by exact hu)
        (by exact hkey) fun _ hst => absurd hst (by simp), fun c hc => ?_⟩
      rw [inside.opened, Option.map_some, inside.owner, framesAfter_self] at hc
      obtain rfl : c = _ := by simpa [Effect.commit?] using hc
      have hnot : msg.type ≠ .settingsItem := by rw [type]; simp
      exact (SchemaOpen.mk hopen.active (hopen.announced.append msg) hopen.received
        (hopen.built.other hnot)).complete all
  | @valuesOpened i _ _ total opens found announced =>
      obtain ⟨_, hu, hkey⟩ := findRecord_spec found
      refine ⟨?_, fun c hc => absurd hc (by simp [Effect.commit?])⟩
      rw [Option.isNone_iff_eq_none.mp opens.2.2.2.2.1]
      refine h.valuesStep found (hvalues opens) (by exact hu) (by exact hkey) fun stream hst => ?_
      cases hst
      exact ⟨rfl, rfl, ⟨msg, [], total, rfl, opens.1, announced, rfl⟩, rfl,
        fun v hmem => absurd hmem (by simp [ValuesBuilder.init])⟩
  | valuesRejected inside =>
      obtain ⟨_, hu, hkey⟩ := findRecord_spec inside.found
      exact ⟨h.valuesStep inside.found (h.schema_ne inside.opened inside.owner) (by exact hu)
        (by exact hkey) fun _ hnone => absurd hnone (by simp),
        fun c hc => absurd hc (by simp [Effect.commit?])⟩
  | value inside _ accepts =>
      have hopen := h.valuesOpen inside.found inside.opened inside.owner
      obtain ⟨_, hu, hkey⟩ := findRecord_spec inside.found
      refine ⟨h.valuesStep inside.found (h.schema_ne inside.opened inside.owner) (by exact hu)
        (by exact hkey) fun st hst => ?_, fun c hc => absurd hc (by simp)⟩
      cases hst
      rw [inside.opened, Option.map_some, inside.owner, framesAfter_self]
      exact ⟨(acceptValue_spec accepts).2.1.trans inside.owner, hopen.value accepts⟩
  | @valuesCommitted i stream inside type all =>
      have hopen := h.valuesOpen inside.found inside.opened inside.owner
      obtain ⟨_, hu, hkey⟩ := findRecord_spec inside.found
      refine ⟨h.valuesStep inside.found (h.schema_ne inside.opened inside.owner) (by exact hu)
        (by exact hkey) fun _ hst => absurd hst (by simp), fun c hc => ?_⟩
      rw [inside.opened, Option.map_some, inside.owner, framesAfter_self] at hc
      have hc' : c = .values (vf ++ [msg]) stream.builder.commit (p.records i).schema := by
        rw [← committedSchema { p.setRecord i { p.records i with
          values := some stream.builder.commit
          configRev := stream.builder.commit.configRevision
          valuesStreamActive := false } with valuesStream := none } inside.found rfl
          (by exact hu) (by exact hkey)]
        cases hpend : (p.records i).pendingReconciliation with
        | true | false => simpa [Effect.commit?, hpend] using hc
      rw [hc']
      exact (ValuesOpen.mk hopen.active (hopen.announced.append msg) hopen.received
        hopen.belongs).complete all

end Frames

/-! ## The other events -/

section Events

variable {p : Protocol} {sf vf : List Message} {id : DeviceId}

theorem filter_owner {α : Type} {owner : α → DeviceId} {o : Option α} {a : α}
    (h : o.filter (fun stream => decide (owner stream ≠ id)) = some a) :
    o = some a ∧ owner a ≠ id := by
  obtain ⟨ho, hne⟩ := Option.filter_eq_some_iff.mp h
  exact ⟨ho, of_decide_eq_true hne⟩

/-- A disconnect leaves streams of other devices only, and their records. -/
theorem onDisconnect_spec (h : Open p sf vf) (hid : id.text ≠ []) (locked : Bool) :
    let q := (p.onDisconnect id locked).1
    q.Distinct ∧ (∀ id', id' ≠ id → q.recordOf id' = p.recordOf id') ∧
      (∀ stream, q.schemaStream = some stream →
        p.schemaStream = some stream ∧ stream.owner ≠ id) ∧
      ∀ stream, q.valuesStream = some stream →
        p.valuesStream = some stream ∧ stream.owner ≠ id := by
  have hdiscard : (p.discardStreams id).records = p.records := rfl
  have hrec : ∀ id', (p.discardStreams id).recordOf id' = p.recordOf id' :=
    fun id' => recordOf_congr hdiscard id'
  rw [onDisconnect, if_neg hid]
  cases locked with
  | false =>
      exact ⟨h.distinct, fun id' _ => hrec id', fun stream hs => filter_owner hs,
        fun stream hv => filter_owner hv⟩
  | true =>
      cases hi : (p.discardStreams id).findRecord id with
      | none =>
          simp only [Bool.not_true, Bool.false_eq_true, if_false, hi]
          exact ⟨h.distinct, fun id' _ => hrec id', fun stream hs => filter_owner hs,
            fun stream hv => filter_owner hv⟩
      | some i =>
          obtain ⟨_, hu, hkey⟩ := findRecord_spec hi
          have hd : (p.discardStreams id).Distinct := h.distinct
          simp only [Bool.not_true, Bool.false_eq_true, if_false, hi]
          refine ⟨Distinct.setRecord hi (by exact hkey) hd, fun id' hne => ?_,
            fun stream hs => filter_owner hs, fun stream hv => filter_owner hv⟩
          rw [recordOf_setRecord hi (by exact hkey) (by exact hu), if_neg hne, hrec]

theorem onDisconnect_open (h : Open p sf vf) (id : DeviceId) (locked : Bool) :
    Open (p.onDisconnect id locked).1 sf vf := by
  by_cases hid : id.text = []
  · rw [onDisconnect, if_pos hid]
    exact h
  · obtain ⟨hd, hrec, hs, hv⟩ := onDisconnect_spec h hid locked
    exact h.elsewhere hd (fun stream hst => ⟨(hs stream hst).1, hrec _ (hs stream hst).2⟩)
      fun stream hst => ⟨(hv stream hst).1, hrec _ (hv stream hst).2⟩

theorem forget_open (h : Open p sf vf) (id : DeviceId) (locked relocked : Bool) :
    Open (p.forget id locked relocked).1 sf vf := by
  by_cases hid : id.text = []
  · rw [forget, if_pos hid]
    exact h
  · obtain ⟨hd, hrec, hs, hv⟩ := onDisconnect_spec h hid locked
    have hopen := onDisconnect_open h id locked
    rw [forget, if_neg hid]
    cases relocked with
    | false => exact hopen
    | true =>
        cases hi : (p.onDisconnect id locked).1.findRecord id with
        | none =>
            simp only [Bool.not_true, Bool.false_eq_true, if_false, hi]
            exact hopen
        | some i =>
            obtain ⟨_, _, hkey⟩ := findRecord_spec hi
            simp only [Bool.not_true, Bool.false_eq_true, if_false, hi]
            -- the streams that are left are of other devices
            have hothers : ∀ id', id' ≠ id →
                ((p.onDisconnect id locked).1.setRecord i {}).recordOf id' = p.recordOf id' :=
              fun id' hne => (recordOf_setRecord_ne (fun _ => hkey)
                (fun hu => absurd hu (by simp)) hne).trans (hrec id' hne)
            exact h.elsewhere (recordOf_clear hd hi).1
              (fun stream hst => ⟨(hs stream hst).1, hothers _ (hs stream hst).2⟩)
              fun stream hst => ⟨(hv stream hst).1, hothers _ (hv stream hst).2⟩

theorem onCapability_open (h : Open p sf vf) (id : DeviceId) (supported : Bool)
    (schemaRevision : UInt16) (locked : Bool) :
    Open (p.onCapability id supported schemaRevision locked).1 sf vf := by
  rw [onCapability]
  split
  · exact h
  · cases hrec : p.findOrCreateRecord id with
    | none => exact h
    | some found =>
        obtain ⟨p', i⟩ := found
        have hi := (findOrCreateRecord_spec h.distinct hrec).2.1
        have hopen := findOrCreateRecord_open h hrec
        cases supported with
        | true | false => exact hopen.touch hi rfl

theorem setReconciliation_open (h : Open p sf vf) (id : DeviceId) (pending : Bool)
    (expectedRev oldRev : UInt32) :
    Open (p.setReconciliation id pending expectedRev oldRev) sf vf := by
  rw [setReconciliation]
  cases hi : p.findRecord id with
  | none => exact h
  | some i => exact h.touch hi rfl

end Events

/-! ## Runs -/

/-- The open streams are in order and what has been committed is complete. -/
structure StreamsInv (σ : Streams) : Prop where
  streams : Open σ.protocol σ.schemaFrames σ.valuesFrames
  complete : ∀ c ∈ σ.commits, c.Complete

theorem streamsInv_init : StreamsInv {} where
  streams :=
    { distinct := fun _ _ hi => absurd hi (by simp)
      schema := fun _ hs => absurd hs (by simp)
      values := fun _ hv => absurd hv (by simp)
      apart := fun _ _ ha => absurd ha (by simp) }
  complete := fun _ hc => absurd hc (by simp)

/-- **One step** keeps the streams in order and the commits complete, if it keeps the two
streams of every device apart. -/
theorem step_streamsInv {σ σ' : Streams} {l : Label} (h : StreamsInv σ) (hok : StreamsApart σ l)
    (hstep : σ.step l = some σ') : StreamsInv σ' := by
  cases l with
  | notify id msg alloc locked =>
      cases hstep
      obtain ⟨hopen, hcomplete⟩ := onNotify_after h.streams alloc locked hok.1 hok.2
      refine ⟨hopen, fun c hc => ?_⟩
      rcases List.mem_append.mp hc with hold | hnew
      · exact h.complete c hold
      · exact hcomplete c hnew
  | disconnect id locked =>
      cases hstep
      exact ⟨onDisconnect_open h.streams id locked, h.complete⟩
  | forget id locked relocked =>
      cases hstep
      exact ⟨forget_open h.streams id locked relocked, h.complete⟩
  | capability id supported schemaRevision locked =>
      cases hstep
      exact ⟨onCapability_open h.streams id supported schemaRevision locked, h.complete⟩
  | reconciliation id pending expectedRev oldRev =>
      cases hstep
      exact ⟨setReconciliation_open h.streams id pending expectedRev oldRev, h.complete⟩

/-- **Complete commits.** In every run in which no device opens a stream while its other stream
is open, every committed schema and every committed snapshot of values is complete. -/
theorem commits_complete {σ : Streams} (hσ : Streams.machine.ReachableWhen StreamsApart σ) :
    ∀ c ∈ σ.commits, c.Complete :=
  (hσ.invariant (fun _ h => h ▸ streamsInv_init)
    fun _ _ _ h hok hstep => step_streamsInv h hok hstep).complete

/-! ## A device with both streams open -/

def lamp : DeviceId := strlcpy _ [1]

def settingId (c : UInt8) (hc : (0 : UInt8) ∉ [c]) : Text GW_SETTINGS_CBOR_MAX_ID_LEN :=
  ⟨⟨[c], by show 1 < 32; decide⟩, hc⟩

def beginFrame (total : UInt16) : Message :=
  { type := .settingsBegin
    command := strlcpy _ GW_SETTINGS_CMD_DESCRIBE_SETTINGS
    requestId := some 7
    total := some total }

def itemFrame (id : Text GW_SETTINGS_CBOR_MAX_ID_LEN) (sequence total : UInt16) : Message :=
  { type := .settingsItem
    requestId := some 7
    total := some total
    settingsSequence := some sequence
    settingId := some id
    settingType := some DS_TYPE_BOOL }

def endFrame (total : UInt16) : Message :=
  { type := .settingsEnd, requestId := some 7, total := some total }

def valuesBeginFrame (total : UInt16) : Message :=
  { type := .valuesBegin
    requestId := some 8
    total := some total
    capabilityRevision := some 1 }

def valueFrame (id : Text GW_SETTINGS_CBOR_MAX_ID_LEN) (sequence : UInt16) : Message :=
  { type := .valuesValue
    requestId := some 8
    settingsSequence := some sequence
    settingId := some id
    settingType := some DS_TYPE_BOOL
    settingValue := some (.bool true) }

def valuesEndFrame (total : UInt16) : Message :=
  { type := .valuesEnd
    requestId := some 8
    total := some total
    capabilityRevision := some 1 }

/-- A frame of the lamp, with memory and mutex at hand. -/
def frame (msg : Message) : Label := .notify lamp msg true true

/-- The lamp describes its two settings. -/
def describeRun : List Label :=
  [frame (beginFrame 2), frame (itemFrame (settingId 97 (by decide)) 0 2),
    frame (itemFrame (settingId 98 (by decide)) 1 2), frame (endFrame 2)]

theorem commits_complete_describeRun :
    ∃ σ : Streams, σ.commits.length = 1 ∧ ∀ c ∈ σ.commits, c.Complete := by
  have hrun : ((Streams.machine.runWhen StreamsApart {} describeRun).map fun σ =>
      decide (σ.commits.length = 1)) = some true := by
    decide +kernel
  obtain ⟨σ, hσ, hp⟩ := Machine.exists_reachableWhen_of_run rfl hrun
  exact ⟨σ, of_decide_eq_true hp, commits_complete hσ⟩

/-- It announces two values, begins to describe one setting, and ends the values after one. -/
def mixedRun : List Label :=
  describeRun ++
    [frame (valuesBeginFrame 2), frame (beginFrame 1),
      frame (valueFrame (settingId 97 (by decide)) 0), frame (valuesEndFrame 1)]

/-- One value where two were announced. -/
def Commit.isHalf : Commit → Bool
  | .values (opening :: _) snapshot _ =>
      decide (opening.total = some 2 ∧ snapshot.valueCount = 1)
  | .values [] _ _ => false
  | .schema _ _ => false

/-- One value is committed where two were announced. -/
theorem half_of_the_values :
    ∃ σ, Streams.machine.Reachable σ ∧ ∃ c ∈ σ.commits, ¬c.Complete := by
  have hrun : ((Streams.machine.run {} mixedRun).map fun σ => σ.commits.any Commit.isHalf) =
      some true := by
    decide +kernel
  obtain ⟨σ, hσ, hp⟩ := Machine.exists_reachable_of_run rfl hrun
  obtain ⟨c, hc, hcount⟩ := List.any_eq_true.mp hp
  refine ⟨σ, hσ, c, hc, fun hcomplete => ?_⟩
  cases c with
  | schema frames snapshot => exact absurd hcount (by simp [Commit.isHalf])
  | values frames snapshot schema =>
      obtain ⟨⟨opening, rest, total, rfl, _, htotal, hn⟩, _⟩ := hcomplete
      obtain ⟨htwo, hone⟩ := of_decide_eq_true hcount
      obtain rfl := Option.some.inj (htotal.symm.trans htwo)
      exact absurd (hn.trans hone) (by decide)

end BleGateway.Settings
