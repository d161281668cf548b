import BleGateway.Settings.Streams

/-! # What a frame can do

`FrameStep` says what `device_settings_on_notify` does: a frame is skipped, opens a stream, goes on
with the open stream of its device, rejects it or commits it. What the streams keep is proved by
cases on it, never by unfolding a handler.
-/

namespace BleGateway.Settings

/-- The type of a begin frame. -/
def MsgType.begins : MsgType → Bool
  | .settingsBegin | .valuesBegin => true
  | _ => false

namespace Protocol

/-- The device finds its record, marked for the open schema stream. -/
structure InSchema (p : Protocol) (id : DeviceId) (i : Rx) (stream : SchemaStream) : Prop where
  found : p.findRecord id = some i
  opened : p.schemaStream = some stream
  owner : stream.owner = id
  active : (p.records i).schemaStreamActive = true

structure InValues (p : Protocol) (id : DeviceId) (i : Rx) (stream : ValuesStream) : Prop where
  found : p.findRecord id = some i
  opened : p.valuesStream = some stream
  owner : stream.owner = id
  active : (p.records i).valuesStreamActive = true

/-- What a frame leads to. -/
inductive FrameStep (p : Protocol) (id : DeviceId) (msg : Message) (alloc : Bool) :
    Protocol × List Effect → Prop
  | skipped (apart : msg.type = .settingsItem ∨ msg.type = .settingsOptionItem →
        ∀ i stream, ¬p.InSchema id i stream)
      (schema : ¬OpensSchema p id msg alloc) (values : ¬OpensValues p id msg alloc) :
      FrameStep p id msg alloc (p, [])
  | schemaOpened {p₁ : Protocol} {i : Rx} {revision requestId : UInt32} {total : UInt16}
      (opens : OpensSchema p id msg alloc) (record : p.findOrCreateRecord id = some (p₁, i))
      (announced : msg.total = some total) :
      FrameStep p id msg alloc
        ({ p₁.setRecord i { p₁.records i with
            schemaState := .discovering
            schemaStreamActive := true
            stagingExpectedCount := total.toNat
            stagingReceivedCount := 0 } with
          schemaStream := some { owner := id, builder := .init revision, requestId } },
          [.publishState id .discovering revision (p₁.records i).configRev])
  | refused {p₁ : Protocol} {i : Rx} (type : msg.type = .settingsBegin)
      (free : p.schemaStream = none) (record : p.findOrCreateRecord id = some (p₁, i))
      (schema : ¬OpensSchema p id msg alloc) :
      FrameStep p id msg alloc
        (p₁.setRecord i { p₁.records i with schemaState := (p₁.records i).settledState },
          [.publishState id .error (p₁.records i).schemaRev (p₁.records i).configRev])
  | schemaRejected {i : Rx} {stream : SchemaStream} (inside : p.InSchema id i stream)
      (type : msg.type.begins = false) :
      FrameStep p id msg alloc
        ({ p.setRecord i { p.records i with
            schemaStreamActive := false
            schemaState := (p.records i).settledState
            stagingExpectedCount := 0
            stagingReceivedCount := 0 } with schemaStream := none },
          [.publishState id .error (p.records i).schemaRev (p.records i).configRev])
  | item {i : Rx} {stream stream' : SchemaStream} (inside : p.InSchema id i stream)
      (type : msg.type = .settingsItem)
      (accepts : acceptItem (p.records i) stream msg = some stream') :
      FrameStep p id msg alloc
        ({ p.setRecord i { p.records i with
            stagingReceivedCount := (p.records i).stagingReceivedCount + 1 } with
          schemaStream := some stream' }, [])
  | option {i : Rx} {stream stream' : SchemaStream} (inside : p.InSchema id i stream)
      (type : msg.type = .settingsOptionItem)
      (accepts : acceptOption (p.records i) stream msg = some stream') :
      FrameStep p id msg alloc ({ p with schemaStream := some stream' }, [])
  | schemaCommitted {i : Rx} {stream : SchemaStream} (inside : p.InSchema id i stream)
      (type : msg.type = .settingsEnd)
      (all : (p.records i).stagingReceivedCount = (p.records i).stagingExpectedCount) :
      FrameStep p id msg alloc
        ({ p.setRecord i { p.records i with
            schema := some stream.builder.commit
            schemaRev := stream.builder.commit.schemaRevision
            schemaState := .ready
            schemaStreamActive := false } with schemaStream := none },
          [.commitSchema id stream.builder.commit,
            .publishState id .reading stream.builder.commit.schemaRevision
              (p.records i).configRev])
  | valuesOpened {i : Rx} {revision requestId : UInt32} {total : UInt16}
      (opens : OpensValues p id msg alloc) (found : p.findRecord id = some i)
      (announced : msg.total = some total) :
      FrameStep p id msg alloc
        ({ p.setRecord i { p.records i with
            valuesStreamActive := true
            stagingExpectedCount := total.toNat
            stagingReceivedCount := 0
            stagingSnapshotId := 0 } with
          valuesStream := some ⟨id, .init revision, requestId, revision⟩ },
          [.publishState id .reading (p.records i).schemaRev (p.records i).configRev])
  | valuesRejected {i : Rx} {stream : ValuesStream} (inside : p.InValues id i stream)
      (type : msg.type = .valuesValue ∨ msg.type = .valuesEnd) :
      FrameStep p id msg alloc
        ({ p.setRecord i { p.records i with
            valuesStreamActive := false
            stagingExpectedCount := 0
            stagingReceivedCount := 0 } with valuesStream := none },
          [.publishState id .error (p.records i).schemaRev (p.records i).configRev,
            .valuesComplete id false])
  | value {i : Rx} {stream stream' : ValuesStream} (inside : p.InValues id i stream)
      (type : msg.type = .valuesValue)
      (accepts : acceptValue (p.records i) stream msg = some stream') :
      FrameStep p id msg alloc
        ({ p.setRecord i { p.records i with
            stagingReceivedCount := (p.records i).stagingReceivedCount + 1 } with
          valuesStream := some stream' }, [])
  | valuesCommitted {i : Rx} {stream : ValuesStream} (inside : p.InValues id i stream)
      (type : msg.type = .valuesEnd)
      (all : (p.records i).stagingReceivedCount = (p.records i).stagingExpectedCount) :
      FrameStep p id msg alloc
        ({ p.setRecord i { p.records i with
            values := some stream.builder.commit
            configRev := stream.builder.commit.configRevision
            valuesStreamActive := false } with valuesStream := none },
          [.commitValues id stream.builder.commit, .valuesComplete id true] ++
            (if (p.records i).pendingReconciliation then [.reconcile id] else []) ++
            [.publishState id .ready (p.records i).schemaRev stream.builder.commit.configRevision,
              .publishChanged id stream.builder.commit.configRevision])

variable {p : Protocol} {id : DeviceId} {msg : Message} {alloc locked : Bool} {i : Rx}
  {res : Protocol × List Effect}

theorem not_opens (hmsg : msg.type.begins = false) :
    ¬OpensSchema p id msg alloc ∧ ¬OpensValues p id msg alloc := by
  constructor
  · intro h
    rw [h.1] at hmsg
    cases hmsg
  · intro h
    rw [h.1] at hmsg
    cases hmsg

/-! ## Schema frames -/

theorem schemaReject_step {stream : SchemaStream} (h : p.InSchema id i stream)
    (hmsg : msg.type.begins = false) : FrameStep p id msg alloc (p.schemaReject id i) := by
  rw [schemaReject, if_pos ⟨h.active, by rw [h.opened, Option.map_some, h.owner]⟩]
  exact .schemaRejected h hmsg

/-- A frame that ends in front of its checks. -/
theorem schemaFrameMatches_error (hmsg : msg.type.begins = false)
    (h : p.schemaFrameMatches id msg = .error res) : FrameStep p id msg alloc res := by
  have hskip (hnot : ∀ i stream, ¬p.InSchema id i stream) : FrameStep p id msg alloc (p, []) :=
    .skipped (fun _ => hnot) (not_opens hmsg).1 (not_opens hmsg).2
  rw [schemaFrameMatches] at h
  split at h
  · rename_i i stream hi hs
    have hself {j : Rx} {stream' : SchemaStream} (hin : p.InSchema id j stream') :
        j = i ∧ stream' = stream :=
      ⟨Option.some.inj (hin.found.symm.trans hi), Option.some.inj (hin.opened.symm.trans hs)⟩
    split_ifs at h with hactive howner hreq <;> obtain rfl := Except.error.inj h
    · refine hskip fun j stream' hin => ?_
      obtain ⟨rfl, -⟩ := hself hin
      simp [hin.active] at hactive
    · refine hskip fun j stream' hin => ?_
      obtain ⟨-, rfl⟩ := hself hin
      exact howner hin.owner
    · exact schemaReject_step ⟨hi, hs, not_not.mp howner, by simpa using hactive⟩ hmsg
  · rename_i hnone
    obtain rfl := Except.error.inj h
    exact hskip fun i stream hin => hnone i stream hin.found hin.opened

theorem schemaFrameMatches_ok {stream : SchemaStream}
    (h : p.schemaFrameMatches id msg = .ok (i, stream)) : p.InSchema id i stream := by
  rw [schemaFrameMatches] at h
  split at h
  · rename_i hi hs
    split_ifs at h with hactive howner hreq
    cases h
    exact ⟨hi, hs, not_not.mp howner, by simpa using hactive⟩
  · cases h

theorem handleBegin_step (hmsg : msg.type = .settingsBegin) :
    FrameStep p id msg alloc (p.handleBegin id msg alloc) := by
  have hvalues : ¬OpensValues p id msg alloc := fun h => by cases hmsg.symm.trans h.1
  have hskip (hnot : ¬OpensSchema p id msg alloc) : FrameStep p id msg alloc (p, []) :=
    .skipped (fun h => by simp [hmsg] at h) hnot hvalues
  rw [handleBegin]
  split
  · rename_i requestId total hreq htotal
    split
    · rename_i hform
      exact hskip fun h => hform.elim (fun hne => hne h.2.2.2.1) fun hne => hne h.2.2.2.2.1
    rename_i hform
    split
    · rename_i hroom
      refine hskip fun h => ?_
      have hfew := h.2.2.1
      simp only [htotal, Option.any_some, decide_eq_true_eq] at hfew
      omega
    rename_i hroom
    split
    · rename_i hbusy
      refine hskip fun h => ?_
      have hfree := h.2.2.2.2.2.1
      rw [Option.isNone_iff_eq_none] at hfree
      simp [hfree] at hbusy
    rename_i hfree
    have hfree : p.schemaStream = none := by simpa using hfree
    split
    · rename_i hrec
      refine hskip fun h => ?_
      have hsome := h.2.2.2.2.2.2.1
      rw [hrec] at hsome
      cases hsome
    · rename_i p₁ i hrec
      cases alloc with
      | true =>
          refine .schemaOpened ⟨hmsg, by rw [hreq]; rfl, ?_, ?_, ?_, by rw [hfree]; rfl,
            by rw [hrec]; rfl, rfl⟩ hrec htotal
          · rw [htotal]
            simpa using Nat.le_of_not_lt hroom
          · exact not_not.mp fun hne => hform (.inl hne)
          · exact not_not.mp fun hne => hform (.inr hne)
      | false => exact .refused hmsg hfree hrec fun h => by cases h.2.2.2.2.2.2.2
  · rename_i hnone
    refine hskip fun h => ?_
    obtain ⟨requestId, hreq⟩ := Option.isSome_iff_exists.mp h.2.1
    obtain ⟨total, htotal, -⟩ := (Option.any_eq_true ..).mp h.2.2.1
    exact hnone requestId total hreq htotal

theorem handleItem_step (hmsg : msg.type = .settingsItem) :
    FrameStep p id msg alloc (p.handleItem id msg) := by
  have hbegins : msg.type.begins = false := by rw [hmsg]; rfl
  rw [handleItem]
  split
  · rename_i hres
    exact schemaFrameMatches_error hbegins hres
  · rename_i i stream hok
    dsimp only
    split
    · exact schemaReject_step (schemaFrameMatches_ok hok) hbegins
    · rename_i hacc
      exact .item (schemaFrameMatches_ok hok) hmsg hacc

theorem handleOptionItem_step (hmsg : msg.type = .settingsOptionItem) :
    FrameStep p id msg alloc (p.handleOptionItem id msg) := by
  have hbegins : msg.type.begins = false := by rw [hmsg]; rfl
  rw [handleOptionItem]
  split
  · rename_i hres
    exact schemaFrameMatches_error hbegins hres
  · rename_i i stream hok
    split
    · exact schemaReject_step (schemaFrameMatches_ok hok) hbegins
    · rename_i hacc
      exact .option (schemaFrameMatches_ok hok) hmsg hacc

theorem handleEnd_step (hmsg : msg.type = .settingsEnd) :
    FrameStep p id msg alloc (p.handleEnd id msg alloc locked) := by
  have hbegins : msg.type.begins = false := by rw [hmsg]; rfl
  rw [handleEnd]
  split
  · rename_i hres
    exact schemaFrameMatches_error hbegins hres
  · rename_i i stream hok
    have hin := schemaFrameMatches_ok hok
    have hreject : FrameStep p id msg alloc (p.schemaReject id i) := schemaReject_step hin hbegins
    dsimp only
    split
    · exact hreject
    rename_i hcount
    split
    · exact hreject
    split
    · exact hreject
    split
    · exact hreject
    · exact .schemaCommitted hin hmsg (not_not.mp fun hne => hcount (.inr hne))

/-! ## Values frames -/

theorem valuesReject_step {stream : ValuesStream} (h : p.InValues id i stream)
    (hmsg : msg.type = .valuesValue ∨ msg.type = .valuesEnd) :
    FrameStep p id msg alloc (p.valuesReject id i) := by
  rw [valuesReject, if_pos ⟨h.active, by rw [h.opened, Option.map_some, h.owner]⟩]
  exact .valuesRejected h hmsg

theorem valuesFrameMatches_error (hmsg : msg.type = .valuesValue ∨ msg.type = .valuesEnd)
    (h : p.valuesFrameMatches id msg = .error res) : FrameStep p id msg alloc res := by
  have hbegins : msg.type.begins = false := by
    rcases hmsg with htype | htype <;> rw [htype] <;> rfl
  have hskip : FrameStep p id msg alloc (p, []) :=
    .skipped (fun hitem => by rcases hmsg with htype | htype <;> simp [htype] at hitem)
      (not_opens hbegins).1 (not_opens hbegins).2
  rw [valuesFrameMatches] at h
  split at h
  · rename_i hi hs
    split_ifs at h with hactive howner hreq <;> obtain rfl := Except.error.inj h
    · exact hskip
    · exact hskip
    · exact valuesReject_step ⟨hi, hs, not_not.mp howner, by simpa using hactive⟩ hmsg
  · obtain rfl := Except.error.inj h
    exact hskip

theorem valuesFrameMatches_ok {stream : ValuesStream}
    (h : p.valuesFrameMatches id msg = .ok (i, stream)) : p.InValues id i stream := by
  rw [valuesFrameMatches] at h
  split at h
  · rename_i hi hs
    split_ifs at h with hactive howner hreq
    cases h
    exact ⟨hi, hs, not_not.mp howner, by simpa using hactive⟩
  · cases h

theorem handleValuesBegin_step (hmsg : msg.type = .valuesBegin) :
    FrameStep p id msg alloc (p.handleValuesBegin id msg alloc) := by
  have hschema : ¬OpensSchema p id msg alloc := fun h => by cases hmsg.symm.trans h.1
  have hskip (hnot : ¬OpensValues p id msg alloc) : FrameStep p id msg alloc (p, []) :=
    .skipped (fun h => by simp [hmsg] at h) hschema hnot
  rw [handleValuesBegin]
  split
  · rename_i requestId total revision hreq htotal hrevision
    split
    · rename_i hversion
      exact hskip fun h => hversion h.2.2.2.1
    rename_i hversion
    split
    · rename_i hbusy
      refine hskip fun h => ?_
      have hfree := h.2.2.2.2.1
      rw [Option.isNone_iff_eq_none] at hfree
      simp [hfree] at hbusy
    rename_i hfree
    split
    · rename_i hi
      refine hskip fun h => ?_
      have hrecord := h.2.2.2.2.2.1
      simp [recordOf, hi] at hrecord
    rename_i i hi
    have hrecord (h : OpensValues p id msg alloc) := h.2.2.2.2.2.1
    simp only [recordOf, hi, Option.map_some, Option.any_some, htotal, Bool.and_eq_true,
      decide_eq_true_eq] at hrecord
    dsimp only
    split
    · rename_i hnone
      refine hskip fun h => ?_
      simpa [hnone] using (hrecord h).2
    rename_i schema hsome
    split
    · rename_i hstate
      exact hskip fun h => hstate (hrecord h).1
    rename_i hstate
    split
    · rename_i hroom
      refine hskip fun h => ?_
      have hfits := (hrecord h).2
      simp only [hsome, Option.any_some, decide_eq_true_eq] at hfits
      omega
    rename_i hroom
    split
    · rename_i halloc
      refine hskip fun h => ?_
      simp [h.2.2.2.2.2.2] at halloc
    · rename_i halloc
      refine .valuesOpened ⟨hmsg, by rw [hreq]; rfl, by rw [hrevision]; rfl, not_not.mp hversion,
        by simpa using hfree, ?_, by simpa using halloc⟩ hi htotal
      simpa [recordOf, hi, hsome, htotal, not_not.mp hstate] using Nat.le_of_not_lt hroom
  · rename_i hnone
    refine hskip fun h => ?_
    obtain ⟨requestId, hreq⟩ := Option.isSome_iff_exists.mp h.2.1
    obtain ⟨revision, hrevision⟩ := Option.isSome_iff_exists.mp h.2.2.1
    obtain ⟨r, -, hrecord⟩ := (Option.any_eq_true ..).mp h.2.2.2.2.2.1
    obtain ⟨-, hrecord⟩ := Bool.and_eq_true_iff.mp hrecord
    obtain ⟨schema, -, htotal⟩ := (Option.any_eq_true ..).mp hrecord
    obtain ⟨total, htotal, -⟩ := (Option.any_eq_true ..).mp htotal
    exact hnone requestId total revision hreq htotal hrevision

theorem handleValuesValue_step (hmsg : msg.type = .valuesValue) :
    FrameStep p id msg alloc (p.handleValuesValue id msg) := by
  rw [handleValuesValue]
  split
  · rename_i hres
    exact valuesFrameMatches_error (.inl hmsg) hres
  · rename_i i stream hok
    dsimp only
    split
    · exact valuesReject_step (valuesFrameMatches_ok hok) (.inl hmsg)
    · rename_i hacc
      exact .value (valuesFrameMatches_ok hok) hmsg hacc

theorem handleValuesEnd_step (hmsg : msg.type = .valuesEnd) :
    FrameStep p id msg alloc (p.handleValuesEnd id msg alloc locked) := by
  rw [handleValuesEnd]
  split
  · rename_i hres
    exact valuesFrameMatches_error (.inr hmsg) hres
  · rename_i i stream hok
    have hin := valuesFrameMatches_ok hok
    have hreject : FrameStep p id msg alloc (p.valuesReject id i) :=
      valuesReject_step hin (.inr hmsg)
    dsimp only
    split
    · split
      · exact hreject
      rename_i hcount
      split
      · exact hreject
      split
      · exact hreject
      split
      · exact hreject
      · exact .valuesCommitted hin hmsg (not_not.mp fun hne => hcount (.inr hne))
    · exact hreject

/-- **One frame.** -/
theorem onNotify_step (p : Protocol) (id : DeviceId) (msg : Message) (alloc locked : Bool) :
    FrameStep p id msg alloc (p.onNotify id msg alloc locked) := by
  rw [onNotify]
  cases hmsg : msg.type with
  | settingsBegin => exact handleBegin_step hmsg
  | settingsItem => exact handleItem_step hmsg
  | settingsOptionItem => exact handleOptionItem_step hmsg
  | settingsEnd => exact handleEnd_step hmsg
  | valuesBegin => exact handleValuesBegin_step hmsg
  | valuesValue => exact handleValuesValue_step hmsg
  | valuesEnd => exact handleValuesEnd_step hmsg
  | other =>
      have hbegins : msg.type.begins = false := by rw [hmsg]; rfl
      exact .skipped (fun h => by simp [hmsg] at h) (not_opens hbegins).1 (not_opens hbegins).2

end Protocol

end BleGateway.Settings
