import BleGateway.Settings.StreamSteps

/-! # Values streams, one after the other

A values stream as the list of its frames, delivered in order: if its end commits a snapshot,
every value was accepted, and the snapshot is what the values built.
-/

namespace BleGateway.Settings

open Protocol

/-! ## Streams as lists of frames -/

/-- A frame, and how the calls for memory and for the mutex go while it is handled. -/
structure Frame where
  msg : Message
  alloc : Bool := true
  locked : Bool := true

/-- Handle the frames of a device in order: the state and everything that was done. -/
def Protocol.deliver (p : Protocol) (id : DeviceId) : List Frame → Protocol × List Effect
  | [] => (p, [])
  | f :: fs =>
      let next := p.onNotify id f.msg f.alloc f.locked
      let rest := next.1.deliver id fs
      (rest.1, next.2 ++ rest.2)

/-! ## One stream -/

/-- The values of a stream, added one after the other. -/
def acceptValues (r : DeviceRecord) (stream : ValuesStream) : List Frame → Option ValuesStream
  | [] => some stream
  | f :: fs =>
      (acceptValue r stream f.msg).bind fun stream' =>
        acceptValues { r with stagingReceivedCount := r.stagingReceivedCount + 1 } stream' fs

variable {p : Protocol} {id : DeviceId} {msg : Message} {v : Values} {values : List Frame}

/-- The device has a values stream open. -/
def Receiving (p : Protocol) (id : DeviceId) (i : Rx) (stream : ValuesStream) : Prop :=
  p.findRecord id = some i ∧ p.valuesStream = some stream ∧
    (p.records i).valuesStreamActive = true ∧ stream.owner = id

theorem Protocol.InValues.receiving {i : Rx} {stream : ValuesStream} (h : p.InValues id i stream) :
    Receiving p id i stream := ⟨h.found, h.opened, h.active, h.owner⟩

/-- A reject of an open stream closes it. -/
theorem valuesReject_closes {i : Rx} {stream : ValuesStream} (h : Receiving p id i stream) :
    (p.valuesReject id i).1.valuesStream = none := by
  obtain ⟨_, hv, hactive, howner⟩ := h
  rw [Protocol.valuesReject, hv, if_pos ⟨hactive, by rw [Option.map_some, howner]⟩]

/-- A frame that does not match leaves the state or closes the stream. -/
theorem valuesFrame_error {res : Protocol × List Effect}
    (h : p.valuesFrameMatches id msg = .error res) :
    (res.1 = p ∧ ∀ i stream, ¬Receiving p id i stream) ∨ res.1.valuesStream = none := by
  rw [Protocol.valuesFrameMatches] at h
  split at h
  · rename_i j s hi hs
    have hself {i : Rx} {stream : ValuesStream} (hr : Receiving p id i stream) :
        i = j ∧ stream = s :=
      ⟨Option.some.inj (hr.1.symm.trans hi), Option.some.inj (hr.2.1.symm.trans hs)⟩
    split_ifs at h with hactive howner hreq <;> obtain rfl := Except.error.inj h
    · refine .inl ⟨rfl, fun i stream hr => ?_⟩
      obtain ⟨rfl, -⟩ := hself hr
      simp [hr.2.2.1] at hactive
    · refine .inl ⟨rfl, fun i stream hr => ?_⟩
      obtain ⟨-, rfl⟩ := hself hr
      exact howner hr.2.2.2
    · exact .inr (valuesReject_closes ⟨hi, hs, by simpa using hactive, not_not.mp howner⟩)
  · rename_i hnone
    obtain rfl := Except.error.inj h
    exact .inl ⟨rfl, fun i stream hr => hnone i stream hr.1 hr.2.1⟩

/-- What a frame does that commits nothing. -/
def Effect.isQuiet : Effect → Bool
  | .publishState _ _ _ _ => true
  | .valuesComplete _ success => !success
  | _ => false

/-- The record of a device when a values stream has been opened. -/
def DeviceRecord.openValues (r : DeviceRecord) (expected : Nat) : DeviceRecord :=
  { r with
    valuesStreamActive := true
    stagingExpectedCount := expected
    stagingReceivedCount := 0
    stagingSnapshotId := 0 }

/-- A begin is ignored, or opens an empty stream. -/
theorem handleValuesBegin_cases (p : Protocol) (id : DeviceId) (msg : Message) (alloc : Bool) :
    p.handleValuesBegin id msg alloc = (p, []) ∨
      ∃ i schema requestId revision expected, p.findRecord id = some i ∧
        (p.records i).schema = some schema ∧
        p.handleValuesBegin id msg alloc =
          ({ p.setRecord i ((p.records i).openValues expected) with
              valuesStream := some ⟨id, .init revision, requestId, revision⟩ },
            [.publishState id .reading (p.records i).schemaRev (p.records i).configRev]) := by
  rw [handleValuesBegin]
  split
  · split
    · exact Or.inl rfl
    split
    · exact Or.inl rfl
    split
    · exact Or.inl rfl
    · rename_i i hi
      dsimp only
      split
      · exact Or.inl rfl
      · rename_i schema hschema
        split
        · exact Or.inl rfl
        split
        · exact Or.inl rfl
        split
        · exact Or.inl rfl
        · exact Or.inr ⟨i, schema, _, _, _, hi, hschema, rfl⟩
  · exact Or.inl rfl

theorem handleValuesBegin_quiet (p : Protocol) (id : DeviceId) (msg : Message) (alloc : Bool) :
    ∀ e ∈ (p.handleValuesBegin id msg alloc).2, e.isQuiet = true := by
  rcases handleValuesBegin_cases p id msg alloc with hsame | ⟨_, _, _, _, _, _, _, hopen⟩
  · rw [hsame]
    simp
  · rw [hopen]
    simp [Effect.isQuiet]

/-- The record of a device when a snapshot has been committed. -/
def DeviceRecord.commitValues (r : DeviceRecord) (v : Values) : DeviceRecord :=
  { r with values := some v, configRev := v.configRevision, valuesStreamActive := false }

/-- An end that commits takes what the open stream has built. -/
theorem committed_of_end {alloc locked : Bool} (hmsg : msg.type = .valuesEnd)
    (h : .commitValues id v ∈ (p.handleValuesEnd id msg alloc locked).2) :
    ∃ i stream, Receiving p id i stream ∧ v = stream.builder.commit ∧
      (p.handleValuesEnd id msg alloc locked).1 =
        { p.setRecord i ((p.records i).commitValues v) with valuesStream := none } ∧
      (.reconcile id ∈ (p.handleValuesEnd id msg alloc locked).2 ↔
        (p.records i).pendingReconciliation = true) := by
  have hstep : FrameStep p id msg alloc (p.handleValuesEnd id msg alloc locked) :=
    handleValuesEnd_step hmsg
  generalize p.handleValuesEnd id msg alloc locked = res at hstep h ⊢
  cases hstep with
  | @valuesCommitted i stream inside _ _ =>
      have hv : v = stream.builder.commit := by
        by_cases hpending : (p.records i).pendingReconciliation = true <;>
          simpa [hpending] using h
      rw [hv]
      exact ⟨i, stream, inside.receiving, rfl, rfl, by simp⟩
  | _ => simp at h

/-- A value of the open stream is accepted, or the stream is closed. -/
theorem handleValuesValue_cases (p : Protocol) (id : DeviceId) (msg : Message) :
    (∃ i stream stream', Receiving p id i stream ∧
      acceptValue (p.records i) stream msg = some stream' ∧
      (p.handleValuesValue id msg).1 =
        { p.setRecord i { p.records i with
            stagingReceivedCount := (p.records i).stagingReceivedCount + 1 } with
          valuesStream := some stream' }) ∨
    ((p.handleValuesValue id msg).1 = p ∧ ∀ i stream, ¬Receiving p id i stream) ∨
    (p.handleValuesValue id msg).1.valuesStream = none := by
  rw [Protocol.handleValuesValue]
  cases hm : p.valuesFrameMatches id msg with
  | error res => exact Or.inr (valuesFrame_error hm)
  | ok found =>
      obtain ⟨i, stream⟩ := found
      have hr := (valuesFrameMatches_ok hm).receiving
      dsimp only
      cases hacc : acceptValue (p.records i) stream msg with
      | none => exact Or.inr (Or.inr (valuesReject_closes hr))
      | some stream' => exact Or.inl ⟨i, stream, stream', hr, hacc, rfl⟩

theorem handleValuesValue_quiet (hmsg : msg.type = .valuesValue) :
    ∀ e ∈ (p.handleValuesValue id msg).2, e.isQuiet = true := by
  have hstep : FrameStep p id msg true (p.handleValuesValue id msg) := handleValuesValue_step hmsg
  generalize p.handleValuesValue id msg = res at hstep ⊢
  cases hstep with
  | schemaCommitted _ htype _ | valuesCommitted _ htype _ => cases hmsg.symm.trans htype
  | _ => simp [Effect.isQuiet]

/-- **One stream.** When the end of a stream commits, all its values have been accepted, and the
snapshot is what they built. Of the record of the device only the count and what a commit
changes are new. -/
theorem committed_of_values {closing : Frame} (hvalues : ∀ f ∈ values, f.msg.type = .valuesValue)
    (hclosing : closing.msg.type = .valuesEnd)
    (h : .commitValues id v ∈ (p.deliver id (values ++ [closing])).2) :
    ∃ i stream stream' count, Receiving p id i stream ∧
      acceptValues (p.records i) stream values = some stream' ∧ v = stream'.builder.commit ∧
      (p.deliver id (values ++ [closing])).1.recordOf id =
        some ({ p.records i with stagingReceivedCount := count }.commitValues v) ∧
      (.reconcile id ∈ (p.deliver id (values ++ [closing])).2 ↔
        (p.records i).pendingReconciliation = true) := by
  induction values generalizing p with
  | nil =>
      have hlast : p.deliver id ([] ++ [closing]) =
          p.handleValuesEnd id closing.msg closing.alloc closing.locked := by
        simp [Protocol.deliver, Protocol.onNotify, hclosing]
      rw [hlast] at h ⊢
      obtain ⟨i, stream, hr, rfl, hstate, hrec⟩ := committed_of_end hclosing h
      obtain ⟨_, hu, hkey⟩ := findRecord_spec hr.1
      refine ⟨i, stream, stream, (p.records i).stagingReceivedCount, hr, rfl, rfl, ?_, hrec⟩
      rw [hstate]
      exact (recordOf_congr rfl id).trans ((recordOf_setRecord hr.1 (by exact hkey)
        (by exact hu) id).trans (if_pos rfl))
  | cons f fs ih =>
      have htype : f.msg.type = .valuesValue := hvalues f (List.mem_cons_self ..)
      have hquiet : ∀ e ∈ (p.handleValuesValue id f.msg).2, e.isQuiet = true :=
        handleValuesValue_quiet htype
      have hnext : p.deliver id (f :: fs ++ [closing]) =
          (((p.handleValuesValue id f.msg).1.deliver id (fs ++ [closing])).1,
            (p.handleValuesValue id f.msg).2 ++
              ((p.handleValuesValue id f.msg).1.deliver id (fs ++ [closing])).2) := by
        simp only [List.cons_append, Protocol.deliver, Protocol.onNotify, htype]
      rw [hnext, List.mem_append] at h
      have hrest := h.resolve_left fun hmem =>
        absurd (hquiet _ hmem) (by simp [Effect.isQuiet])
      obtain ⟨i, stream, stream', count, hr, hacc, hv, hrecord, hrec⟩ :=
        ih (fun g hg => hvalues g (List.mem_cons_of_mem f hg)) hrest
      rcases handleValuesValue_cases p id f.msg with
        ⟨j, s, s', hs, hval, hstate⟩ | ⟨hsame, hnot⟩ | hclosed
      · rw [hstate] at hr hacc hrecord hrec
        obtain ⟨hi, hstream, -, -⟩ := hr
        obtain ⟨_, hu, hkey⟩ := findRecord_spec hs.1
        obtain rfl : s' = stream := Option.some.inj hstream
        have hj : j = i := by
          have hfind := findRecord_setRecord hs.1 (r := { p.records j with
            stagingReceivedCount := (p.records j).stagingReceivedCount + 1 }) hkey hu id
          exact Option.some.inj (hs.1.symm.trans (hfind.symm.trans hi))
        subst hj
        have hj : (p.setRecord j { p.records j with
            stagingReceivedCount := (p.records j).stagingReceivedCount + 1 }).records j =
            { p.records j with
              stagingReceivedCount := (p.records j).stagingReceivedCount + 1 } :=
          Function.update_self ..
        refine ⟨j, s, stream', count, hs, ?_, hv, ?_, ?_⟩
        · rw [acceptValues, hval, Option.bind_some, ← hj]
          exact hacc
        · rw [hnext, hstate, hrecord]
          simp only [hj]
        · rw [hnext, hstate, List.mem_append]
          refine (or_iff_right fun hmem => ?_).trans (hrec.trans ?_)
          · exact absurd (hquiet _ hmem) (by simp [Effect.isQuiet])
          · simp only [hj]
      · rw [hsame] at hr
        exact absurd hr (hnot i stream)
      · exact absurd (hclosed.symm.trans hr.2.1) (by simp)

end BleGateway.Settings
