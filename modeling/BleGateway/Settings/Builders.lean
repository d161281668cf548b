import BleGateway.Lib.Ownership
import BleGateway.Settings.Accept
import BleGateway.Settings.FrameSteps

/-! # The owners of the builders

There is one schema builder and one values builder for all devices. Each is owned by the device
whose stream is open, under its id, and the record of that device carries a flag. The frames of a
stream, its rejects and its end keep the two in agreement; only a begin frame makes a device an
owner.
-/

namespace BleGateway.Settings

namespace Protocol

/-- `s_schema_owner`. -/
def schemaOwner (s : Protocol) : Option DeviceId := s.schemaStream.map (·.owner)

/-- `s_values_owner`. -/
def valuesOwner (s : Protocol) : Option DeviceId := s.valuesStream.map (·.owner)

/-- The device owns one of the builders. -/
def Owns (s : Protocol) (id : DeviceId) : Prop := s.schemaOwner = some id ∨ s.valuesOwner = some id

instance (s : Protocol) (id : DeviceId) : Decidable (s.Owns id) :=
  inferInstanceAs (Decidable (_ ∨ _))

/-- Each builder has an owner exactly when a record is marked for its stream, and that record is
the owner's. -/
structure Owned (s : Protocol) : Prop where
  distinct : s.Distinct
  schema : Ownership.Held DeviceRecord.used DeviceRecord.deviceId DeviceRecord.schemaStreamActive
    s.records s.schemaOwner
  values : Ownership.Held DeviceRecord.used DeviceRecord.deviceId DeviceRecord.valuesStreamActive
    s.records s.valuesOwner

variable {s s' : Protocol} {id : DeviceId} {i : Rx} {r : DeviceRecord} {msg : Message}

/-! ## Writes of one record -/

/-- The record of a device is written in place, with what that means for the builders. -/
theorem Owned.write (h : s.Owned) (hi : s.findRecord id = some i)
    (hrecords : s'.records = (s.setRecord i r).records) (hused : r.used = true)
    (hkey : r.deviceId = id)
    (hschema : Ownership.Turn id (s.records i).schemaStreamActive r.schemaStreamActive
      s.schemaOwner s'.schemaOwner)
    (hvalues : Ownership.Turn id (s.records i).valuesStreamActive r.valuesStreamActive
      s.valuesOwner s'.valuesOwner) : s'.Owned := by
  obtain ⟨-, hu, hk⟩ := findRecord_spec hi
  have hsame : r.deviceId = (s.records i).deviceId := hkey.trans hk.symm
  refine ⟨?_, ?_, ?_⟩
  · rw [Distinct, hrecords]
    exact h.distinct.setRecord hi hkey
  · rw [hrecords]
    exact h.schema.turn h.distinct hu hused hsame (hkey ▸ hschema)
  · rw [hrecords]
    exact h.values.turn h.distinct hu hused hsame (hkey ▸ hvalues)

/-- A new record owns nothing. -/
theorem Owned.findOrCreate (h : s.Owned) (hrec : s.findOrCreateRecord id = some (s', i)) :
    s'.Owned ∧ s'.findRecord id = some i ∧ s'.schemaOwner = s.schemaOwner ∧
      s'.valuesOwner = s.valuesOwner := by
  obtain ⟨hd, hi, hss, hvs, -, -⟩ := findOrCreateRecord_spec h.distinct hrec
  have hso : s'.schemaOwner = s.schemaOwner := by rw [schemaOwner, schemaOwner, hss]
  have hvo : s'.valuesOwner = s.valuesOwner := by rw [valuesOwner, valuesOwner, hvs]
  refine ⟨⟨hd, ?_, ?_⟩, hi, hso, hvo⟩
  all_goals
    rw [findOrCreateRecord] at hrec
    split at hrec
    · cases hrec
  all_goals
    split at hrec
    · obtain ⟨rfl, -⟩ := Prod.mk.inj (Option.some.inj hrec)
      first | exact h.schema | exact h.values
    · obtain ⟨j, hj, he⟩ := Option.map_eq_some_iff.mp hrec
      obtain ⟨rfl, -⟩ := Prod.mk.inj he
      have hfree : (s.records j).used = false := Directory.vacant_spec hj
      first
        | exact h.schema.update_other rfl fun hu => absurd (hfree.symm.trans hu) (by simp)
        | exact h.values.update_other rfl fun hu => absurd (hfree.symm.trans hu) (by simp)

/-! ## Frames -/

/-- The builders are in order and no device has become an owner. -/
structure Kept (s s' : Protocol) : Prop where
  owned : s'.Owned
  schema : ∀ k, s'.schemaOwner = some k → s.schemaOwner = some k
  values : ∀ k, s'.valuesOwner = some k → s.valuesOwner = some k

theorem Owned.kept (h : s.Owned) : Kept s s := ⟨h, fun _ hk => hk, fun _ hk => hk⟩

/-- A record is written and both builders stay with their owners. -/
theorem Owned.touch (h : s.Owned) (hi : s.findRecord id = some i)
    (hrecords : s'.records = (s.setRecord i r).records)
    (hused : r.used = (s.records i).used) (hkey : r.deviceId = (s.records i).deviceId)
    (hs : r.schemaStreamActive = (s.records i).schemaStreamActive)
    (hv : r.valuesStreamActive = (s.records i).valuesStreamActive)
    (hso : s'.schemaOwner = s.schemaOwner)
    (hvo : s'.valuesOwner = s.valuesOwner) : Kept s s' := by
  obtain ⟨-, hu, hk⟩ := findRecord_spec hi
  refine ⟨h.write hi hrecords (hused.trans hu) (hkey.trans hk) (.same hs hso) (.same hv hvo),
    fun k hk => hso ▸ hk, fun k hk => hvo ▸ hk⟩

theorem InSchema.owns {stream : SchemaStream} (h : s.InSchema id i stream) :
    s.schemaOwner = some id := by
  rw [schemaOwner, h.opened, Option.map_some, h.owner]

theorem InValues.owns {stream : ValuesStream} (h : s.InValues id i stream) :
    s.valuesOwner = some id := by
  rw [valuesOwner, h.opened, Option.map_some, h.owner]

theorem acceptItem_owner {stream stream' : SchemaStream}
    (h : acceptItem r stream msg = some stream') : stream'.owner = stream.owner := by
  simp only [acceptItem, Option.bind_eq_bind, Option.bind_eq_some_iff, Option.guard_eq_some',
    Option.pure_def, Option.some.injEq, exists_const, Prod.exists] at h
  obtain ⟨_, _, _, _, _, _, _, _, _, _, _, _, _, _, _, _, _, _, _, rfl⟩ := h
  rfl

theorem findOrCreate_kept {s₁ : Protocol} (h : s.Owned)
    (hrec : s.findOrCreateRecord id = some (s₁, i))
    (hkept : Kept s₁ s') : Kept s s' := by
  obtain ⟨-, -, hso, hvo⟩ := h.findOrCreate hrec
  exact ⟨hkept.owned, fun k hk => hso ▸ hkept.schema k hk, fun k hk => hvo ▸ hkept.values k hk⟩

theorem Kept.owns (h : Kept s s') {k : DeviceId} (hk : s'.Owns k) : s.Owns k :=
  hk.imp (h.schema k) (h.values k)

variable {alloc : Bool}

/-- A frame that opens no stream makes no device an owner. -/
theorem onNotify_kept (h : s.Owned) (hschema : ¬ OpensSchema s id msg alloc)
    (hvalues : ¬ OpensValues s id msg alloc) (locked : Bool) :
    Kept s (s.onNotify id msg alloc locked).1 := by
  have hstep := onNotify_step s id msg alloc locked
  generalize s.onNotify id msg alloc locked = res at hstep ⊢
  cases hstep with
  | skipped => exact h.kept
  | schemaOpened opens => exact absurd opens hschema
  | valuesOpened opens => exact absurd opens hvalues
  | refused _ _ record =>
      -- without memory the frame only settles the schema state
      obtain ⟨howned, hi, -, -⟩ := h.findOrCreate record
      exact findOrCreate_kept h record (howned.touch hi rfl rfl rfl rfl rfl rfl rfl)
  | schemaRejected inside =>
      obtain ⟨-, hu, hk⟩ := findRecord_spec inside.found
      refine ⟨h.write inside.found rfl hu hk (.give inside.owns rfl rfl) (.same rfl rfl),
        fun k hk => ?_, fun _ hk => hk⟩
      cases hk
  | item inside _ accepts =>
      refine h.touch inside.found rfl rfl rfl rfl rfl ?_ rfl
      rw [schemaOwner, schemaOwner, inside.opened]
      exact congrArg some (acceptItem_owner accepts)
  | @option i stream stream' inside _ accepts =>
      have howner : ({ s with schemaStream := some stream' } : Protocol).schemaOwner =
          s.schemaOwner := by
        rw [schemaOwner, schemaOwner, inside.opened]
        exact congrArg some (acceptOption_spec accepts).1
      refine ⟨⟨h.distinct, ?_, h.values⟩, fun k hk => howner ▸ hk, fun _ hk => hk⟩
      rw [howner]
      exact h.schema
  | schemaCommitted inside =>
      -- the commit closes the stream
      obtain ⟨-, hu, hk⟩ := findRecord_spec inside.found
      refine ⟨h.write inside.found rfl hu hk (.give inside.owns rfl rfl) (.same rfl rfl),
        fun k hk => ?_, fun _ hk => hk⟩
      cases hk
  | valuesRejected inside | valuesCommitted inside =>
      obtain ⟨-, hu, hk⟩ := findRecord_spec inside.found
      refine ⟨h.write inside.found rfl hu hk (.same rfl rfl) (.give inside.owns rfl rfl),
        fun _ hk => hk, fun k hk => ?_⟩
      cases hk
  | value inside _ accepts =>
      refine h.touch inside.found rfl rfl rfl rfl rfl rfl ?_
      rw [valuesOwner, valuesOwner, inside.opened]
      exact congrArg some (acceptValue_spec accepts).2.1

/-- A frame that opens a stream makes its device an owner, and no other. -/
theorem onNotify_opens (h : s.Owned)
    (hopen : OpensSchema s id msg alloc ∨ OpensValues s id msg alloc) (locked : Bool) :
    (s.onNotify id msg alloc locked).1.Owned ∧ (s.onNotify id msg alloc locked).1.Owns id ∧
      ∀ k, (s.onNotify id msg alloc locked).1.Owns k → k = id ∨ s.Owns k := by
  have hstep := onNotify_step s id msg alloc locked
  generalize s.onNotify id msg alloc locked = res at hstep ⊢
  have hother (hnot : ¬OpensSchema s id msg alloc ∧ ¬OpensValues s id msg alloc) {P : Prop} : P :=
    absurd hopen (not_or.mpr hnot)
  cases hstep with
  | skipped _ schema values => exact hother ⟨schema, values⟩
  | schemaOpened opens record =>
      obtain ⟨howned, hi, hso, hvo⟩ := h.findOrCreate record
      obtain ⟨-, hu, hk⟩ := findRecord_spec hi
      have hnone := hso.trans (by
        rw [schemaOwner, Option.isNone_iff_eq_none.mp opens.2.2.2.2.2.1, Option.map_none])
      refine ⟨howned.write hi rfl hu hk (.take hnone rfl rfl) (.same rfl rfl), Or.inl rfl,
        fun k hk => hk.elim (fun hk => ?_) fun hk => ?_⟩
      · exact Or.inl (Option.some.inj hk).symm
      · exact Or.inr (Or.inr (hvo.symm.trans hk))
  | valuesOpened opens found =>
      obtain ⟨-, hu, hk⟩ := findRecord_spec found
      have hnone : s.valuesOwner = none := by
        rw [valuesOwner, Option.isNone_iff_eq_none.mp opens.2.2.2.2.1, Option.map_none]
      refine ⟨h.write found rfl hu hk (.same rfl rfl) (.take hnone rfl rfl), Or.inr rfl,
        fun k hk => hk.elim (fun hk => ?_) fun hk => ?_⟩
      · exact Or.inr (Or.inl hk)
      · exact Or.inl (Option.some.inj hk).symm
  | refused type _ _ schema => exact hother ⟨schema, fun hv => by cases type.symm.trans hv.1⟩
  | schemaRejected _ type => exact hother (not_opens type)
  | item _ type => exact hother (not_opens (by rw [type]; rfl))
  | option _ type => exact hother (not_opens (by rw [type]; rfl))
  | schemaCommitted _ type => exact hother (not_opens (by rw [type]; rfl))
  | valuesRejected _ type => exact hother (not_opens (by cases type <;> simp [*, MsgType.begins]))
  | value _ type => exact hother (not_opens (by rw [type]; rfl))
  | valuesCommitted _ type => exact hother (not_opens (by rw [type]; rfl))

theorem discardStreams_schemaOwner (s : Protocol) (id : DeviceId) :
    (s.discardStreams id).schemaOwner = s.schemaOwner.filter fun k => k ≠ id := by
  rw [schemaOwner, schemaOwner, discardStreams]
  cases s.schemaStream with
  | none => rfl
  | some stream => by_cases howner : stream.owner = id <;> simp [Option.filter_some, howner]

theorem discardStreams_valuesOwner (s : Protocol) (id : DeviceId) :
    (s.discardStreams id).valuesOwner = s.valuesOwner.filter fun k => k ≠ id := by
  rw [valuesOwner, valuesOwner, discardStreams]
  cases s.valuesStream with
  | none => rfl
  | some stream => by_cases howner : stream.owner = id <;> simp [Option.filter_some, howner]

/-- A disconnect takes the builders from the device. -/
theorem onDisconnect_owners (hid : id.text ≠ []) (locked : Bool) :
    (s.onDisconnect id locked).1.schemaOwner = (s.schemaOwner.filter fun k => k ≠ id) ∧
      (s.onDisconnect id locked).1.valuesOwner = s.valuesOwner.filter fun k => k ≠ id := by
  rw [onDisconnect, if_neg hid, ← discardStreams_schemaOwner, ← discardStreams_valuesOwner]
  cases locked with
  | false => exact ⟨rfl, rfl⟩
  | true =>
      simp only [Bool.not_true, Bool.false_eq_true, if_false]
      split <;> exact ⟨rfl, rfl⟩

theorem onDisconnect_owns (hid : id.text ≠ []) {locked : Bool} {k : DeviceId}
    (hk : (s.onDisconnect id locked).1.Owns k) : s.Owns k ∧ k ≠ id := by
  obtain ⟨hso, hvo⟩ := onDisconnect_owners (s := s) hid locked
  rw [Owns, hso, hvo, Option.filter_eq_some_iff, Option.filter_eq_some_iff, decide_eq_true_eq]
    at hk
  exact hk.elim (fun hk => ⟨Or.inl hk.1, hk.2⟩) fun hk => ⟨Or.inr hk.1, hk.2⟩

theorem not_owns_of_absent (h : s.Owned) (hid : id.text ≠ []) (hi : s.findRecord id = none) :
    ¬ s.Owns id := by
  rw [findRecord_eq hid] at hi
  exact fun hown => hown.elim (h.schema.ne_of_absent hi) (h.values.ne_of_absent hi)

/-- The flag of an owner's record stands while it owns the builder. -/
theorem Owned.flag (h : s.Owned) (hown : s.Owns id) :
    ∃ i, (s.records i).used = true ∧ (s.records i).deviceId = id ∧
      ((s.records i).schemaStreamActive = true ∧ s.schemaOwner = some id ∨
        (s.records i).valuesStreamActive = true ∧ s.valuesOwner = some id) := by
  rcases hown with hs | hv
  · obtain ⟨i, hu, hk, hflag⟩ := h.schema.owner id hs
    exact ⟨i, hu, hk, Or.inl ⟨hflag, hs⟩⟩
  · obtain ⟨i, hu, hk, hflag⟩ := h.values.owner id hv
    exact ⟨i, hu, hk, Or.inr ⟨hflag, hv⟩⟩

/-- A disconnect of a device that owns no builder, when the records stay as they are. -/
theorem Owned.onDisconnect_same (h : s.Owned) (hid : id.text ≠ []) {locked : Bool}
    (hnot : ¬ s.Owns id) (hrecords : (s.onDisconnect id locked).1.records = s.records) :
    (s.onDisconnect id locked).1.Owned := by
  obtain ⟨hso, hvo⟩ := onDisconnect_owners (s := s) hid locked
  rw [Ownership.filter_of_ne fun hs => hnot (Or.inl hs)] at hso
  rw [Ownership.filter_of_ne fun hv => hnot (Or.inr hv)] at hvo
  refine ⟨?_, ?_, ?_⟩
  · rw [Distinct, hrecords]
    exact h.distinct
  · rw [hrecords, hso]
    exact h.schema
  · rw [hrecords, hvo]
    exact h.values

/-- **A disconnect** leaves the builders in order exactly when it gets the mutex or the device owns
none: without the mutex it takes the builders but not the marks. -/
theorem onDisconnect_owned_iff (h : s.Owned) (hid : id.text ≠ []) (locked : Bool) :
    (s.onDisconnect id locked).1.Owned ↔ (locked = false → ¬ s.Owns id) := by
  obtain ⟨hso, hvo⟩ := onDisconnect_owners (s := s) hid locked
  cases locked with
  | false =>
      have hrecords : (s.onDisconnect id false).1.records = s.records := by
        rw [onDisconnect, if_neg hid]
        rfl
      refine ⟨fun h' _ hown => ?_, fun hnot => ?_⟩
      · obtain ⟨i, -, hk, hflag⟩ := h.flag hown
        have hstay : (s.onDisconnect id false).1.Owns id := by
          rw [← hrecords] at hflag hk
          refine hflag.imp (fun hs => ?_) fun hv => ?_
          · exact (h'.schema.marked i hs.1).2.trans (congrArg some hk)
          · exact (h'.values.marked i hv.1).2.trans (congrArg some hk)
        exact (onDisconnect_owns hid hstay).2 rfl
      · exact h.onDisconnect_same hid (hnot rfl) hrecords
  | true =>
      refine ⟨fun _ hlocked => Bool.noConfusion hlocked, fun _ => ?_⟩
      cases hi : s.findRecord id with
      | some i =>
          obtain ⟨-, hu, hk⟩ := findRecord_spec hi
          refine h.write (r := { s.records i with
              schemaStreamActive := false
              valuesStreamActive := false
              stagingExpectedCount := 0
              stagingReceivedCount := 0
              stagingSnapshotId := 0 }) hi ?_ hu hk ?_ ?_
          · rw [onDisconnect, if_neg hid]
            have hi' : (s.discardStreams id).findRecord id = some i := hi
            simp only [Bool.not_true, Bool.false_eq_true, if_false, hi']
            rfl
          · rw [hso, ← hk]
            exact h.schema.drop i
          · rw [hvo, ← hk]
            exact h.values.drop i
      | none =>
          have hrecords : (s.onDisconnect id true).1.records = s.records := by
            rw [onDisconnect, if_neg hid]
            have hi' : (s.discardStreams id).findRecord id = none := hi
            simp only [Bool.not_true, Bool.false_eq_true, if_false, hi']
            rfl
          exact h.onDisconnect_same hid (not_owns_of_absent h hid hi) hrecords

theorem onCapability_kept (h : s.Owned) (id : DeviceId) (supported : Bool)
    (schemaRevision : UInt16) (locked : Bool) :
    Kept s (s.onCapability id supported schemaRevision locked).1 := by
  rw [onCapability]
  split
  · exact h.kept
  · split
    · exact h.kept
    · rename_i s₁ i hrec
      obtain ⟨howned, hi, -, -⟩ := h.findOrCreate hrec
      dsimp only
      split <;> exact findOrCreate_kept h hrec (howned.touch hi rfl rfl rfl rfl rfl rfl rfl)

end Protocol

end BleGateway.Settings
