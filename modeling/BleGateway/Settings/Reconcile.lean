import BleGateway.Settings.Transaction
import BleGateway.Settings.Secrets

/-! # Reconciliation

A device restarts when it has committed a transaction. When its values come in again, the
gateway compares them with the changes it had asked for and resolves the transaction. Here the
outcome is compared with what the device reported in its frames.
-/

namespace BleGateway.Settings

open Protocol

/-! ## Reading a snapshot -/

namespace ValueEntry

/-- A read of `bool_val`, the lowest byte. -/
def boolVal (e : ValueEntry) : Bool := e.value.toNat % 2 ^ 8 ≠ 0

def intVal (e : ValueEntry) : Int32 := e.value.toInt32

/-- A read of `string_off`, the two lower bytes. -/
def stringOff (e : ValueEntry) : Nat := e.value.toNat % 2 ^ 16

/-- A read of `enum_val`, an `int32_t`. -/
def enumVal (e : ValueEntry) : Int32 := e.value.toInt32

end ValueEntry

/-- The `switch` of `reconciliation_values_match`. -/
def memberMatches (values : Values) (e : ValueEntry) (change : ChangeRequest) : Bool :=
  if change.type = DS_TYPE_BOOL then e.boolVal = change.boolVal
  else if change.type = DS_TYPE_INT then e.intVal = change.intVal
  else if change.type = DS_TYPE_ENUM then e.enumVal = change.enumVal
  else if change.type = DS_TYPE_STRING then values.stringPool.get e.stringOff = change.str
  else false

/-- `reconciliation_values_match`. -/
def reconciliationValuesMatch (r : DeviceRecord) (changes : List ChangeRequest) : Bool :=
  match r.schema, r.values with
  | some _, some values =>
      changes.all fun change =>
        match values.values.find? fun e => values.idOf e = change.settingId.text with
        | some e => e.hasValue && e.type = change.type && memberMatches values e change
        | none => false
  | _, _ => false

/-- The outcome of a reconciliation. -/
def reconcileOutcome (r : DeviceRecord) (changes : List ChangeRequest) : TxResult :=
  if r.configRev = r.reconciliationExpectedRev then
    if reconciliationValuesMatch r changes then .ok else .failed
  -- the commit did not persist
  else if r.configRev = r.reconciliationOldRev then .failed
  -- somebody else has changed the device
  else .deviceConflict

/-- The state that is published with an outcome of a reconciliation. -/
def outcomeState : TxResult → WsTxState
  | .ok => .succeeded
  | .deviceConflict => .conflict
  | _ => .failed

/-- `device_settings_reconcile`. -/
def Protocol.reconcile (p : Protocol) (t : TxTable) (id : DeviceId) (locked : Bool) :
    (Protocol × TxTable) × List TxEffect :=
  if id.text = [] ∨ !locked then ((p, t), [])
  else
    match p.findRecord id with
    | none => ((p, t), [])
    | some i =>
        let r := p.records i
        if !r.pendingReconciliation then ((p, t), [])
        else
          let settled := p.setRecord i { r with pendingReconciliation := false }
          match (t.find id).filter fun k => (t.txns k).state = .waitingReboot with
          | none => ((settled, t), [])
          | some k =>
              let tx := t.txns k
              let outcome := reconcileOutcome r tx.changes
              let verifying := r.configRev = r.reconciliationExpectedRev
              let tx := if verifying then { tx with state := .verifying } else tx
              let t := (t.setTx k tx).storeResult tx.deviceId outcome r.configRev
              ((settled, t.setTx k tx.free),
                (if verifying then [.publish (tx.event .verifying)] else []) ++
                  [.publish (tx.event (outcomeState outcome))] ++
                  (if tx.completion ≠ 0 then [.completed tx.completion tx.context outcome]
                    else []) ++
                  [.publishChanged id r.configRev])

/-- Deliver the frames of a device, and reconcile when they ask for it. -/
def Protocol.settle (p : Protocol) (t : TxTable) (id : DeviceId) (frames : List Frame) :
    (Protocol × TxTable) × List TxEffect :=
  if .reconcile id ∈ (p.deliver id frames).2 then (p.deliver id frames).1.reconcile t id true
  else (((p.deliver id frames).1, t), [])

/-! ## What a stream enters -/

/-- The entry reads as the value that was reported. -/
def Stored (pool : StringPool) (e : ValueEntry) (type : UInt8) (value : SettingValue) : Prop :=
  if type = DS_TYPE_BOOL then e.boolVal = value.asBool
  else if type = DS_TYPE_INT then e.intVal = value.asInt
  else if type = DS_TYPE_ENUM then e.enumVal.toInt = value.asEnum.toNat
  else if type = DS_TYPE_STRING then pool.Reads e.stringOff value.asString
  else False

/-- The entry of a frame: it can be found under the setting of the frame, and reads as its value
unless the setting is secret. -/
structure Entered (schema : Option Schema) (pool : StringPool) (f : Frame) (e : ValueEntry) :
    Prop where
  id : ∃ settingId, f.msg.id? = some settingId ∧ pool.Reads e.idOff settingId.text
  type : f.msg.settingType = some e.type
  hasValue : e.hasValue = !isSecretFrame schema f.msg
  value : ∃ value, f.msg.settingValue = some value ∧
    (isSecretFrame schema f.msg = false → Stored pool e e.type value)

variable {schema : Option Schema} {pool later : StringPool} {f : Frame} {e : ValueEntry}
  {type : UInt8} {value : SettingValue}

theorem Stored.extends (h : Stored pool e type value) (hext : pool.Extends later) :
    Stored later e type value := by
  rw [Stored] at h ⊢
  split
  · rwa [if_pos ‹_›] at h
  · rw [if_neg ‹_›] at h
    split
    · rwa [if_pos ‹_›] at h
    · rw [if_neg ‹_›] at h
      split
      · rwa [if_pos ‹_›] at h
      · rw [if_neg ‹_›] at h
        split
        · rw [if_pos ‹_›] at h
          exact h.extends hext
        · rwa [if_neg ‹_›] at h

theorem Entered.extends (h : Entered schema pool f e) (hext : pool.Extends later) :
    Entered schema later f e := by
  obtain ⟨settingId, hid, hread⟩ := h.id
  obtain ⟨value, hvalue, hstored⟩ := h.value
  exact ⟨⟨settingId, hid, hread.extends hext⟩, h.type, h.hasValue,
    ⟨value, hvalue, fun hs => (hstored hs).extends hext⟩⟩

/-- The offset of a text fits the union. -/
theorem stringOff_setStringOff (e : ValueEntry) (he : e.value = 0) {off : Nat}
    (hoff : off < 2 ^ 16) : (e.setStringOff off).stringOff = off := by
  rw [ValueEntry.setStringOff, ValueEntry.stringOff, he, UInt32.zero_and, UInt32.zero_or,
    UInt32.toNat_ofNat']
  omega

theorem enumVal_setEnum (e : ValueEntry) (v : UInt8) : (e.setEnum v).enumVal.toInt = v.toNat := by
  have h : ∀ x : Fin 256, (UInt8.ofFin x).toUInt32.toInt32.toInt = (UInt8.ofFin x).toNat := by
    decide +kernel
  exact h v.toFin

theorem boolVal_setBool (e : ValueEntry) (he : e.value = 0) (v : Bool) :
    (e.setBool v).boolVal = v := by
  have h : ∀ v : Bool,
      decide (((0 : UInt32) &&& 0xFFFFFF00 ||| if v = true then 1 else 0).toNat % 2 ^ 8 ≠ 0) =
        v := by
    decide
  rw [ValueEntry.setBool, ValueEntry.boolVal, he]
  exact h v

/-- A pool grows within its capacity. -/
theorem StringPool.add_bound {s : CString} {off : Nat} (h : pool.add s = some (later, off)) :
    later.capacity = pool.capacity ∧ off < pool.capacity := by
  rw [StringPool.add] at h
  split at h
  · cases h
  · cases h
    refine ⟨rfl, ?_⟩
    have hpos : 0 < (s.length + 1 + 3) / 4 * 4 := by omega
    omega

/-- Entering a value that is not secret stores it. -/
theorem enterValue_stored {desc : SettingDesc} {entry : ValueEntry} (hvalue : e.value = 0)
    (hhas : e.hasValue = true) (hcap : pool.capacity < 2 ^ 16)
    (h : enterValue schema desc pool e type value = some (later, entry)) :
    Stored later entry type value ∧ entry.hasValue = true := by
  rw [enterValue] at h
  rw [Stored]
  split at h
  · cases h
    rw [if_pos ‹_›]
    exact ⟨boolVal_setBool e hvalue _, hhas⟩
  rw [if_neg ‹_›]
  split at h
  · cases h
    rw [if_pos ‹_›]
    exact ⟨Int32.toInt32_toUInt32 _, hhas⟩
  rw [if_neg ‹_›]
  split at h
  · rename_i hstring
    have henum : ¬type = DS_TYPE_ENUM := by rw [hstring]; decide
    rw [if_neg henum, if_pos hstring]
    split at h
    · cases h
    obtain ⟨⟨pool', off⟩, hadd, heq⟩ := Option.map_eq_some_iff.mp h
    cases heq
    have hoff := (StringPool.add_bound hadd).2
    rw [stringOff_setStringOff e hvalue (hoff.trans hcap)]
    exact ⟨(StringPool.add_spec value.noNul_asString hadd).2, hhas⟩
  split at h
  · rename_i henum
    rw [if_pos henum]
    obtain ⟨-, ⟨⟩⟩ := Option.ite_none_right_eq_some.mp h
    exact ⟨enumVal_setEnum e _, hhas⟩
  · cases h

theorem enterValue_capacity {desc : SettingDesc} {entry : ValueEntry}
    (h : enterValue schema desc pool e type value = some (later, entry)) :
    later.capacity = pool.capacity := by
  rw [enterValue] at h
  split at h
  · cases h
    rfl
  split at h
  · cases h
    rfl
  split at h
  · split at h
    · cases h
    split at h
    · obtain ⟨⟨pool', off⟩, hadd, heq⟩ := Option.map_eq_some_iff.mp h
      cases heq
      exact (StringPool.add_bound hadd).1
    · cases h
      rfl
  split at h
  · split at h
    · cases h
      rfl
    · cases h
  · cases h

variable {r : DeviceRecord} {stream stream' : ValuesStream}

/-- **One accepted value.** -/
theorem acceptValue_entered (hcap : stream.builder.stringPool.capacity < 2 ^ 16)
    (h : acceptValue r stream f.msg = some stream') :
    stream'.builder.stringPool.capacity = stream.builder.stringPool.capacity ∧
      stream.builder.stringPool.Extends stream'.builder.stringPool ∧
      ∃ e, stream'.builder.entries = stream.builder.entries ++ [e] ∧
        Entered r.schema stream'.builder.stringPool f e := by
  obtain ⟨settingId, type, value, desc, pool, idOff, later, entry, hid, htype, hvalue, hdesc,
    hadd, henter, rfl⟩ := acceptValue_steps h
  obtain ⟨hext, hread⟩ := StringPool.add_spec settingId.noNul hadd
  obtain ⟨hext', hidOff, hentry⟩ := enterValue_spec henter
  have hcap' : pool.capacity = stream.builder.stringPool.capacity := (StringPool.add_bound hadd).1
  have hsecret : isSecretFrame r.schema f.msg = desc.isSecret := by
    rw [isSecretFrame, hid, Option.bind_some, hdesc]
  refine ⟨(enterValue_capacity henter).trans hcap', hext.trans hext', storedEntry desc entry, rfl,
    ?_⟩
  cases hs : desc.isSecret with
  | true =>
      obtain ⟨rfl, heq⟩ := enterValue_secret hs henter
      rw [heq]
      refine ⟨⟨settingId, hid, hread⟩, htype, by rw [hsecret, hs]; rfl, ⟨value, hvalue, ?_⟩⟩
      intro hpublic
      exact absurd ((hsecret.trans hs).symm.trans hpublic) (by simp)
  | false =>
      have heq : storedEntry desc entry = entry := by rw [storedEntry, if_neg (by simp [hs])]
      obtain ⟨hstored, hhas⟩ := enterValue_stored (by rfl) (by rw [hs]; rfl)
        (hcap'.trans_lt hcap) henter
      rw [heq]
      refine ⟨⟨settingId, hid, ?_⟩, ?_, by rw [hsecret, hs]; exact hhas, ⟨value, hvalue, ?_⟩⟩
      · rw [hidOff]
        exact hread.extends hext'
      · rw [hentry]
        exact htype
      · intro _
        rw [hentry]
        exact hstored

/-- **All accepted values**: the new entries read as the frames they came in. -/
theorem acceptValues_entered {values : List Frame}
    (hcap : stream.builder.stringPool.capacity < 2 ^ 16)
    (h : acceptValues r stream values = some stream') :
    stream.builder.stringPool.Extends stream'.builder.stringPool ∧
      ∃ entries, stream'.builder.entries = stream.builder.entries ++ entries ∧
        List.Forall₂ (Entered r.schema stream'.builder.stringPool) values entries := by
  induction values generalizing r stream with
  | nil =>
      cases h
      exact ⟨StringPool.Extends.refl _, [], (List.append_nil _).symm, .nil⟩
  | cons f fs ih =>
      obtain ⟨next, hacc, hrest⟩ := Option.bind_eq_some_iff.mp h
      obtain ⟨hcap', hext, e, hentries, hentered⟩ := acceptValue_entered hcap hacc
      obtain ⟨hext', es, hes, hall⟩ := ih (hcap'.trans_lt hcap) hrest
      refine ⟨hext.trans hext', e :: es, ?_, .cons (hentered.extends hext') hall⟩
      rw [hes, hentries, List.append_assoc]
      rfl

/-! ## What the device reported -/

/-- The first report of a setting. A stream may report a setting more than once; who reads the
snapshot takes the first entry. -/
def report (values : List Frame) (settingId : CString) : Option Message :=
  (values.map (·.msg)).find? fun msg => msg.id?.any (·.text = settingId)

/-- The value is the one the change asks for. -/
def ChangeRequest.AskedFor (c : ChangeRequest) (v : SettingValue) : Prop :=
  if c.type = DS_TYPE_BOOL then v.asBool = c.boolVal
  else if c.type = DS_TYPE_INT then v.asInt = c.intVal
  else if c.type = DS_TYPE_ENUM then (v.asEnum.toNat : Int) = c.enumVal.toInt
  else if c.type = DS_TYPE_STRING then v.asString = c.str
  else False

/-- **The device holds a change**: it reports the setting with the type and the value of the
change. Of a secret setting the type is all there is to compare. -/
def Held (schema : Option Schema) (values : List Frame) (c : ChangeRequest) : Prop :=
  ∃ msg value, report values c.settingId.text = some msg ∧ msg.settingType = some c.type ∧
    msg.settingValue = some value ∧ (isSecretFrame schema msg = true ∨ c.AskedFor value)

/-- The change is for a setting that the schema flags SECRET. -/
def ChangeRequest.isSecret (schema : Option Schema) (c : ChangeRequest) : Bool :=
  match findDescriptor schema c.settingId.text with
  | some desc => desc.isSecret
  | none => false

theorem isSecretFrame_of_id {msg : Message} {c : ChangeRequest}
    (h : msg.id?.any (·.text = c.settingId.text) = true) :
    isSecretFrame schema msg = c.isSecret schema := by
  cases hid : msg.id? with
  | none =>
      rw [hid] at h
      cases h
  | some settingId =>
      rw [hid] at h
      have htext : settingId.text = c.settingId.text := of_decide_eq_true h
      rw [isSecretFrame, hid, Option.bind_some, htext]
      rfl

/-- The first entry of a setting belongs to its first report. -/
theorem entered_find {values : List Frame} {entries : List ValueEntry} {v : Values}
    (h : List.Forall₂ (Entered schema v.stringPool) values entries) (settingId : CString) :
    match entries.find? fun e => v.idOf e = settingId with
    | some e => ∃ f, report values settingId = some f.msg ∧ Entered schema v.stringPool f e
    | none => report values settingId = none := by
  induction h with
  | nil => rfl
  | @cons f e fs es hf _ ih =>
      obtain ⟨id, hid, hread⟩ := hf.id
      have hsame : v.idOf e = id.text := hread.get
      have hany : f.msg.id?.any (·.text = settingId) = decide (id.text = settingId) := by
        rw [hid, Option.any_some]
      rw [report, List.map_cons, List.find?_cons, List.find?_cons, hsame, hany]
      by_cases htext : id.text = settingId
      · simp only [htext, decide_true]
        exact ⟨f, rfl, hf⟩
      · simp only [htext, decide_false]
        exact ih

/-- The comparison of one member is right. -/
theorem memberMatches_iff {v : Values} {c : ChangeRequest}
    (h : Stored v.stringPool e c.type value) :
    memberMatches v e c = true ↔ c.AskedFor value := by
  rw [Stored] at h
  rw [memberMatches, ChangeRequest.AskedFor]
  split
  · rw [if_pos ‹_›] at h
    rw [h, decide_eq_true_iff]
  rw [if_neg ‹_›] at h
  split
  · rw [if_pos ‹_›] at h
    rw [h, decide_eq_true_iff]
  rw [if_neg ‹_›] at h
  split
  · rw [if_pos ‹_›] at h
    rw [← h, decide_eq_true_iff, Int32.toInt_inj]
  rw [if_neg ‹_›] at h
  split
  · rw [if_pos ‹_›] at h
    rw [h.get, decide_eq_true_iff]
  · rw [if_neg ‹_›] at h
    exact h.elim

/-- **The comparison of a snapshot with the changes**: it succeeds when all changes are held and
none is for a secret setting. -/
theorem reconciliationValuesMatch_iff {values : List Frame} {v : Values}
    {changes : List ChangeRequest} (hschema : r.schema.isSome = true) (hr : r.values = some v)
    (h : List.Forall₂ (Entered r.schema v.stringPool) values v.values) :
    reconciliationValuesMatch r changes = true ↔
      ∀ c ∈ changes, Held r.schema values c ∧ c.isSecret r.schema = false := by
  obtain ⟨schema, hs⟩ := Option.isSome_iff_exists.mp hschema
  rw [reconciliationValuesMatch, hs, hr, List.all_eq_true]
  rw [hs] at h
  apply forall₂_congr
  intro c _
  have hfind := entered_find h c.settingId.text
  cases hentry : v.values.find? fun e => v.idOf e = c.settingId.text with
  | none =>
      rw [hentry] at hfind
      refine iff_of_false (by simp) ?_
      rintro ⟨⟨msg, value, hreport, _⟩, _⟩
      exact absurd (hfind.symm.trans hreport) (by simp)
  | some e =>
      rw [hentry] at hfind
      obtain ⟨f, hreport, hentered⟩ := hfind
      have hany : f.msg.id?.any (·.text = c.settingId.text) = true := by
        have := List.find?_some hreport
        exact this
      have hsecret : isSecretFrame (some schema) f.msg = c.isSecret (some schema) :=
        isSecretFrame_of_id hany
      obtain ⟨value, hvalue, hstored⟩ := hentered.value
      simp only [Bool.and_eq_true, decide_eq_true_eq, hentered.hasValue, hsecret]
      constructor
      · rintro ⟨⟨hpublic, htype⟩, hmatch⟩
        have hpublic' : c.isSecret (some schema) = false := by simpa using hpublic
        have hst := hstored (hsecret.trans hpublic')
        rw [htype] at hst
        refine ⟨⟨f.msg, value, hreport, htype ▸ hentered.type, hvalue, Or.inr ?_⟩, hpublic'⟩
        exact (memberMatches_iff hst).mp hmatch
      · rintro ⟨⟨msg, value', hreport', htype, hvalue', hasked⟩, hpublic⟩
        obtain rfl : msg = f.msg := Option.some.inj (hreport'.symm.trans hreport)
        obtain rfl : value' = value := Option.some.inj (hvalue'.symm.trans hvalue)
        have hty : e.type = c.type := Option.some.inj (hentered.type.symm.trans htype)
        have hst := hstored (hsecret.trans hpublic)
        rw [hty] at hst
        refine ⟨⟨by simp [hpublic], hty⟩, (memberMatches_iff hst).mpr (hasked.resolve_left ?_)⟩
        rw [hsecret, hpublic]
        simp

/-! ## Resolving a transaction -/

/-- A whole values stream of a device that is accepted and commits `v`. -/
structure AcceptedStream (p : Protocol) (id : DeviceId) (opening : Frame) (values : List Frame)
    (closing : Frame) (v : Values) : Prop where
  idle : p.valuesStream = none
  opens : opening.msg.type = .valuesBegin
  carries : ∀ f ∈ values, f.msg.type = .valuesValue
  closes : closing.msg.type = .valuesEnd
  commits : .commitValues id v ∈ (p.deliver id (opening :: (values ++ [closing]))).2

variable {p : Protocol} {t : TxTable} {id : DeviceId} {opening closing : Frame}
  {values : List Frame} {v : Values} {k : Tx}

/-- The record of the device after an accepted stream, and the entries of the snapshot. -/
theorem AcceptedStream.after (h : AcceptedStream p id opening values closing v)
    (hr : p.recordOf id = some r) :
    ∃ r', (p.deliver id (opening :: (values ++ [closing]))).1.recordOf id = some r' ∧
      r'.schema = r.schema ∧ r.schema.isSome = true ∧ r'.values = some v ∧
      r'.configRev = v.configRevision ∧
      r'.pendingReconciliation = r.pendingReconciliation ∧
      r'.reconciliationExpectedRev = r.reconciliationExpectedRev ∧
      List.Forall₂ (Entered r.schema v.stringPool) values v.values ∧
      (.reconcile id ∈ (p.deliver id (opening :: (values ++ [closing]))).2 ↔
        r.pendingReconciliation = true) := by
  have hquiet := handleValuesBegin_quiet p id opening.msg opening.alloc
  have hnext : p.deliver id (opening :: (values ++ [closing])) =
      (((p.handleValuesBegin id opening.msg opening.alloc).1.deliver id (values ++ [closing])).1,
        (p.handleValuesBegin id opening.msg opening.alloc).2 ++
          ((p.handleValuesBegin id opening.msg opening.alloc).1.deliver id
            (values ++ [closing])).2) := by
    simp only [deliver, onNotify, h.opens]
  have hcommit := h.commits
  rw [hnext, List.mem_append] at hcommit
  obtain ⟨i, stream, built, count, ⟨hi, hv, -, -⟩, hacc, rfl, hrecord, hrec⟩ :=
    committed_of_values h.carries h.closes
      (hcommit.resolve_left fun hmem => absurd (hquiet _ hmem) (by simp [Effect.isQuiet]))
  rcases handleValuesBegin_cases p id opening.msg opening.alloc with
    hsame | ⟨j, schema, requestId, revision, expected, hj, hschema, hopen⟩
  · rw [hsame] at hv
    rw [h.idle] at hv
    cases hv
  obtain ⟨_, hu, hkey⟩ := findRecord_spec hj
  obtain rfl : p.records j = r := Option.some.inj ((recordOf_of_find hj).symm.trans hr)
  -- the stream is the one that the begin has opened
  rw [hopen] at hi hv hacc hrecord hrec
  obtain rfl : j = i := by
    have hfind := findRecord_setRecord hj (r := (p.records j).openValues expected) hkey hu id
    exact Option.some.inj (hj.symm.trans (hfind.symm.trans hi))
  cases hv
  have hj' : (p.setRecord j ((p.records j).openValues expected)).records j =
      (p.records j).openValues expected := Function.update_self ..
  simp only [hj'] at hacc hrecord hrec
  have hcap : DEVICE_SETTINGS_MAX_STRING_POOL < 2 ^ 16 := by decide
  obtain ⟨_, entries, hentries, hall⟩ := acceptValues_entered (by exact hcap) hacc
  have hfinal : (p.deliver id (opening :: (values ++ [closing]))).1.recordOf id =
      some ({ (p.records j).openValues expected with
        stagingReceivedCount := count }.commitValues built.builder.commit) := by
    rw [hnext, hopen]
    exact hrecord
  refine ⟨_, hfinal, rfl, by rw [hschema]; rfl, rfl, rfl, rfl, rfl, ?_, ?_⟩
  · show List.Forall₂ _ values built.builder.entries
    rw [hentries]
    exact hall
  · have hnot : .reconcile id ∉ (p.handleValuesBegin id opening.msg opening.alloc).2 := by
      intro hmem
      exact absurd (hquiet _ hmem) (by simp [Effect.isQuiet])
    rw [hnext, List.mem_append, or_iff_right hnot, hopen]
    exact hrec

/-- A transaction that waits for its device is resolved as successful when the snapshot matches
its changes. -/
theorem reconcile_succeeded (hr : p.recordOf id = some r)
    (hpending : r.pendingReconciliation = true) (hrev : r.configRev = r.reconciliationExpectedRev)
    (hk : t.find id = some k) (hstate : (t.txns k).state = .waitingReboot) :
    .publish ((t.txns k).event .succeeded) ∈ (p.reconcile t id true).2 ↔
      reconciliationValuesMatch r (t.txns k).changes = true := by
  obtain ⟨i, hi, rfl⟩ := find_of_recordOf hr
  obtain ⟨hid, _, _⟩ := findRecord_spec hi
  rw [Protocol.reconcile, if_neg (by simp [hid]), hi]
  simp only [hpending, Bool.not_true, Bool.false_eq_true, if_false, hk, Option.filter_some, hstate,
    decide_true, if_true, hrev]
  rw [reconcileOutcome, if_pos hrev]
  cases reconciliationValuesMatch (p.records i) (t.txns k).changes with
  | true => exact iff_of_true (by simp [outcomeState, Transaction.event]) rfl
  | false =>
      refine iff_of_false ?_ (by simp)
      by_cases hc : (t.txns k).completion = 0
      · simp [outcomeState, Transaction.event, hc]
      · simp [outcomeState, Transaction.event, hc]

/-- **Reconciliation.** A transaction that waits for its device, whose values stream reports the
expected revision, is resolved as successful when the device holds all changes and none is for a
secret setting. -/
theorem settle_succeeded (h : AcceptedStream p id opening values closing v)
    (hr : p.recordOf id = some r) (hpending : r.pendingReconciliation = true)
    (hrev : v.configRevision = r.reconciliationExpectedRev) (hk : t.find id = some k)
    (hstate : (t.txns k).state = .waitingReboot) :
    .publish ((t.txns k).event .succeeded) ∈
        (p.settle t id (opening :: (values ++ [closing]))).2 ↔
      ∀ c ∈ (t.txns k).changes, Held r.schema values c ∧ c.isSecret r.schema = false := by
  obtain ⟨r', hr', hschema, hsome, hvalues, hconfig, hpend, hexp, hall, hrec⟩ := h.after hr
  rw [Protocol.settle, if_pos (hrec.mpr hpending)]
  have hmatch := reconcile_succeeded (t := t) hr' (hpend.trans hpending)
    (hconfig.trans (hrev.trans hexp.symm)) hk hstate
  rw [hmatch, reconciliationValuesMatch_iff (by rw [hschema]; exact hsome) hvalues
    (by rw [hschema]; exact hall), hschema]

/-- A lamp that has described one setting and restarts with revision 1. -/
def restartingLamp (item : Message) : Protocol :=
  (Protocol.deliver {} lamp [⟨beginFrame 1, true, true⟩, ⟨item, true, true⟩,
    ⟨endFrame 1, true, true⟩]).1.setReconciliation lamp true 1 0

/-- A change of the setting whose union starts with two bytes. -/
def change (type b₀ b₁ : UInt8) : ChangeRequest :=
  ⟨settingId 97 letter_ne_nul, type,
    Vector.ofFn fun i => if i = 0 then b₀ else if i = 1 then b₁ else 0⟩

/-- A saved transaction whose device restarts. -/
def waitingTable (p : Protocol) (c : ChangeRequest) : TxTable :=
  let t := (TxTable.save {} p lamp [c] 0 0 0 true true).table
  t.setTx 0 { t.txns 0 with state := .waitingReboot }

/-- A switch. -/
def switchItem : Message := itemFrame (settingId 97 letter_ne_nul) 0 1

/-- A secret number. -/
def secretItem : Message :=
  { switchItem with
    settingType := some DS_TYPE_INT
    settingFlags := some GW_SETTING_FLAG_SECRET
    minValue := some 0
    maxValue := some 10000 }

/-- The snapshot of the switch, when it is on. -/
def switchSnapshot : Values :=
  ⟨1, [{ idOff := 4, type := DS_TYPE_BOOL, hasValue := true, value := 1 }],
    ⟨[0, 0, 0, 0, 97, 0, 0, 0], DEVICE_SETTINGS_MAX_STRING_POOL⟩⟩

/-- The frame in which the switch is on. -/
def switchOn : Frame := ⟨valueFrame (settingId 97 letter_ne_nul) 0, true, true⟩

end BleGateway.Settings
