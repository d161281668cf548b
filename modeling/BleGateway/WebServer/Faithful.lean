import BleGateway.WebServer.SettingsPut
import BleGateway.CborCodec.JsonRoundTrip

/-! # What a settings request says and what is saved

A body says which settings get which values. The handler renders it faithfully if each entry has an
id and a value that the setting can hold; a value that is missing or of another type, a fraction, a
number out of range or an entry without an id is no reason for it to refuse. So a body that cannot
be rendered is answered with a 4xx only where one of the handler's own checks happens to refuse it.
-/

namespace BleGateway.WebServer

open Settings

/-! ## The property -/

/-- The entry keeps its secret. -/
def Keeps (e : Json) : Prop := secretAction e = some (cstr "keep")

instance (e : Json) : Decidable (Keeps e) := inferInstanceAs (Decidable (_ = _))

/-- The change holds exactly the JSON value `v`, which is of the type of the setting. A FLOAT
setting cannot be written. -/
def Holds (c : ChangeRequest) (v : Json) : Prop :=
  (c.type = DS_TYPE_BOOL ∧ v = .bool c.boolVal) ∨
    ((c.type = DS_TYPE_INT ∨ c.type = DS_TYPE_ENUM) ∧ v = .number c.intVal.toInt) ∨
    (c.type = DS_TYPE_STRING ∧ v = .string c.str ∧ c.str.length < DS_CHANGE_UNION_SIZE)

/-- The change is what the entry asks for. -/
def Renders (schema : Option Schema) (e : Json) (c : ChangeRequest) : Prop :=
  c.settingId.text ≠ [] ∧ e.get (cstr "id") = some (.string c.settingId.text) ∧
    (∃ s ∈ schema, ∃ d ∈ describes s c.settingId.text, d.type = c.type) ∧
    ∃ v ∈ getObjectItem e "value", Holds c v

/-- The arguments of `device_settings_save` are what the body says. -/
def RendersBody (schema : Option Schema) (json : Json) (call : SaveCall) : Prop :=
  (∃ entries, getObjectItem json "changes" = some (.array entries) ∧
      List.Forall₂ (Renders schema) (entries.filter fun e => !decide (Keeps e)) call.changes) ∧
    getObjectItem json "expected_revision" = some (.number (call.expectedRevision.toNat : ℚ))

/-- The device that the body names. -/
def addressed (json : Json) : Option DeviceId :=
  (webGetJsonString json "device_id" DEVICE_ID_MAX_LEN).map fun id => id.toCharBuf

/-- The schema that `device_settings_save` checks changes of the device against. -/
def savedSchema (env : Env) (id : DeviceId) : Option Schema :=
  ((env.protocol.recordOf id).filter fun r => r.schemaState = .ready).bind DeviceRecord.schema

/-- The schema of the device that the body names. -/
def bodySchema (env : Env) (json : Json) : Option Schema := (addressed json).bind (savedSchema env)

/-- **The settings PUT is faithful**: what is accepted is what the body says, and a body that
nothing renders is answered with a 4xx and not submitted. -/
def Faithful (env : Env) (json : Json) : Prop :=
  ((settingsPut env (.ok json)).status = 202 →
      ∃ x ∈ (settingsPut env (.ok json)).saved, RendersBody (bodySchema env json) json x.1) ∧
    ((∀ call, ¬ RendersBody (bodySchema env json) json call) →
      400 ≤ (settingsPut env (.ok json)).status ∧ (settingsPut env (.ok json)).status < 500 ∧
        ∀ x ∈ (settingsPut env (.ok json)).saved, x.2.err ≠ .ok)

/-! ## The condition -/

/-- A setting of the type can hold the value as it is. -/
def Fits (type : UInt8) : Json → Prop
  | .bool _ => type = DS_TYPE_BOOL
  | .number v => (type = DS_TYPE_INT ∨ type = DS_TYPE_ENUM) ∧ ∃ n : Int32, v = n.toInt
  | .string s => type = DS_TYPE_STRING ∧ s.length < DS_CHANGE_UNION_SIZE ∧ (0 : UInt8) ∉ s
  | _ => False

/-- The entry names a setting of the schema and has a value that fits it. -/
def Definite (schema : Option Schema) (e : Json) : Prop :=
  ∃ id : Text GW_SETTINGS_CBOR_MAX_ID_LEN, id.text ≠ [] ∧
    e.get (cstr "id") = some (.string id.text) ∧
    ∃ s ∈ schema, ∃ d ∈ describes s id.text, ∃ v ∈ getObjectItem e "value", Fits d.type v

/-- The body says for each entry what to set, and which revision it expects. -/
def Plain (schema : Option Schema) (json : Json) : Prop :=
  (∃ entries, getObjectItem json "changes" = some (.array entries) ∧
      ∀ e ∈ entries, ¬ Keeps e → Definite schema e) ∧
    ∃ n : UInt32, getObjectItem json "expected_revision" = some (.number (n.toNat : ℚ))

/-- The entry is skipped: it has no usable id or keeps its secret. -/
def Skipped (e : Json) : Prop := settingId e = none ∨ Keeps e

/-- The entry is refused: it has another secret action, or names no setting of the schema. -/
def EntryRefused (schema : Option Schema) (e : Json) : Prop :=
  ∃ id ∈ settingId e, (∃ action ∈ secretAction e, action ≠ cstr "keep") ∨
    (secretAction e = none ∧ ∃ s ∈ schema, describes s id.text = none)

/-- The entry is read as the change `c`. -/
def ReadAs (env : Env) (schema : Option Schema) (e : Json) (c : ChangeRequest) : Prop :=
  ∃ id ∈ settingId e, secretAction e = none ∧ ∃ s ∈ schema, ∃ d ∈ describes s id.text,
    c = changeOf env id d.type (getObjectItem e "value")

/-- The entry is skipped or read. -/
def Readable (env : Env) (schema : Option Schema) (e : Json) : Prop :=
  Skipped e ∨ ∃ c, ReadAs env schema e c

/-- An entry is refused, and those in front of it can be read. -/
def EntriesRefused (env : Env) : Nat → List Json → Prop
  | _, [] => False
  | i, e :: es =>
      EntryRefused (env.schemaAt i) e ∨
        Readable env (env.schemaAt i) e ∧ EntriesRefused env (i + 1) es

/-- All entries from the place `i` on can be read. -/
def EntriesReadable (env : Env) : Nat → List Json → Prop
  | _, [] => True
  | i, e :: es => Readable env (env.schemaAt i) e ∧ EntriesReadable env (i + 1) es

/-- An entry is read as a change that the schema does not allow. -/
def SomeInvalid (env : Env) (schema : Schema) : Nat → List Json → Prop
  | _, [] => False
  | i, e :: es =>
      (∃ c, ReadAs env (env.schemaAt i) e c ∧ prevalidateChange (some schema) c = false) ∨
        SomeInvalid env schema (i + 1) es

/-- The save is refused: a transaction of the device is active, its schema is gone, or the changes
are not allowed. -/
def SaveRefused (env : Env) (id : DeviceId) (entries : List Json) : Prop :=
  (env.txns.find id).isSome = true ∨ savedSchema env id = none ∨
    (env.txns.alloc.isSome = true ∧ env.txAlloc = true ∧
      ∃ s ∈ savedSchema env id, SomeInvalid env s 0 entries)

/-- The changes of the request are refused. -/
def ChangesRefused (env : Env) (id : DeviceId) (entries : List Json) : Prop :=
  entries = [] ∨ DS_TX_MAX_CHANGES < entries.length ∨ EntriesRefused env 0 entries ∨
    (∀ e ∈ entries, Skipped e) ∨ (EntriesReadable env 0 entries ∧ SaveRefused env id entries)

/-- One of the checks refuses the request. -/
def Refused (env : Env) (json : Json) : Prop :=
  json.isObject = false ∨ addressed json = none ∨
    ∃ id ∈ addressed json, env.deviceKnown id = false ∨
      (env.schemaReady id = true ∧
        ((∀ v, getObjectItem json "expected_revision" ≠ some (.number v)) ∨
          (∀ entries, getObjectItem json "changes" ≠ some (.array entries)) ∨
          ∃ entries, getObjectItem json "changes" = some (.array entries) ∧
            ChangesRefused env id entries))

/-! ## What a change holds -/

theorem byte_changeOf (env : Env) (id : Text GW_SETTINGS_CBOR_MAX_ID_LEN) (type : UInt8)
    (val : Option Json) (k : Fin DS_CHANGE_UNION_SIZE) :
    (changeOf env id type val).byte k = (valueBytes env type val)[k.val]?.getD 0 := by
  simp [ChangeRequest.byte, changeOf, unionOf]

theorem word_of_bytes (v : UInt32) :
    v.toUInt8.toUInt32 ||| (v >>> 8).toUInt8.toUInt32 <<< 8 |||
      (v >>> 16).toUInt8.toUInt32 <<< 16 ||| (v >>> 24).toUInt8.toUInt32 <<< 24 = v := by
  have hbytes : (v.toUInt8.toUInt32 ||| (v >>> 8).toUInt8.toUInt32 <<< 8 |||
      (v >>> 16).toUInt8.toUInt32 <<< 16 ||| (v >>> 24).toUInt8.toUInt32 <<< 24).toBitVec =
      (v.toBitVec.setWidth 8).setWidth 32 ||| ((v.toBitVec >>> 8).setWidth 8).setWidth 32 <<< 8 |||
        ((v.toBitVec >>> 16).setWidth 8).setWidth 32 <<< 16 |||
        ((v.toBitVec >>> 24).setWidth 8).setWidth 32 <<< 24 := rfl
  apply UInt32.toBitVec_inj.mp
  rw [hbytes]
  ext i hi
  simp only [BitVec.getElem_or, BitVec.getElem_shiftLeft, BitVec.getElem_setWidth,
    BitVec.getLsbD_setWidth, BitVec.getLsbD_ushiftRight]
  -- a bit of the word is a bit of one of the bytes
  have hbyte : i < 8 ∨ (8 ≤ i ∧ i < 16) ∨ (16 ≤ i ∧ i < 24) ∨ 24 ≤ i := by omega
  rcases hbyte with h | h | h | h
  all_goals grind

/-- The four bytes of a number read back. -/
theorem intVal_changeOf {env : Env} {id : Text GW_SETTINGS_CBOR_MAX_ID_LEN} {type : UInt8}
    {val : Option Json} {v : Int32} (h : valueBytes env type val = littleEndian v.toUInt32) :
    (changeOf env id type val).intVal = v := by
  unfold ChangeRequest.intVal
  rw [byte_changeOf, byte_changeOf, byte_changeOf, byte_changeOf, h]
  show (v.toUInt32.toUInt8.toUInt32 ||| (v.toUInt32 >>> 8).toUInt8.toUInt32 <<< 8 |||
      (v.toUInt32 >>> 16).toUInt8.toUInt32 <<< 16 |||
      (v.toUInt32 >>> 24).toUInt8.toUInt32 <<< 24).toInt32 = v
  rw [word_of_bytes]
  rfl

/-- A text without a NUL that fits with its terminator reads back. -/
theorem str_changeOf {env : Env} {id : Text GW_SETTINGS_CBOR_MAX_ID_LEN} {type : UInt8}
    {val : Option Json} {s : CString} (h : valueBytes env type val = s)
    (hlen : s.length < DS_CHANGE_UNION_SIZE) (hnul : (0 : UInt8) ∉ s) :
    (changeOf env id type val).str = s := by
  have hunion : (unionOf s).toList = s ++ List.replicate (DS_CHANGE_UNION_SIZE - s.length) 0 := by
    apply List.ext_getElem
    · simp only [Vector.length_toList, List.length_append, List.length_replicate]
      omega
    · intro i h₁ h₂
      simp only [unionOf, Vector.getElem_toList, Vector.getElem_ofFn]
      by_cases hi : i < s.length
      · rw [List.getElem_append_left hi, List.getElem?_eq_getElem hi, Option.getD_some]
      · rw [List.getElem_append_right (by omega), List.getElem_replicate,
          List.getElem?_eq_none (by omega), Option.getD_none]
  have hpad : DS_CHANGE_UNION_SIZE - s.length =
    (DS_CHANGE_UNION_SIZE - s.length - 1) + 1 := by omega
  unfold ChangeRequest.str
  rw [show (changeOf env id type val).union = unionOf s from congrArg unionOf h, hunion, hpad,
    List.replicate_succ, List.takeWhile_append_of_pos]
  · simp
  · intro a ha
    have hne : a ≠ 0 := fun h => hnul (h ▸ ha)
    exact decide_eq_true hne

theorem takeWhile_whole {s : CString} (h : (0 : UInt8) ∉ s) : s.takeWhile (· ≠ 0) = s := by
  rw [List.takeWhile_eq_self_iff]
  intro a ha
  have hne : a ≠ 0 := fun heq => h (heq ▸ ha)
  exact decide_eq_true hne

/-- **A value that fits** is held exactly. -/
theorem holds_changeOf (env : Env) (id : Text GW_SETTINGS_CBOR_MAX_ID_LEN) {type : UInt8} {v : Json}
    (h : Fits type v) : Holds (changeOf env id type (some v)) v := by
  cases v with
  | bool b =>
      have htype : type = DS_TYPE_BOOL := h
      refine .inl ⟨htype, congrArg Json.bool ?_⟩
      unfold ChangeRequest.boolVal
      rw [byte_changeOf, htype]
      cases b <;> rfl
  | number q =>
      obtain ⟨htype, n, rfl⟩ := h
      refine .inr (.inl ⟨htype, congrArg Json.number ?_⟩)
      have hvalue : CborCodec.valueint (n.toInt : ℚ) = n.toInt :=
        (Int.cast_inj.mp (CborCodec.intCast_eq_valueint_iff.mpr
          ⟨n.minValue_le_toInt, n.toInt_le⟩)).symm
      have hbytes : valueBytes env type (some (.number n.toInt)) = littleEndian n.toUInt32 := by
        have hbool : type ≠ DS_TYPE_BOOL := by
          rcases htype with rfl | rfl <;> decide
        unfold valueBytes
        rw [if_neg hbool, if_pos htype]
        show littleEndian (Int32.ofInt (CborCodec.valueint n.toInt)).toUInt32 = _
        rw [hvalue, Int32.ofInt_toInt]
      rw [intVal_changeOf hbytes]
  | string s =>
      obtain ⟨htype, hlen, hnul⟩ := h
      have hbytes : valueBytes env type (some (.string s)) = s := by
        rw [htype]
        show (strlcpy DS_CHANGE_UNION_SIZE (s.takeWhile (· ≠ 0))).text = s
        rw [takeWhile_whole hnul, strlcpy_text hlen]
      have hstr : (changeOf env id type (some (.string s))).str = s := str_changeOf hbytes hlen hnul
      refine .inr (.inr ⟨htype, ?_, ?_⟩)
      · rw [hstr]
      · rw [hstr]
        exact hlen
  | null | array items | object members => exact absurd h (by simp [Fits])

variable {c : ChangeRequest} {schema : Option Schema} {id : DeviceId}

/-- What a change holds fits its type. -/
theorem Holds.fits {v : Json} (h : Holds c v) : Fits c.type v := by
  rcases h with ⟨htype, rfl⟩ | ⟨htype, rfl⟩ | ⟨htype, rfl, hlen⟩
  · exact htype
  · exact ⟨htype, c.intVal, rfl⟩
  · exact ⟨htype, hlen, zero_not_mem_takeWhile _⟩

/-! ## What can be rendered -/

theorem exists_forall₂ {α β : Type} {R : α → β → Prop} {l : List α} (h : ∀ a ∈ l, ∃ b, R a b) :
    ∃ l', List.Forall₂ R l l' := by
  induction l with
  | nil => exact ⟨[], .nil⟩
  | cons a l ih =>
      obtain ⟨b, hb⟩ := h a List.mem_cons_self
      obtain ⟨l', hl'⟩ := ih fun a ha => h a (List.mem_cons_of_mem _ ha)
      exact ⟨b :: l', .cons hb hl'⟩

theorem exists_of_forall₂ {α β : Type} {R : α → β → Prop} {l : List α} {l' : List β}
    (h : List.Forall₂ R l l') : ∀ a ∈ l, ∃ b, R a b := by
  induction h with
  | nil => simp
  | cons hab _ ih =>
      rw [List.forall_mem_cons]
      exact ⟨⟨_, hab⟩, ih⟩

/-- **A body can be rendered** exactly if it says for each entry what to set. -/
theorem plain_iff_rendered (env : Env) (schema : Option Schema) (json : Json) :
    Plain schema json ↔ ∃ call, RendersBody schema json call := by
  constructor
  · rintro ⟨⟨entries, hentries, hdefinite⟩, n, hn⟩
    have hrender : ∀ e ∈ entries.filter (fun e => !decide (Keeps e)), ∃ c, Renders schema e c := by
      intro e he
      obtain ⟨hmem, hkeeps⟩ := List.mem_filter.mp he
      have hnot : ¬ Keeps e := by simpa using hkeeps
      obtain ⟨id, hid, hget, s, hs, d, hd, v, hv, hfits⟩ := hdefinite e hmem hnot
      exact ⟨changeOf env id d.type (some v), hid, hget, ⟨s, hs, d, hd, rfl⟩, v, hv,
        holds_changeOf env id hfits⟩
    obtain ⟨changes, hchanges⟩ := exists_forall₂ hrender
    exact ⟨⟨.empty, changes, n⟩, ⟨entries, hentries, hchanges⟩, hn⟩
  · rintro ⟨call, ⟨entries, hentries, hchanges⟩, hn⟩
    refine ⟨⟨entries, hentries, fun e he hnot => ?_⟩, call.expectedRevision, hn⟩
    have hmem : e ∈ entries.filter fun e => !decide (Keeps e) :=
      List.mem_filter.mpr ⟨he, by simp [hnot]⟩
    obtain ⟨c, hid, hget, ⟨s, hs, d, hd, htype⟩, v, hv, hholds⟩ := exists_of_forall₂ hchanges e hmem
    exact ⟨c.settingId, hid, hget, s, hs, d, hd, v, hv, htype ▸ hholds.fits⟩

/-! ## Reading the entries -/

theorem readEntry_skipped_iff {env : Env} {e : Json} :
    readEntry env schema e = .ok none ↔ Skipped e := by
  unfold readEntry Skipped Keeps
  cases hid : settingId e with
  | none => simp
  | some id =>
      cases haction : secretAction e with
      | some action => by_cases hkeep : action = cstr "keep" <;> simp [hkeep]
      | none =>
          cases schema with
          | none => simp
          | some s => cases hd : describes s id.text <;> simp [hd]

theorem readEntry_change_iff {env : Env} {e : Json} :
    readEntry env schema e = .ok (some c) ↔ ReadAs env schema e c := by
  unfold readEntry ReadAs
  cases hid : settingId e with
  | none => simp
  | some id =>
      cases haction : secretAction e with
      | some action => by_cases hkeep : action = cstr "keep" <;> simp [hkeep]
      | none =>
          cases schema with
          | none => simp
          | some s => cases hd : describes s id.text <;> simp [hd, eq_comm]

theorem readEntry_refused_iff {env : Env} {e : Json} :
    (∃ x, readEntry env schema e = .error x ∧ x.status < 500) ↔ EntryRefused schema e := by
  unfold readEntry EntryRefused
  cases hid : settingId e with
  | none => simp
  | some id =>
      cases haction : secretAction e with
      | some action => by_cases hkeep : action = cstr "keep" <;> simp [hkeep, unsupportedAction]
      | none =>
          cases schema with
          | none => simp [schemaUnavailable]
          | some s => cases hd : describes s id.text <;> simp [hd, unknownSetting]

theorem readEntry_readable_iff {env : Env} {e : Json} :
    (∃ c, readEntry env schema e = .ok c) ↔ Readable env schema e := by
  unfold Readable
  constructor
  · rintro ⟨c, hc⟩
    cases c with
    | none => exact .inl (readEntry_skipped_iff.mp hc)
    | some c => exact .inr ⟨c, readEntry_change_iff.mp hc⟩
  · rintro (h | ⟨c, h⟩)
    · exact ⟨none, readEntry_skipped_iff.mpr h⟩
    · exact ⟨some c, readEntry_change_iff.mpr h⟩

section Entries
variable {env : Env} {i : Nat} {e : Json} {es : List Json}

/-- The entries in front of the place are read first. -/
theorem readEntries_cons {c : Option ChangeRequest} (h : readEntry env (env.schemaAt i) e = .ok c) :
    readEntries env i (e :: es) = (readEntries env (i + 1) es).map (c.toList ++ ·) := by
  rw [readEntries, h]

theorem readEntries_error {x : ApiError} (h : readEntry env (env.schemaAt i) e = .error x) :
    readEntries env i (e :: es) = .error x := by
  rw [readEntries, h]

theorem readEntries_readable_iff :
    (∃ cs, readEntries env i es = .ok cs) ↔ EntriesReadable env i es := by
  induction es generalizing i with
  | nil => exact iff_of_true ⟨[], rfl⟩ trivial
  | cons e es ih =>
      rw [EntriesReadable, ← ih, ← readEntry_readable_iff]
      cases hread : readEntry env (env.schemaAt i) e with
      | error x => simp [readEntries_error hread]
      | ok c =>
          rw [readEntries_cons hread]
          cases readEntries env (i + 1) es <;> simp [Except.map]

theorem readEntries_refused_iff :
    (∃ x, readEntries env i es = .error x ∧ x.status < 500) ↔ EntriesRefused env i es := by
  induction es generalizing i with
  | nil => simp [readEntries, EntriesRefused]
  | cons e es ih =>
      have hentry : (∃ x, readEntry env (env.schemaAt i) e = .error x ∧ x.status < 500) ↔
          EntryRefused (env.schemaAt i) e := readEntry_refused_iff
      rw [EntriesRefused, ← ih, ← hentry, ← readEntry_readable_iff]
      cases hread : readEntry env (env.schemaAt i) e with
      | error x => simp [readEntries_error hread]
      | ok c =>
          rw [readEntries_cons hread]
          cases readEntries env (i + 1) es <;> simp [Except.map]

variable {cs : List ChangeRequest} {s : Schema}

/-- What has been read of the entries in front of a place that is read. -/
theorem readEntries_ok_cons (h : readEntries env i (e :: es) = .ok cs) :
    ∃ c cs', readEntry env (env.schemaAt i) e = .ok c ∧ readEntries env (i + 1) es = .ok cs' ∧
      cs = c.toList ++ cs' := by
  cases hread : readEntry env (env.schemaAt i) e with
  | error x =>
      rw [readEntries_error hread] at h
      cases h
  | ok c =>
      rw [readEntries_cons hread] at h
      cases hrest : readEntries env (i + 1) es with
      | error x =>
          rw [hrest] at h
          exact absurd h (by simp [Except.map])
      | ok cs' =>
          rw [hrest] at h
          exact ⟨c, cs', rfl, rfl, (Except.ok.inj h).symm⟩

theorem readEntries_nil_iff (h : readEntries env i es = .ok cs) :
    cs = [] ↔ ∀ e ∈ es, Skipped e := by
  induction es generalizing i cs with
  | nil =>
      cases h
      simp
  | cons e es ih =>
      obtain ⟨c, cs', hread, hrest, rfl⟩ := readEntries_ok_cons h
      have hentry : readEntry env (env.schemaAt i) e = .ok none ↔ Skipped e := readEntry_skipped_iff
      rw [List.forall_mem_cons, ← ih hrest, ← hentry, hread]
      cases c <;> simp

theorem readEntries_invalid_iff (h : readEntries env i es = .ok cs) :
    TxTable.prevalidate (some s) cs = false ↔ SomeInvalid env s i es := by
  induction es generalizing i cs with
  | nil =>
      cases h
      simp [TxTable.prevalidate, SomeInvalid]
  | cons e es ih =>
      obtain ⟨c, cs', hread, hrest, rfl⟩ := readEntries_ok_cons h
      rw [SomeInvalid, ← ih hrest]
      simp only [← readEntry_change_iff, hread]
      cases c with
      | none => simp [TxTable.prevalidate]
      | some c =>
          simp only [TxTable.prevalidate, Option.toList_some, List.singleton_append, List.all_cons,
            Bool.and_eq_false_iff, Except.ok.injEq, Option.some.injEq]
          simp

theorem readEntries_length (h : readEntries env i es = .ok cs) :
    cs.length ≤ es.length := by
  induction es generalizing i cs with
  | nil =>
      cases h
      simp
  | cons e es ih =>
      obtain ⟨c, cs', _, hrest, rfl⟩ := readEntries_ok_cons h
      have hle := ih hrest
      cases c with
      | none | some => simp; omega

end Entries

/-! ## What is read of a definite entry -/

/-- The id of a definite entry is read as it is. -/
theorem settingId_eq {e : Json} {id : Text GW_SETTINGS_CBOR_MAX_ID_LEN} (hne : id.text ≠ [])
    (hget : e.get (cstr "id") = some (.string id.text)) : settingId e = some id := by
  have hwhole := takeWhile_whole id.noNul
  have hfits : id.text.takeWhile (· ≠ 0) ≠ [] ∧
      (id.text.takeWhile (· ≠ 0)).length < GW_SETTINGS_CBOR_MAX_ID_LEN := by
    rw [hwhole]
    exact ⟨hne, id.bounded⟩
  unfold settingId webGetJsonString
  rw [hget]
  dsimp only
  rw [dif_pos hfits]
  congr 3

variable {s : Schema} {cs : List ChangeRequest}

/-- A change that the schema allows has the type of the setting. -/
theorem type_of_prevalidate (h : prevalidateChange (some s) c = true) :
    ∃ d ∈ describes s c.settingId.text, d.type = c.type := by
  unfold prevalidateChange at h
  dsimp only at h
  split at h
  · cases h
  · split at h
    · cases h
    · rename_i d hd
      split at h
      · cases h
      · split at h
        · cases h
        · rename_i htype
          exact ⟨d, hd, not_not.mp htype⟩

theorem renders_of_read {env : Env} {e : Json} (hdefinite : Definite (some s) e)
    (hread : ReadAs env schema e c) (hvalid : prevalidateChange (some s) c = true) :
    Renders (some s) e c := by
  obtain ⟨id, hne, hget, s', hs', d, hd, v, hv, hfits⟩ := hdefinite
  cases hs'
  obtain ⟨id', hid', _, s', _, d', _, rfl⟩ := hread
  have hid : id' = id := Option.some.inj (hid'.symm.trans (settingId_eq hne hget))
  subst hid
  obtain ⟨d'', hd'', htype⟩ := type_of_prevalidate hvalid
  have hsame : d'' = d := Option.some.inj (Eq.trans (Eq.symm hd'') hd)
  subst hsame
  -- the two schemas agree about the type
  have htype' : d''.type = d'.type := htype
  refine ⟨hne, hget, ⟨s, rfl, d'', hd'', htype⟩, v, hv, ?_⟩
  rw [Option.mem_def.mp hv]
  exact holds_changeOf env id' (htype' ▸ hfits)

theorem renders_entries {env : Env} {i : Nat} {es : List Json}
    (hdefinite : ∀ e ∈ es, ¬ Keeps e → Definite (some s) e) (hread : readEntries env i es = .ok cs)
    (hvalid : TxTable.prevalidate (some s) cs = true) :
    List.Forall₂ (Renders (some s)) (es.filter fun e => !decide (Keeps e)) cs := by
  induction es generalizing i cs with
  | nil =>
      cases hread
      exact .nil
  | cons e es ih =>
      obtain ⟨c, cs', hc, hrest, rfl⟩ := readEntries_ok_cons hread
      have htail := ih (fun e he => hdefinite e (List.mem_cons_of_mem _ he)) hrest
      by_cases hkeeps : Keeps e
      · have hskipped : c = none := by
          have h : readEntry env (env.schemaAt i) e = .ok none :=
            readEntry_skipped_iff.mpr (.inr hkeeps)
          exact Except.ok.inj (hc.symm.trans h)
        subst hskipped
        rw [List.filter_cons_of_neg (by simp [hkeeps])]
        exact htail hvalid
      · rw [List.filter_cons_of_pos (by simp [hkeeps])]
        cases c with
        | none =>
            -- a definite entry is not skipped
            obtain ⟨id, hne, hget, _⟩ := hdefinite e List.mem_cons_self hkeeps
            rcases readEntry_skipped_iff.mp hc with h | h
            · rw [settingId_eq hne hget] at h
              cases h
            · exact absurd h hkeeps
        | some c =>
            have hall : prevalidateChange (some s) c = true ∧
                TxTable.prevalidate (some s) cs' = true := by
              simpa [TxTable.prevalidate] using hvalid
            exact .cons (renders_of_read (hdefinite e List.mem_cons_self hkeeps)
              (readEntry_change_iff.mp hc) hall.1) (htail hall.2)

/-! ## The save -/

/-- The answer is a 4xx exactly for the errors of a conflict or of the validation. -/
theorem saveAnswer_refused_iff {env : Env} {r : SaveResult} :
    (∃ x, saveAnswer env r = .error x ∧ x.status < 500) ↔
      r.err = .invalidState ∨ r.err = .invalidArg := by
  unfold saveAnswer
  split
  · rename_i h
    simp [h, activeTransaction]
  · rename_i h
    simp [h, validationFailed]
  · rename_i h
    split <;> simp [h, outOfMemory]
  · rename_i h₁ h₂ h₃
    refine iff_of_false (by simp [saveFailed]) ?_
    rintro (h | h)
    · exact h₁ h
    · exact h₂ h

theorem savedSchema_eq {env : Env} {r : DeviceRecord} (hrecord : env.protocol.recordOf id = some r)
    (hready : r.schemaState = .ready) :
    savedSchema env id = r.schema := by
  unfold savedSchema
  rw [hrecord, Option.filter_some_pos (by simp [hready])]
  rfl

section Save
variable {env : Env} {call : SaveCall} (hid : call.deviceId.text ≠ []) (hsome : call.changes ≠ [])
  (hlen : call.changes.length ≤ DS_TX_MAX_CHANGES)

/-- What becomes of a call of `device_settings_save`. -/
def Env.save (env : Env) (call : SaveCall) : SaveResult :=
  env.txns.save env.protocol call.deviceId call.changes call.expectedRevision 0 0 env.txAlloc
    env.posted

include hid hsome hlen

theorem save_refused_iff :
    (env.save call).err = .invalidState ∨ (env.save call).err = .invalidArg ↔
      (env.txns.find call.deviceId).isSome = true ∨ savedSchema env call.deviceId = none ∨
        (env.txns.alloc.isSome = true ∧ env.txAlloc = true ∧
          ∃ s ∈ savedSchema env call.deviceId,
            TxTable.prevalidate (some s) call.changes = false) := by
  have hcount : ¬ (call.changes = [] ∨ call.changes.length > DS_TX_MAX_CHANGES) := by
    rintro (h | h)
    · exact hsome h
    · omega
  unfold Env.save TxTable.save
  rw [if_neg hid, if_neg hcount]
  split
  · rename_i hactive
    simp [hactive]
  · rename_i hactive
    cases hrecord : env.protocol.recordOf call.deviceId with
    | none => simp [savedSchema, hrecord]
    | some r =>
        by_cases hready : r.schemaState = .ready
        · rw [savedSchema_eq hrecord hready]
          cases hschema : r.schema with
          | none => simp [hready, hschema]
          | some s =>
              cases halloc : env.txns.alloc with
              | none => simp [hactive, hready, hschema]
              | some slot =>
                  obtain ⟨t, k⟩ := slot
                  cases htx : env.txAlloc with
                  | false => simp [hactive, hready, hschema]
                  | true =>
                      cases hvalid : TxTable.prevalidate (some s) call.changes with
                      | false => simp [hready, hschema, hvalid]
                      | true => cases env.posted <;> simp [hactive, hready, hschema, hvalid]
        · have hnone : savedSchema env call.deviceId = none := by
            unfold savedSchema
            rw [hrecord, Option.filter_some_neg (by simp [hready])]
            rfl
          simp [hready, hnone]

/-- What is saved is valid. -/
theorem save_ok (h : (env.save call).err = .ok) :
    ∃ s, savedSchema env call.deviceId = some s ∧
      TxTable.prevalidate (some s) call.changes = true := by
  have hcount : ¬ (call.changes = [] ∨ call.changes.length > DS_TX_MAX_CHANGES) := by
    rintro (h | h)
    · exact hsome h
    · omega
  unfold Env.save TxTable.save at h
  rw [if_neg hid, if_neg hcount] at h
  split at h
  · cases h
  · cases hrecord : env.protocol.recordOf call.deviceId with
    | none =>
        rw [hrecord] at h
        cases h
    | some r =>
        rw [hrecord] at h
        dsimp only at h
        split at h
        · cases h
        · rename_i hready
          obtain ⟨hstate, hschema⟩ := not_or.mp hready
          obtain ⟨s, hs⟩ := Option.ne_none_iff_exists'.mp hschema
          refine ⟨s, (savedSchema_eq hrecord (not_not.mp hstate)).trans hs, ?_⟩
          rw [hs] at h
          cases halloc : env.txns.alloc with
          | none =>
              rw [halloc] at h
              cases h
          | some slot =>
              rw [halloc] at h
              dsimp only at h
              by_contra hinvalid
              rw [Bool.not_eq_true] at hinvalid
              rw [hinvalid] at h
              split at h <;> exact absurd h (by simp)

end Save

/-! ## The handler -/

section Handler
variable {env : Env} {json : Json} {entries : List Json}
  (hentries : getObjectItem json "changes" = some (.array entries))
include hentries

/-- The changes that are passed on, and the entries they come from. -/
theorem readChanges_ok_iff :
    readChanges env json = .ok cs ↔
      (entries ≠ [] ∧ entries.length ≤ DS_TX_MAX_CHANGES) ∧ readEntries env 0 entries = .ok cs ∧
        cs ≠ [] := by
  unfold readChanges
  rw [hentries]
  dsimp only
  by_cases hcount : entries = [] ∨ entries.length > DS_TX_MAX_CHANGES
  · rw [if_pos hcount]
    refine iff_of_false (by simp) ?_
    rintro ⟨⟨hne, hle⟩, _⟩
    rcases hcount with h | h
    · exact hne h
    · omega
  · rw [if_neg hcount]
    have hok : entries ≠ [] ∧ entries.length ≤ DS_TX_MAX_CHANGES := by
      obtain ⟨hne, hle⟩ := not_or.mp hcount
      exact ⟨hne, Nat.le_of_not_lt hle⟩
    cases hread : readEntries env 0 entries with
    | error x => simp
    | ok cs' =>
        cases cs' with
        | nil =>
            refine iff_of_false (by simp) ?_
            rintro ⟨_, heq, hne⟩
            exact hne (Except.ok.inj heq).symm
        | cons c cs' =>
            constructor
            · intro h
              cases h
              exact ⟨hok, rfl, by simp⟩
            · rintro ⟨_, h, _⟩
              exact h

theorem readChanges_refused_iff :
    (∃ x, readChanges env json = .error x ∧ x.status < 500) ↔
      entries = [] ∨ DS_TX_MAX_CHANGES < entries.length ∨ EntriesRefused env 0 entries ∨
        ∀ e ∈ entries, Skipped e := by
  unfold readChanges
  rw [hentries]
  dsimp only
  by_cases hcount : entries = [] ∨ entries.length > DS_TX_MAX_CHANGES
  · rw [if_pos hcount]
    refine iff_of_true ⟨_, rfl, by decide⟩ ?_
    rcases hcount with h | h
    · exact .inl h
    · exact .inr (.inl h)
  · rw [if_neg hcount]
    obtain ⟨hne, hle⟩ := not_or.mp hcount
    rw [or_iff_right hne, or_iff_right hle, ← readEntries_refused_iff]
    cases hread : readEntries env 0 entries with
    | error x =>
        -- an entry that is not read is not skipped
        have hnot : ¬ ∀ e ∈ entries, Skipped e := by
          intro hskipped
          have hreadable : EntriesReadable env 0 entries := by
            clear hentries hcount hne hle hread
            generalize 0 = i
            induction entries generalizing i with
            | nil => trivial
            | cons e es ih =>
                rw [List.forall_mem_cons] at hskipped
                exact ⟨.inl hskipped.1, ih hskipped.2 _⟩
          obtain ⟨cs, hcs⟩ := readEntries_readable_iff.mpr hreadable
          rw [hcs] at hread
          cases hread
        rw [or_iff_left hnot]
    | ok cs =>
        rw [← readEntries_nil_iff hread]
        cases cs with
        | nil => exact iff_of_true ⟨_, rfl, by decide⟩ (.inr rfl)
        | cons c cs => simp

end Handler

/-- The device id of a call is not empty. -/
theorem addressed_ne_nil {json : Json} (h : addressed json = some id) :
    id.text ≠ [] := by
  obtain ⟨text, htext, rfl⟩ := Option.map_eq_some_iff.mp h
  unfold webGetJsonString at htext
  split at htext
  · split at htext
    · rename_i hne
      cases htext
      exact hne.1
    · cases htext
  · cases htext

/-- A call that the handler makes. -/
theorem readRequest_ok {env : Env} {json : Json} {call : SaveCall}
    (h : readRequest env (.ok json) = .ok call) :
    addressed json = some call.deviceId ∧ readChanges env json = .ok call.changes ∧
      ∃ v, getObjectItem json "expected_revision" = some (.number v) ∧
        call.expectedRevision = expectedRevision env v := by
  unfold readRequest at h
  unfold addressed
  dsimp only at h
  split at h
  · cases h
  · cases hid : webGetJsonString json "device_id" DEVICE_ID_MAX_LEN with
    | none =>
        rw [hid] at h
        cases h
    | some id =>
        rw [hid] at h
        dsimp only at h
        split at h
        · cases h
        · split at h
          · cases h
          · split at h
            · rename_i v hv
              cases hchanges : readChanges env json with
              | error x =>
                  rw [hchanges] at h
                  exact absurd h (by simp [Except.map])
              | ok cs =>
                  rw [hchanges] at h
                  cases h
                  exact ⟨rfl, rfl, v, hv, rfl⟩
            · cases h

/-- The call for a device that is known and ready. -/
theorem readRequest_eq {env : Env} {json : Json} {v : ℚ} (hobject : json.isObject = true)
    (hid : addressed json = some id) (hknown : env.deviceKnown id = true)
    (hready : env.schemaReady id = true)
    (hrevision : getObjectItem json "expected_revision" = some (.number v)) :
    readRequest env (.ok json) =
      (readChanges env json).map fun changes => ⟨id, changes, expectedRevision env v⟩ := by
  obtain ⟨text, htext, rfl⟩ := Option.map_eq_some_iff.mp hid
  unfold readRequest
  simp [hobject, htext, hknown, hready, hrevision]

/-- A request that does not get as far as its changes. -/
theorem readRequest_early {env : Env} {json : Json}
    (h : json.isObject = false ∨ addressed json = none ∨ ∃ id ∈ addressed json,
      env.deviceKnown id = false ∨ env.schemaReady id = true ∧
        ∀ v, getObjectItem json "expected_revision" ≠ some (.number v)) :
    ∃ x, readRequest env (.ok json) = .error x ∧ x.status < 500 := by
  unfold readRequest
  dsimp only
  cases hobject : json.isObject with
  | false => exact ⟨_, rfl, by decide⟩
  | true =>
      rw [hobject] at h
      have h := h.resolve_left (by simp)
      unfold addressed at h
      cases htext : webGetJsonString json "device_id" DEVICE_ID_MAX_LEN with
      | none => exact ⟨_, rfl, by decide⟩
      | some text =>
          rw [htext] at h
          obtain ⟨id, hid, h⟩ := h.resolve_left (by simp)
          cases hid
          rcases h with hunknown | ⟨hready, hrevision⟩
          · exact ⟨deviceNotFound, by simp [hunknown], by decide⟩
          · cases hknown : env.deviceKnown text.toCharBuf with
            | false => exact ⟨deviceNotFound, by simp [hknown], by decide⟩
            | true =>
                refine ⟨missingRevision, ?_, by decide⟩
                simp only [Bool.not_true, Bool.false_eq_true, if_false, hknown, hready]

/-- A request for a device whose settings are not ready. -/
theorem readRequest_notReady {env : Env} {json : Json} (hobject : json.isObject = true)
    (hid : addressed json = some id) (hknown : env.deviceKnown id = true)
    (hready : env.schemaReady id = false) :
    readRequest env (.ok json) = .error settingsNotReady := by
  obtain ⟨text, htext, rfl⟩ := Option.map_eq_some_iff.mp hid
  unfold readRequest
  simp [hobject, htext, hknown, hready]

theorem settingsPut_refused_of_read {env : Env} {json : Json}
    (h : ∃ x, readRequest env (.ok json) = .error x ∧ x.status < 500) :
    ∃ x, (settingsPut env (.ok json)).answer = .error x ∧ x.status < 500 := by
  obtain ⟨x, hx, hstatus⟩ := h
  refine ⟨x, ?_, hstatus⟩
  unfold settingsPut
  rw [hx]

/-- From the changes on. -/
theorem changes_refused_iff {env : Env} {json : Json} {v : ℚ} (hobject : json.isObject = true)
    (hid : addressed json = some id) (hknown : env.deviceKnown id = true)
    (hready : env.schemaReady id = true)
    (hrevision : getObjectItem json "expected_revision" = some (.number v)) :
    (∃ x, (settingsPut env (.ok json)).answer = .error x ∧ x.status < 500) ↔
      (∀ entries, getObjectItem json "changes" ≠ some (.array entries)) ∨
        ∃ entries, getObjectItem json "changes" = some (.array entries) ∧
          ChangesRefused env id entries := by
  have hread := readRequest_eq hobject hid hknown hready hrevision
  by_cases harray : ∃ entries, getObjectItem json "changes" = some (.array entries)
  · obtain ⟨entries, hentries⟩ := harray
    rw [or_iff_right (fun h => h entries hentries)]
    simp only [hentries, Option.some.injEq, Json.array.injEq, exists_eq_left']
    unfold ChangesRefused
    have hrefused : (∃ x, readChanges env json = .error x ∧ x.status < 500) ↔ _ :=
      readChanges_refused_iff hentries
    cases hchanges : readChanges env json with
    | error x =>
        rw [hchanges] at hread hrefused
        have hanswer : (settingsPut env (.ok json)).answer = .error x := by
          unfold settingsPut
          rw [hread]
          rfl
        have hnot : EntriesReadable env 0 entries → entries = [] ∨
            DS_TX_MAX_CHANGES < entries.length ∨ EntriesRefused env 0 entries ∨
              ∀ e ∈ entries, Skipped e := by
          -- entries that can be read have been refused for their number or as no change
          intro hreadable
          obtain ⟨cs, hcs⟩ := readEntries_readable_iff.mpr hreadable
          by_contra hall
          obtain ⟨hne, hrest⟩ := not_or.mp hall
          obtain ⟨hle, hrest⟩ := not_or.mp hrest
          obtain ⟨_, hskipped⟩ := not_or.mp hrest
          have hok : readChanges env json = .ok cs :=
            (readChanges_ok_iff hentries).mpr ⟨⟨hne, Nat.le_of_not_lt hle⟩, hcs,
              fun hnil => hskipped ((readEntries_nil_iff hcs).mp hnil)⟩
          rw [hchanges] at hok
          cases hok
        have hsame : (∃ y, (settingsPut env (.ok json)).answer = .error y ∧ y.status < 500) ↔
            ∃ y, (Except.error x : Except ApiError (List ChangeRequest)) = .error y ∧
              y.status < 500 := by
          rw [hanswer]
          simp
        rw [hsame, hrefused]
        constructor
        · rintro (h | h | h | h)
          · exact .inl h
          · exact .inr (.inl h)
          · exact .inr (.inr (.inl h))
          · exact .inr (.inr (.inr (.inl h)))
        · rintro (h | h | h | h | ⟨hreadable, _⟩)
          · exact .inl h
          · exact .inr (.inl h)
          · exact .inr (.inr (.inl h))
          · exact .inr (.inr (.inr h))
          · exact hnot hreadable
    | ok cs =>
        rw [hchanges] at hread hrefused
        obtain ⟨⟨hne, hle⟩, hcs, hsome⟩ := (readChanges_ok_iff hentries).mp hchanges
        have hanswer : (settingsPut env (.ok json)).answer =
            saveAnswer env (env.save ⟨id, cs, expectedRevision env v⟩) := by
          unfold settingsPut
          rw [hread]
          rfl
        have hlen : cs.length ≤ DS_TX_MAX_CHANGES := Nat.le_trans (readEntries_length hcs) hle
        have hsave := @save_refused_iff env ⟨id, cs, expectedRevision env v⟩
          (addressed_ne_nil hid) hsome hlen
        have hearly := hrefused.not.mp (by simp)
        obtain ⟨h₁, hearly⟩ := not_or.mp hearly
        obtain ⟨h₂, hearly⟩ := not_or.mp hearly
        obtain ⟨h₃, h₄⟩ := not_or.mp hearly
        rw [hanswer, saveAnswer_refused_iff, hsave, or_iff_right h₁, or_iff_right h₂,
          or_iff_right h₃, or_iff_right h₄, and_iff_right (readEntries_readable_iff.mp ⟨cs, hcs⟩)]
        unfold SaveRefused
        simp only [readEntries_invalid_iff hcs]
  · have hno : ∀ entries, getObjectItem json "changes" ≠ some (.array entries) :=
      fun entries h => harray ⟨entries, h⟩
    refine iff_of_true ?_ (.inl hno)
    have hmissing : readChanges env json = .error missingChanges := by
      unfold readChanges
      split
      · rename_i entries h
        exact absurd h (hno entries)
      · rfl
    rw [hmissing] at hread
    exact settingsPut_refused_of_read ⟨missingChanges, hread, by decide⟩

/-- **The answer is a 4xx** exactly where one of the checks refuses the request. -/
theorem settingsPut_refused_iff (env : Env) (json : Json) :
    (∃ x, (settingsPut env (.ok json)).answer = .error x ∧ x.status < 500) ↔ Refused env json := by
  unfold Refused
  cases hobject : json.isObject with
  | false =>
      exact iff_of_true (settingsPut_refused_of_read (readRequest_early (.inl hobject))) (.inl rfl)
  | true =>
      rw [or_iff_right (by simp)]
      cases hid : addressed json with
      | none =>
          exact iff_of_true
            (settingsPut_refused_of_read (readRequest_early (.inr (.inl hid)))) (.inl rfl)
      | some id =>
          rw [or_iff_right (by simp)]
          simp only [Option.mem_def, Option.some.injEq, exists_eq_left']
          cases hknown : env.deviceKnown id with
          | false =>
              exact iff_of_true (settingsPut_refused_of_read
                (readRequest_early (.inr (.inr ⟨id, hid, .inl hknown⟩)))) (.inl rfl)
          | true =>
              rw [or_iff_right (by simp)]
              cases hready : env.schemaReady id with
              | false =>
                  unfold settingsPut
                  rw [readRequest_notReady hobject hid hknown hready]
                  simp [settingsNotReady]
              | true =>
                  rw [and_iff_right rfl]
                  by_cases hrevision :
                    ∃ v, getObjectItem json "expected_revision" = some (.number v)
                  · obtain ⟨v, hv⟩ := hrevision
                    rw [or_iff_right (fun h => h v hv)]
                    exact changes_refused_iff hobject hid hknown hready hv
                  · have hno : ∀ v, getObjectItem json "expected_revision" ≠ some (.number v) :=
                      fun v hv => hrevision ⟨v, hv⟩
                    exact iff_of_true (settingsPut_refused_of_read (readRequest_early
                      (.inr (.inr ⟨id, hid, .inr ⟨hready, hno⟩⟩)))) (.inl hno)

/-- Every error of the handler is a 4xx or a 5xx. -/
theorem readRequest_error {env : Env} {json : Json} {x : ApiError}
    (h : readRequest env (.ok json) = .error x) : 400 ≤ x.status := by
  have hentry : ∀ schema e y, readEntry env schema e = .error y → 400 ≤ y.status := by
    intro schema e y hy
    unfold readEntry at hy
    repeat' split at hy
    all_goals cases hy
    all_goals decide
  have hentries : ∀ es i y, readEntries env i es = .error y → 400 ≤ y.status := by
    intro es
    induction es with
    | nil => exact fun i y hy => absurd hy (by simp [readEntries])
    | cons e es ih =>
        intro i y hy
        cases hread : readEntry env (env.schemaAt i) e with
        | error z =>
            rw [readEntries_error hread] at hy
            cases hy
            exact hentry _ e _ hread
        | ok c =>
            rw [readEntries_cons hread] at hy
            cases hrest : readEntries env (i + 1) es with
            | error z =>
                rw [hrest] at hy
                cases hy
                exact ih (i + 1) _ hrest
            | ok cs =>
                rw [hrest] at hy
                exact absurd hy (by simp [Except.map])
  have hchanges : ∀ y, readChanges env json = .error y → 400 ≤ y.status := by
    intro y hy
    unfold readChanges at hy
    split at hy
    · split at hy
      · cases hy
        decide
      · split at hy
        · rename_i hread
          cases hy
          exact hentries _ 0 _ hread
        · cases hy
          decide
        · cases hy
    · cases hy
      decide
  unfold readRequest at h
  dsimp only at h
  repeat' split at h
  all_goals try (cases h; decide)
  cases hread : readChanges env json with
  | error y =>
      rw [hread] at h
      cases h
      exact hchanges _ hread
  | ok cs =>
      rw [hread] at h
      exact absurd h (by simp [Except.map])

theorem settingsPut_cases (env : Env) (json : Json) :
    (∃ x, readRequest env (.ok json) = .error x ∧
        settingsPut env (.ok json) = { answer := .error x }) ∨
      ∃ call, readRequest env (.ok json) = .ok call ∧ settingsPut env (.ok json) =
        { answer := saveAnswer env (env.save call), saved := some (call, env.save call) } := by
  cases h : readRequest env (.ok json) with
  | error x =>
      refine .inl ⟨x, rfl, ?_⟩
      unfold settingsPut
      rw [h]
  | ok call =>
      refine .inr ⟨call, rfl, ?_⟩
      unfold settingsPut
      rw [h]
      rfl

theorem saveAnswer_error {env : Env} {r : SaveResult} {x : ApiError}
    (h : saveAnswer env r = .error x) : 400 ≤ x.status := by
  unfold saveAnswer at h
  repeat' split at h
  all_goals cases h
  all_goals decide

/-- What is accepted has been saved. -/
theorem accepted_saved {env : Env} {json : Json} (h : (settingsPut env (.ok json)).status = 202) :
    ∃ call, readRequest env (.ok json) = .ok call ∧ (env.save call).err = .ok ∧
      (settingsPut env (.ok json)).saved = some (call, env.save call) := by
  rcases settingsPut_cases env json with ⟨x, hread, hput⟩ | ⟨call, hread, hput⟩
  · have hle := readRequest_error hread
    rw [hput] at h
    have heq : x.status = 202 := h
    omega
  · refine ⟨call, hread, ?_, by rw [hput]⟩
    rw [hput] at h
    cases hanswer : saveAnswer env (env.save call) with
    | error x =>
        have hle := saveAnswer_error hanswer
        have heq : x.status = 202 := by simpa [Outcome.status, hanswer] using h
        omega
    | ok id =>
        unfold saveAnswer at hanswer
        split at hanswer
        · cases hanswer
        · cases hanswer
        · assumption
        · cases hanswer

/-- A refused request is answered with a 4xx, and nothing is submitted. -/
theorem refused_spec {env : Env} {json : Json} (h : Refused env json) :
    400 ≤ (settingsPut env (.ok json)).status ∧ (settingsPut env (.ok json)).status < 500 ∧
      ∀ y ∈ (settingsPut env (.ok json)).saved, y.2.err ≠ .ok := by
  obtain ⟨x, hanswer, hlt⟩ := (settingsPut_refused_iff env json).mpr h
  have hstatus : (settingsPut env (.ok json)).status = x.status := by
    unfold Outcome.status
    rw [hanswer]
  rw [hstatus]
  rcases settingsPut_cases env json with ⟨y, hread, hput⟩ | ⟨call, hread, hput⟩
  · rw [hput] at hanswer
    cases hanswer
    refine ⟨readRequest_error hread, hlt, ?_⟩
    rw [hput]
    simp
  · rw [hput] at hanswer
    refine ⟨saveAnswer_error hanswer, hlt, ?_⟩
    rw [hput]
    intro y hy
    cases hy
    rcases saveAnswer_refused_iff.mp ⟨x, hanswer, hlt⟩ with h | h
    · rw [h]
      simp
    · rw [h]
      simp

/-- What is accepted of a plain body is what the body says. -/
theorem accepted_rendered {env : Env} {json : Json} {call : SaveCall}
    (hplain : Plain (bodySchema env json) json) (hread : readRequest env (.ok json) = .ok call)
    (hok : (env.save call).err = .ok) : RendersBody (bodySchema env json) json call := by
  obtain ⟨⟨entries, hentries, hdefinite⟩, n, hn⟩ := hplain
  obtain ⟨hid, hchanges, v, hv, hrevision⟩ := readRequest_ok hread
  obtain ⟨⟨_, hle⟩, hcs, hsome⟩ := (readChanges_ok_iff hentries).mp hchanges
  have hlen : call.changes.length ≤ DS_TX_MAX_CHANGES := Nat.le_trans (readEntries_length hcs) hle
  obtain ⟨s, hs, hvalid⟩ := save_ok (addressed_ne_nil hid) hsome hlen hok
  have hschema : bodySchema env json = some s := by
    unfold bodySchema
    rw [hid]
    exact hs
  rw [hschema] at hdefinite ⊢
  refine ⟨⟨entries, hentries, renders_entries hdefinite hcs hvalid⟩, ?_⟩
  -- the number is a `uint32_t`, and its conversion leaves it alone
  have hvn : v = ((n.toNat : Int) : ℚ) := by
    have h := Option.some.inj (hv.symm.trans hn)
    simpa using h
  have htruncate : CborCodec.truncate v = n.toNat := by
    rw [hvn]
    exact CborCodec.truncate_intCast _
  have hexact : expectedRevision env v = n := by
    have hbound : 0 ≤ (n.toNat : Int) ∧ (n.toNat : Int) < 2 ^ 32 := by
      have hlt := n.toNat_lt
      omega
    unfold expectedRevision
    rw [htruncate, if_pos hbound, Int.toNat_natCast, UInt32.ofNat_toNat]
  rw [hrevision, hexact]
  exact hn

/-- **The settings PUT is faithful** exactly for the bodies that say for each entry what to set, and
for those that one of its checks refuses. -/
theorem faithful_iff (env : Env) (json : Json) :
    Faithful env json ↔ Plain (bodySchema env json) json ∨ Refused env json := by
  constructor
  · rintro ⟨_, hrefuses⟩
    by_cases hplain : Plain (bodySchema env json) json
    · exact .inl hplain
    · right
      have hnone : ∀ call, ¬ RendersBody (bodySchema env json) json call := fun call hcall =>
        hplain ((plain_iff_rendered env _ json).mpr ⟨call, hcall⟩)
      obtain ⟨hle, hlt, _⟩ := hrefuses hnone
      rw [← settingsPut_refused_iff]
      unfold Outcome.status at hle hlt
      split at hle
      · omega
      · rename_i x hanswer
        rw [hanswer] at hlt
        exact ⟨x, hanswer, hlt⟩
  · rintro (hplain | hrefused)
    · constructor
      · intro haccepted
        obtain ⟨call, hread, hok, hsaved⟩ := accepted_saved haccepted
        exact ⟨_, hsaved, accepted_rendered hplain hread hok⟩
      · intro hnone
        obtain ⟨call, hcall⟩ := (plain_iff_rendered env _ json).mp hplain
        exact absurd hcall (hnone call)
    · have hspec := refused_spec hrefused
      refine ⟨fun haccepted => ?_, fun _ => hspec⟩
      rw [haccepted] at hspec
      omega

/-! ## A switch that is set to a text -/

/-- One writable switch with the id `a`. -/
def switchSchema : Schema where
  schemaRevision := 1
  descriptors := [{ idOff := 4, type := DS_TYPE_BOOL, flags := DS_FLAG_WRITABLE }]
  enumOptionPool := []
  strings := ⟨[0, 0, 0, 0, 97, 0, 0, 0], DEVICE_SETTINGS_MAX_STRING_POOL⟩

/-- A gateway that knows the lamp and its switch. -/
def switchEnv : Env where
  deviceKnown := fun _ => true
  schemaReady := fun _ => true
  schemaAt := fun _ => some switchSchema
  protocol :=
    { records := fun i =>
        if i = 0 then
          { used := true
            deviceId := ⟨cstr "lamp", by decide⟩
            schemaState := .ready
            schema := some switchSchema }
        else {} }
  txns := {}
  floatBits := fun _ => 0
  toUint32 := fun _ => 0

/-- `"on"` for the switch. -/
def switchBody : Json :=
  .object [(cstr "device_id", .string (cstr "lamp")), (cstr "expected_revision", .number 7),
    (cstr "changes", .array [.object [(cstr "id", .string (cstr "a")),
      (cstr "value", .string (cstr "on"))]])]

set_option maxRecDepth 10000 in
/-- The switch is turned off, and the answer is 202. -/
theorem not_faithful : ¬ ∀ env json, Faithful env json := by
  intro h
  have hstatus : (settingsPut switchEnv (.ok switchBody)).status = 202 := by decide +kernel
  obtain ⟨x, _, ⟨entries, hentries, hrendered⟩, _⟩ := (h switchEnv switchBody).1 hstatus
  have hentry : entries = [.object [(cstr "id", .string (cstr "a")),
      (cstr "value", .string (cstr "on"))]] := by
    have hmember : getObjectItem switchBody "changes" = some (.array [.object
        [(cstr "id", .string (cstr "a")), (cstr "value", .string (cstr "on"))]]) := rfl
    have heq := Option.some.inj (hmember.symm.trans hentries)
    exact (Json.array.inj heq).symm
  have hkept : (.object [(cstr "id", .string (cstr "a")), (cstr "value", .string (cstr "on"))])
      ∈ entries.filter fun e => !decide (Keeps e) := by
    rw [hentry]
    exact List.mem_filter.mpr ⟨List.mem_cons_self, by decide +kernel⟩
  obtain ⟨c, _, hid, ⟨s, hs, d, hd, htype⟩, v, hv, hholds⟩ := exists_of_forall₂ hrendered _ hkept
  -- a text is no value of a switch
  have htext : c.settingId.text = cstr "a" := by
    have heq := Option.some.inj hid
    exact (Json.string.inj heq).symm
  have hvalue : v = .string (cstr "on") := (Option.some.inj hv).symm
  subst hvalue
  have hstring : c.type = DS_TYPE_STRING := (Holds.fits hholds).1
  have hschema : bodySchema switchEnv switchBody = some switchSchema := by decide +kernel
  rw [hschema] at hs
  cases hs
  rw [htext] at hd
  have hbool : d.type = DS_TYPE_BOOL := by
    have hfound : describes switchSchema (cstr "a") =
        some { idOff := 4, type := DS_TYPE_BOOL, flags := DS_FLAG_WRITABLE } := by decide +kernel
    cases Option.some.inj (hfound.symm.trans hd)
    rfl
  rw [htype, hstring] at hbool
  exact absurd hbool (by decide)

end BleGateway.WebServer
