import BleGateway.Settings.Delivery

/-! # What a values snapshot keeps of the secrets

Two values streams that differ in the payloads of the secret settings only are compared by the
snapshots they commit. The raw value of a secret is overwritten as a `bool`, the lowest byte of
the union; the upper bytes of a secret number stay.
-/

namespace BleGateway.Settings

open Protocol

/-! ## Frames that differ in secrets -/

/-- The frame is about a setting that the schema flags SECRET. -/
def isSecretFrame (schema : Option Schema) (msg : Message) : Bool :=
  match msg.id?.bind fun settingId => findDescriptor schema settingId.text with
  | some desc => desc.isSecret
  | none => false

/-- The frames are the same except for the payload of a secret setting. -/
def SamePublic (schema : Option Schema) (f f' : Frame) : Prop :=
  f' = { f with msg := { f.msg with settingValue := f'.msg.settingValue } } ∧
    (isSecretFrame schema f.msg = false → f'.msg.settingValue = f.msg.settingValue)

/-- The upper three bytes of the number that a frame carries. -/
def upperBytes (msg : Message) : Option UInt32 :=
  msg.settingValue.map fun v => v.asInt.toUInt32 &&& 0xFFFFFF00

/-- **The condition**: frames with a secret number agree in its upper three bytes. -/
def UpperBytesAgree (schema : Option Schema) (f f' : Frame) : Prop :=
  f.msg.settingType = some DS_TYPE_INT → isSecretFrame schema f.msg = true →
    upperBytes f'.msg = upperBytes f.msg

/-! ## Two values -/

variable {p : Protocol} {id : DeviceId} {msg : Message} {v : Values} {r : DeviceRecord}
  {stream stream' : ValuesStream}

/-- What is stored of an entered value. -/
def storedEntry (desc : SettingDesc) (entry : ValueEntry) : ValueEntry :=
  if desc.isSecret then { entry with hasValue := false }.setBool false else entry

/-- The steps of an accepted value. -/
theorem acceptValue_steps (h : acceptValue r stream msg = some stream') :
    ∃ settingId type value desc pool idOff later entry,
      msg.id? = some settingId ∧ msg.settingType = some type ∧ msg.settingValue = some value ∧
      findDescriptor r.schema settingId.text = some desc ∧
      stream.builder.stringPool.add settingId.text = some (pool, idOff) ∧
      enterValue r.schema desc pool { idOff, type, hasValue := !desc.isSecret } type value =
        some (later, entry) ∧
      stream' = { stream with builder := { stream.builder with
        stringPool := later
        entries := stream.builder.entries ++ [storedEntry desc entry] } } := by
  simp only [acceptValue, Option.bind_eq_bind, Option.bind_eq_some_iff, Option.guard_eq_some',
    Option.pure_def, Option.some.injEq, exists_const, Prod.exists] at h
  obtain ⟨sequence, _, settingId, hid, type, htype, value, hvalue, _, _, desc, hdesc, _, pool,
    idOff, hadd, later, entry, henter, b, hb, rfl⟩ := h
  refine ⟨settingId, type, value, desc, pool, idOff, later, entry, hid, htype, hvalue, hdesc,
    hadd, henter, ?_⟩
  rw [ValuesBuilder.add_spec hb]
  rfl

theorem upperBytes_enum (v : UInt8) : v.toUInt32 &&& 0xFFFFFF00 = 0 := by
  have h : ∀ x : Fin 256, (UInt8.ofFin x).toUInt32 &&& 0xFFFFFF00 = 0 := by decide +kernel
  exact h v.toFin

/-- Clearing the lowest byte. -/
theorem setBool_false (e : ValueEntry) :
    e.setBool false = { e with value := e.value &&& 0xFFFFFF00 } := by
  rw [ValueEntry.setBool, if_neg (by simp), UInt32.or_zero]

theorem upperBytes_bool (v : Bool) :
    ((0 : UInt32) &&& 0xFFFFFF00 ||| if v = true then 1 else 0) &&& 0xFFFFFF00 = 0 := by
  cases v with
  | true => decide
  | false => decide

variable {schema : Option Schema}

/-- **What is left of a secret**: nothing goes to the pool, and of the union only the upper
bytes of a number stay. -/
theorem enterValue_secret {desc : SettingDesc} {pool later : StringPool} {idOff : Nat}
    {type : UInt8} {value : SettingValue} {entry : ValueEntry} (hsecret : desc.isSecret = true)
    (h : enterValue schema desc pool { idOff, type, hasValue := !desc.isSecret } type value =
      some (later, entry)) :
    later = pool ∧ storedEntry desc entry =
      { idOff, type, hasValue := false,
        value := if type = DS_TYPE_INT then value.asInt.toUInt32 &&& 0xFFFFFF00 else 0 } := by
  rw [storedEntry, if_pos hsecret, setBool_false]
  rw [hsecret, enterValue] at h
  by_cases hbool : type = DS_TYPE_BOOL
  · rw [if_pos hbool] at h
    cases h
    have hint : type ≠ DS_TYPE_INT := by rw [hbool]; decide
    refine ⟨rfl, ?_⟩
    rw [if_neg hint, ValueEntry.setBool]
    dsimp only
    rw [upperBytes_bool]
  rw [if_neg hbool] at h
  by_cases hint : type = DS_TYPE_INT
  · rw [if_pos hint] at h
    cases h
    refine ⟨rfl, ?_⟩
    rw [if_pos hint]
    rfl
  rw [if_neg hint] at h
  rw [if_neg hint]
  by_cases hstring : type = DS_TYPE_STRING
  · rw [if_pos hstring] at h
    split at h
    · cases h
    · -- a secret text is not stored
      cases h
      refine ⟨rfl, ?_⟩
      dsimp only
      rw [UInt32.zero_and]
  rw [if_neg hstring] at h
  split at h
  · split at h
    · cases h
      refine ⟨rfl, ?_⟩
      rw [ValueEntry.setEnum]
      dsimp only
      rw [upperBytes_enum]
    · cases h
  · cases h

/-- `stream'` differs from `stream` in its entries at most. -/
structure Twins (stream stream' : ValuesStream) : Prop where
  same : stream' = { stream with
    builder := { stream.builder with entries := stream'.builder.entries } }
  length : stream'.builder.entries.length = stream.builder.entries.length

/-- **Two runs over one value.** -/
theorem acceptValue_twins {stream₁ stream₂ stream₁' stream₂' : ValuesStream} {f f' : Frame}
    (htwins : Twins stream₁ stream₂) (hrel : SamePublic r.schema f f')
    (h : acceptValue r stream₁ f.msg = some stream₁')
    (h' : acceptValue r stream₂ f'.msg = some stream₂') :
    Twins stream₁' stream₂' ∧
      (stream₂'.builder.entries = stream₁'.builder.entries ↔
        stream₂.builder.entries = stream₁.builder.entries ∧ UpperBytesAgree r.schema f f') := by
  obtain ⟨settingId, type, value, desc, pool, idOff, later, entry, hid, hty, hval, hdesc, hadd,
    henter, rfl⟩ := acceptValue_steps h
  obtain ⟨settingId', type', value', desc', pool', idOff', later', entry', hid', hty', hval',
    hdesc', hadd', henter', rfl⟩ := acceptValue_steps h'
  -- the two frames agree in all that is public
  have hmsg := congrArg Frame.msg hrel.1
  have hideq : f'.msg.id? = f.msg.id? := by rw [hmsg]; rfl
  have htyeq : f'.msg.settingType = f.msg.settingType := by rw [hmsg]
  obtain rfl : settingId' = settingId := Option.some.inj (hid'.symm.trans (hideq.trans hid))
  obtain rfl : type' = type := Option.some.inj (hty'.symm.trans (htyeq.trans hty))
  obtain rfl : desc' = desc := Option.some.inj (hdesc'.symm.trans hdesc)
  have hpool : stream₂.builder.stringPool = stream₁.builder.stringPool := by rw [htwins.same]
  rw [hpool] at hadd'
  obtain ⟨rfl, rfl⟩ := Prod.mk.inj (Option.some.inj (hadd'.symm.trans hadd))
  have hsecretFrame : isSecretFrame r.schema f.msg = desc'.isSecret := by
    rw [isSecretFrame, hid, Option.bind_some, hdesc]
  -- the pools agree, and the entries just when the upper bytes do
  have hstored : later' = later ∧ (storedEntry desc' entry' = storedEntry desc' entry ↔
      UpperBytesAgree r.schema f f') := by
    cases hsecret : desc'.isSecret with
    | false =>
        have hvaleq := hrel.2 (hsecretFrame.trans hsecret)
        obtain rfl : value' = value := Option.some.inj (hval'.symm.trans (hvaleq.trans hval))
        obtain ⟨rfl, rfl⟩ := Prod.mk.inj (Option.some.inj (henter'.symm.trans henter))
        refine ⟨rfl, iff_of_true rfl fun _ hs => ?_⟩
        cases (hsecretFrame.trans hsecret).symm.trans hs
    | true =>
        obtain ⟨rfl, hentry⟩ := enterValue_secret hsecret henter
        obtain ⟨rfl, hentry'⟩ := enterValue_secret hsecret henter'
        refine ⟨rfl, ?_⟩
        rw [hentry, hentry', UpperBytesAgree, hty, upperBytes, upperBytes, hval, hval',
          Option.map_some, Option.map_some]
        by_cases hint : type' = DS_TYPE_INT
        · simp [hint, hsecretFrame, hsecret]
        · simp [hint]
  obtain ⟨rfl, hiff⟩ := hstored
  refine ⟨⟨?_, ?_⟩, ?_⟩
  · rw [htwins.same]
  · rw [List.length_append, List.length_append, htwins.length]
    rfl
  · rw [← hiff]
    constructor
    · intro happ
      obtain ⟨hold, hnew⟩ := List.append_inj happ htwins.length
      exact ⟨hold, List.head_eq_of_cons_eq hnew⟩
    · rintro ⟨hold, hnew⟩
      rw [hold, hnew]

/-! ## Two streams -/

/-- Two runs over all values: what is built differs just where the upper bytes of a secret
number do. -/
theorem acceptValues_twins {stream₁ stream₂ stream₁' stream₂' : ValuesStream}
    {values values' : List Frame} (hrel : List.Forall₂ (SamePublic r.schema) values values')
    (htwins : Twins stream₁ stream₂) (h : acceptValues r stream₁ values = some stream₁')
    (h' : acceptValues r stream₂ values' = some stream₂') :
    Twins stream₁' stream₂' ∧
      (stream₂'.builder.entries = stream₁'.builder.entries ↔
        stream₂.builder.entries = stream₁.builder.entries ∧
          List.Forall₂ (UpperBytesAgree r.schema) values values') := by
  induction values generalizing r values' stream₁ stream₂ with
  | nil =>
      obtain rfl := List.forall₂_nil_left_iff.mp hrel
      cases h
      cases h'
      exact ⟨htwins, (and_iff_left List.Forall₂.nil).symm⟩
  | cons f fs ih =>
      obtain ⟨f', fs', hf, hfs, rfl⟩ := List.forall₂_cons_left_iff.mp hrel
      obtain ⟨next₁, hacc, hrest⟩ := Option.bind_eq_some_iff.mp h
      obtain ⟨next₂, hacc', hrest'⟩ := Option.bind_eq_some_iff.mp h'
      obtain ⟨hnext, hiff⟩ := acceptValue_twins htwins hf hacc hacc'
      obtain ⟨hlast, hiffs⟩ := ih (r := { r with
        stagingReceivedCount := r.stagingReceivedCount + 1 }) hfs hnext hrest hrest'
      refine ⟨hlast, ?_⟩
      rw [hiffs, hiff, List.forall₂_cons, and_assoc]

/-- A begin keeps the schema of the device. -/
theorem handleValuesBegin_schema (p : Protocol) (id : DeviceId) (msg : Message) (alloc : Bool) :
    ((p.handleValuesBegin id msg alloc).1.recordOf id).bind (·.schema) =
      (p.recordOf id).bind (·.schema) := by
  rcases handleValuesBegin_cases p id msg alloc with
    hsame | ⟨i, schema, requestId, revision, expected, hi, hschema, hopen⟩
  · rw [hsame]
  · obtain ⟨_, hu, hkey⟩ := findRecord_spec hi
    rw [hopen, recordOf_of_find hi, Option.bind_some]
    exact committedSchema _ hi (r := (p.records i).openValues expected) rfl hu hkey

theorem SamePublic.type {f f' : Frame} (h : SamePublic schema f f') :
    f'.msg.type = f.msg.type := by
  rw [congrArg Frame.msg h.1]

/-- The frames of both streams are values. -/
theorem values_of_same {values values' : List Frame}
    (hrel : List.Forall₂ (SamePublic schema) values values')
    (h : ∀ f ∈ values, f.msg.type = .valuesValue) :
    ∀ f' ∈ values', f'.msg.type = .valuesValue := by
  induction hrel with
  | nil => exact h
  | cons hf _ ih =>
      intro g hg
      rcases List.mem_cons.mp hg with rfl | hg
      · exact hf.type.trans (h _ (List.mem_cons_self ..))
      · exact ih (fun f hmem => h f (List.mem_cons_of_mem _ hmem)) g hg

/-- **Secrets in a values snapshot.** Two streams that differ in the payloads of secret settings
only, and that are both committed, give the same snapshot just when their secret numbers agree
in the upper three bytes. -/
theorem snapshots_eq_iff (p : Protocol) (id : DeviceId) (opening closing : Frame)
    {values values' : List Frame} {v v' : Values}
    (hopening : opening.msg.type = .valuesBegin) (hclosing : closing.msg.type = .valuesEnd)
    (hvalues : ∀ f ∈ values, f.msg.type = .valuesValue)
    (hrel : List.Forall₂ (SamePublic ((p.recordOf id).bind (·.schema))) values values')
    (hc : .commitValues id v ∈ (p.deliver id (opening :: (values ++ [closing]))).2)
    (hc' : .commitValues id v' ∈ (p.deliver id (opening :: (values' ++ [closing]))).2) :
    v' = v ↔
      List.Forall₂ (UpperBytesAgree ((p.recordOf id).bind (·.schema))) values values' := by
  have hvalues' := values_of_same hrel hvalues
  have hschema := handleValuesBegin_schema p id opening.msg opening.alloc
  have hnone : ∀ u, .commitValues id u ∉ (p.handleValuesBegin id opening.msg opening.alloc).2 := by
    intro u hmem
    exact absurd (handleValuesBegin_quiet p id _ _ _ hmem) (by simp [Effect.isQuiet])
  simp only [deliver, onNotify, hopening, List.mem_append] at hc hc'
  obtain ⟨i, stream, built, _, ⟨hi, hv, -, -⟩, hacc, rfl, -, -⟩ :=
    committed_of_values hvalues hclosing (hc.resolve_left (hnone v))
  obtain ⟨j, stream', built', _, ⟨hj, hv', -, -⟩, hacc', rfl, -, -⟩ :=
    committed_of_values hvalues' hclosing (hc'.resolve_left (hnone v'))
  -- both streams have the same opening
  obtain rfl : j = i := Option.some.inj (hj.symm.trans hi)
  obtain rfl : stream' = stream := Option.some.inj (hv'.symm.trans hv)
  rw [recordOf_of_find hi, Option.bind_some] at hschema
  rw [← hschema] at hrel ⊢
  obtain ⟨htwins, hiff⟩ := acceptValues_twins hrel ⟨rfl, rfl⟩ hacc hacc'
  rw [← (hiff.trans (and_iff_right rfl)), htwins.same]
  constructor
  · intro heq
    exact congrArg Values.values heq
  · intro heq
    rw [ValuesBuilder.commit, ValuesBuilder.commit]
    exact congrArg (Values.mk _ · _) heq

/-! ## A secret number -/

/-- The letter `a` is not the NUL. -/
theorem letter_ne_nul : (0 : UInt8) ∉ [(97 : UInt8)] :=
  List.not_mem_cons_of_ne_of_not_mem (fun h => absurd (congrArg UInt8.toNat h) (by simp))
    List.not_mem_nil

/-- A lamp whose only setting is a secret number. -/
def secretiveLamp : Protocol :=
  (Protocol.deliver {} lamp
    [⟨beginFrame 1, true, true⟩,
      ⟨{ itemFrame (settingId 97 letter_ne_nul) 0 1 with
          settingType := some DS_TYPE_INT
          settingFlags := some GW_SETTING_FLAG_SECRET }, true, true⟩,
      ⟨endFrame 1, true, true⟩]).1

/-- The frame with the secret number. -/
def secretNumber (n : Int32) : Frame :=
  ⟨{ valueFrame (settingId 97 letter_ne_nul) 0 with
      settingType := some DS_TYPE_INT
      settingValue := some (.int n) }, true, true⟩

def openValues : Frame := ⟨valuesBeginFrame 1, true, true⟩

def closeValues : Frame := ⟨valuesEndFrame 1, true, true⟩

/-- A snapshot of the lamp whose union holds `value`. -/
def lampSnapshot (value : UInt32) : Values :=
  ⟨1, [{ idOff := 4, type := DS_TYPE_INT, hasValue := false, value }],
    ⟨[0, 0, 0, 0, 97, 0, 0, 0], DEVICE_SETTINGS_MAX_STRING_POOL⟩⟩

theorem secretNumber_same (n n' : Int32) :
    List.Forall₂ (SamePublic ((secretiveLamp.recordOf lamp).bind (·.schema)))
      [secretNumber n] [secretNumber n'] := by
  have hsecret : isSecretFrame ((secretiveLamp.recordOf lamp).bind (·.schema))
      (secretNumber 0).msg = true := by decide +kernel
  refine .cons ⟨rfl, fun hpublic => ?_⟩ .nil
  cases hpublic.symm.trans hsecret

theorem snapshots_eq_iff_secretNumber :
    lampSnapshot 0x1200 = lampSnapshot 0x1200 ↔
      List.Forall₂ (UpperBytesAgree ((secretiveLamp.recordOf lamp).bind (·.schema)))
        [secretNumber 0x1201] [secretNumber 0x1202] :=
  snapshots_eq_iff secretiveLamp lamp openValues closeValues rfl rfl
    (by simp [secretNumber, valueFrame]) (secretNumber_same _ _) (by decide +kernel)
    (by decide +kernel)

/-- Two bytes of the secret number can be read in the snapshot. -/
theorem secret_in_snapshot :
    ¬∀ (p : Protocol) (id : DeviceId) (opening closing : Frame) (values values' : List Frame)
      (v v' : Values), opening.msg.type = .valuesBegin → closing.msg.type = .valuesEnd →
      (∀ f ∈ values, f.msg.type = .valuesValue) →
      List.Forall₂ (SamePublic ((p.recordOf id).bind (·.schema))) values values' →
      .commitValues id v ∈ (p.deliver id (opening :: (values ++ [closing]))).2 →
      .commitValues id v' ∈ (p.deliver id (opening :: (values' ++ [closing]))).2 → v' = v := by
  intro h
  have heq := h secretiveLamp lamp openValues closeValues [secretNumber 0x1234]
    [secretNumber 0x5678]
    (lampSnapshot 0x1200) (lampSnapshot 0x5600) rfl rfl (by simp [secretNumber, valueFrame])
    (secretNumber_same _ _) (by decide +kernel) (by decide +kernel)
  exact absurd heq (by decide)

end BleGateway.Settings
