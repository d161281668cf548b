import BleGateway.Settings.Transaction
import BleGateway.Settings.SchemaRuns
import BleGateway.CborCodec.RoundTrip
import BleGateway.CommandService.Request
import BleGateway.CommandService.Model

/-! # A change on its way to the device

`submit_next_command` of `device_settings_transaction.c` turns the next change of a transaction into
a request, which the command service checks, turns into a message and encodes. A change that fits a
committed schema arrives as it is: the schema admits only types that the wire has, and the values
of the other three types fit their fields.
-/

namespace BleGateway.Settings

open CommandService (GW_SETTINGS_CMD_TX_SET GW_SETTINGS_CMD_TX_COMMIT buildWireMessage
  validateRequest settingsIdIsValid settingsValueIsValid settingsStringIsTerminated copied
  copied_bytes wireValue)
open CborCodec (GwMessage Qcbor cborCodecEncode cborCodecDecode GW_MSG_MAX_LEN)

/-! ## Requests -/

/-- The value of a change in a request, by its type; an enum value is cut to eight bits. -/
def ChangeRequest.requestValue (ch : ChangeRequest) : DeviceCommandSettingsValue :=
  if ch.type = DS_TYPE_BOOL then .boolValue ch.boolVal
  else if ch.type = DS_TYPE_INT then .intValue ch.intVal
  else if ch.type = DS_TYPE_ENUM then .enumValue ch.enumVal.toUInt32.toUInt8
  else if ch.type = DS_TYPE_STRING then .stringValue (strlcpy _ ch.str)
  else .boolValue false

/-- The request for one change. -/
def Transaction.setRequest (tx : Transaction) (ch : ChangeRequest) : DeviceCommandRequest where
  origin := .settings
  deviceId := tx.deviceId
  command := strlcpy _ GW_SETTINGS_CMD_TX_SET
  settings :=
    { hasTransactionId := true
      transactionId := tx.transactionId
      hasSettingId := true
      settingId := strlcpy _ ch.settingId.text
      hasSettingValue := true
      settingType := ch.type
      value := ch.requestValue }

/-- The request behind the last change. -/
def Transaction.commitRequest (tx : Transaction) : DeviceCommandRequest where
  origin := .settings
  deviceId := tx.deviceId
  command := strlcpy _ GW_SETTINGS_CMD_TX_COMMIT
  settings :=
    { hasTransactionId := true
      transactionId := tx.transactionId }

/-- The request that `submit_next_command` submits. -/
def Transaction.nextRequest (tx : Transaction) : DeviceCommandRequest :=
  match tx.changes[tx.nextChangeIndex]? with
  | some ch => tx.setRequest ch
  | none => tx.commitRequest

/-! ## The types of a committed schema -/

/-- Every type is one of the five that `handle_item` admits. -/
def TypesKnown (descriptors : List SettingDesc) : Prop :=
  ∀ d ∈ descriptors, DS_TYPE_BOOL ≤ d.type ∧ d.type ≤ DS_TYPE_ENUM

theorem acceptItem_typed {r : DeviceRecord} {msg : Message} {stream stream' : SchemaStream}
    (h : TypesKnown stream.builder.descriptors)
    (hacc : Protocol.acceptItem r stream msg = some stream') :
    TypesKnown stream'.builder.descriptors := by
  simp only [Protocol.acceptItem, Option.bind_eq_bind, Option.bind_eq_some_iff,
    Option.guard_eq_some', Option.pure_def, Option.some.injEq, exists_const, Prod.exists] at hacc
  obtain ⟨total, -, sequence, -, settingId, -, type, -, htype, -, -, -, -, pool, texts, -, -, b, hb,
    rfl⟩ := hacc
  obtain rfl := SchemaBuilder.addSetting_spec hb
  intro d hd
  rcases List.mem_append.mp hd with hold | hnew
  · exact h d hold
  · obtain rfl := List.mem_singleton.mp hnew
    exact htype

/-- Options leave the types alone. -/
theorem acceptOption_typed {r : DeviceRecord} {msg : Message} {stream stream' : SchemaStream}
    (h : TypesKnown stream.builder.descriptors)
    (hacc : Protocol.acceptOption r stream msg = some stream') :
    TypesKnown stream'.builder.descriptors := by
  obtain ⟨-, -, hsame⟩ := acceptOption_spec hacc
  intro d hd
  have hmem : d.sansOptions ∈ stream.builder.descriptors.map SettingDesc.sansOptions := by
    rw [← hsame]
    exact List.mem_map_of_mem hd
  obtain ⟨old, hold, heq⟩ := List.mem_map.mp hmem
  have htype : old.type = d.type := congrArg (·.type) heq
  rw [← htype]
  exact h old hold

/-! ## Every committed schema -/

/-- A schema that is committed in some run of the streams. -/
def Committed (schema : Schema) : Prop :=
  ∃ σ, Streams.machine.Reachable σ ∧ ∃ frames, Commit.schema frames schema ∈ σ.commits

/-- No frame of a schema stream adds another type. -/
theorem typesKnown_rule : SchemaRule fun b _ => TypesKnown b.descriptors where
  start _ _ _ _ hd := absurd hd List.not_mem_nil
  other _ _ _ _ _ h := h
  item _ _ _ _ _ _ hacc h := acceptItem_typed h hacc
  option _ _ _ _ _ _ hacc h := acceptOption_typed h hacc

/-- **The types of a committed schema** are the five of the wire. -/
theorem Committed.typesKnown {schema : Schema} (h : Committed schema) :
    TypesKnown schema.descriptors := by
  obtain ⟨σ, hσ, frames, hmem⟩ := h
  obtain ⟨b, rfl, hb⟩ := schemaRule_commits typesKnown_rule hσ hmem
  exact hb

/-! ## What prevalidation admits -/

/-- The change has a type of the wire and a value that fits its fields. -/
structure ChangeRequest.Fits (ch : ChangeRequest) : Prop where
  id : ch.settingId.text ≠ []
  type : ch.type = DS_TYPE_BOOL ∨ ch.type = DS_TYPE_INT ∨ ch.type = DS_TYPE_STRING ∨
    ch.type = DS_TYPE_ENUM
  string : ch.type = DS_TYPE_STRING → ch.str.length < GW_SETTINGS_VALUE_MAX_LEN
  enum : ch.type = DS_TYPE_ENUM → ∃ v : UInt8, v.toUInt32.toInt32 = ch.enumVal

theorem settingType_cases {type : UInt8} (hlo : DS_TYPE_BOOL ≤ type) (hhi : type ≤ DS_TYPE_ENUM)
    (hfloat : type ≠ DS_TYPE_FLOAT) :
    type = DS_TYPE_BOOL ∨ type = DS_TYPE_INT ∨ type = DS_TYPE_STRING ∨ type = DS_TYPE_ENUM := by
  simp only [DS_TYPE_BOOL, DS_TYPE_INT, DS_TYPE_STRING, DS_TYPE_ENUM, DS_TYPE_FLOAT] at *
  grind

/-- **What `prevalidate_change` takes** against a committed schema fits the wire. -/
theorem fits_of_prevalidate {schema : Schema} {ch : ChangeRequest} (hs : Committed schema)
    (h : prevalidateChange (some schema) ch = true) : ch.Fits := by
  unfold prevalidateChange at h
  dsimp only at h
  split at h
  · cases h
  rename_i hid
  split at h
  · cases h
  rename_i desc hfind
  obtain ⟨hlo, hhi⟩ := hs.typesKnown desc (List.mem_of_find?_eq_some hfind)
  split at h
  · cases h
  split at h
  · cases h
  rename_i htype
  have htype : desc.type = ch.type := not_not.mp htype
  rw [htype] at hlo hhi h
  split at h
  · cases h
  rename_i hfloat
  split at h
  · cases h
  split at h
  · cases h
  rename_i henum
  split at h
  · cases h
  rename_i hstring
  refine ⟨hid, settingType_cases hlo hhi hfloat, fun htext => ?_, fun hoption => ?_⟩
  · have hallowed : stringAllowed desc ch.str = true := by
      by_contra hno
      exact hstring ⟨htext, by simpa using hno⟩
    simp only [stringAllowed, Bool.not_eq_true', Bool.or_eq_false_iff,
      decide_eq_false_iff_not] at hallowed
    omega
  · have hallowed : enumAllowed schema desc ch.enumVal = true := by
      by_contra hno
      exact henum ⟨hoption, by simpa using hno⟩
    obtain ⟨o, -, ho⟩ := List.any_eq_true.mp hallowed
    exact ⟨o.value, of_decide_eq_true ho⟩

/-! ## The message -/

/-- The message carries the change under the transaction id. -/
structure Carries (tx : Transaction) (ch : ChangeRequest) (m : GwMessage) : Prop where
  type : m.type.bytes = cstr "device_command"
  command : m.command.bytes = GW_SETTINGS_CMD_TX_SET
  deviceId : m.deviceId.map (·.bytes) = some tx.deviceId.text
  transactionId : m.settingsTransactionId = some tx.transactionId
  settingId : m.settingId.map (·.bytes) = some ch.settingId.text
  settingType : m.hasSettingType = true ∧ m.settingType = ch.type
  hasValue : m.hasSettingValue = true
  value : (ch.type = DS_TYPE_BOOL ∧ m.settingValue.bool = ch.boolVal) ∨
    (ch.type = DS_TYPE_INT ∧ m.settingValue.int = ch.intVal) ∨
    (ch.type = DS_TYPE_STRING ∧ m.settingValue.string.bytes = ch.str) ∨
    (ch.type = DS_TYPE_ENUM ∧ m.settingValue.enum.toUInt32.toInt32 = ch.enumVal)

/-- The message of a change. -/
def ChangeRequest.message (ch : ChangeRequest) (tx : Transaction) (requestId : UInt32) :
    GwMessage where
  protocolVersion := GW_PROTOCOL_VERSION
  type := copied CborCodec.GW_MSG_TYPE_LEN (cstr "device_command")
  deviceId := some (copied DEVICE_ID_MAX_LEN tx.deviceId.text)
  command := copied DEVICE_COMMAND_MAX_LEN GW_SETTINGS_CMD_TX_SET
  requestId := some requestId
  settingsTransactionId := some tx.transactionId
  settingId := some (copied GW_SETTINGS_CBOR_MAX_ID_LEN ch.settingId.text)
  settingType := ch.type
  hasSettingType := true
  settingValue := wireValue ch.type ch.requestValue
  hasSettingValue := true

section Message

variable {tx : Transaction} {ch : ChangeRequest} {requestId : UInt32}

theorem nextRequest_eq (hnext : tx.changes[tx.nextChangeIndex]? = some ch) :
    tx.nextRequest = tx.setRequest ch := by
  rw [Transaction.nextRequest, hnext]

/-- The service makes this message of the request for the change. -/
theorem buildWireMessage_setRequest :
    buildWireMessage (tx.setRequest ch) requestId = ch.message tx requestId := by
  have hid : (strlcpy DEVICE_FEATURE_ID_MAX_LEN ch.settingId.text).text = ch.settingId.text :=
    strlcpy_text ch.settingId.bounded
  have hcommand : (strlcpy DEVICE_COMMAND_MAX_LEN GW_SETTINGS_CMD_TX_SET).text =
      GW_SETTINGS_CMD_TX_SET := strlcpy_text (by decide)
  unfold Transaction.setRequest buildWireMessage
  simp only [hid, hcommand]
  rfl

/-- The value of the message, by the type of the change. -/
theorem wireValue_requestValue (h : ch.Fits) :
    (ch.type = DS_TYPE_BOOL ∧ wireValue ch.type ch.requestValue = { bool := ch.boolVal }) ∨
    (ch.type = DS_TYPE_INT ∧ wireValue ch.type ch.requestValue = { int := ch.intVal }) ∨
    (ch.type = DS_TYPE_STRING ∧ ∃ t : CborCodec.Text, t.bytes = ch.str ∧
      wireValue ch.type ch.requestValue = { string := t }) ∨
    (ch.type = DS_TYPE_ENUM ∧ ∃ v : UInt8, v.toUInt32.toInt32 = ch.enumVal ∧
      wireValue ch.type ch.requestValue = { enum := v }) := by
  rcases h.type with hbool | hint | hstring | henum
  · refine Or.inl ⟨hbool, ?_⟩
    rw [ChangeRequest.requestValue, hbool]
    rfl
  · refine Or.inr (Or.inl ⟨hint, ?_⟩)
    rw [ChangeRequest.requestValue, hint]
    rfl
  · refine Or.inr (Or.inr (Or.inl ⟨hstring, copied GW_SETTINGS_VALUE_MAX_LEN ch.str, ?_, ?_⟩))
    · refine copied_bytes ?_ (h.string hstring)
      intro hzero
      exact absurd (List.mem_takeWhile_imp hzero) (by decide)
    · have htext : (strlcpy GW_SETTINGS_VALUE_MAX_LEN ch.str).text = ch.str :=
        strlcpy_text (h.string hstring)
      rw [ChangeRequest.requestValue, hstring]
      show ({ string := copied _ (strlcpy GW_SETTINGS_VALUE_MAX_LEN ch.str).text } :
        CborCodec.SettingValue) = _
      rw [htext]
  · obtain ⟨v, hv⟩ := h.enum henum
    refine Or.inr (Or.inr (Or.inr ⟨henum, v, hv, ?_⟩))
    -- an option of the schema has eight bits
    have hcut : ch.enumVal.toUInt32.toUInt8 = v := by
      rw [← hv]
      simp
    rw [ChangeRequest.requestValue, henum]
    show ({ enum := ch.enumVal.toUInt32.toUInt8 } : CborCodec.SettingValue) = _
    rw [hcut]

/-- A copy of a text that fits. -/
theorem textFits_copied {size : Nat} [NeZero size] {s : CString} (hnul : (0 : UInt8) ∉ s)
    (hlen : s.length < size) (hs : s ≠ []) : CborCodec.TextFits size false (copied size s) := by
  rw [CborCodec.TextFits, copied_bytes hnul hlen]
  exact ⟨hlen, Or.inr hs⟩

variable (hfits : ch.Fits) (hid : tx.deviceId.text ≠ []) (hnul : (0 : UInt8) ∉ tx.deviceId.text)

include hfits hid hnul

theorem message_encodable : (ch.message tx requestId).Encodable := by
  have hempty : ∀ capacity, 0 < capacity → CborCodec.TextFits capacity true .empty :=
    fun _ h => ⟨h, Or.inl rfl⟩
  exact {
    protocolVersion := rfl
    type := textFits_copied (by decide) (by decide) (by decide)
    command := textFits_copied (by decide) (by decide) (by decide)
    deviceId := by
      intro t ht
      cases ht
      exact textFits_copied hnul tx.deviceId.bounded hid
    name := hempty _ (by decide)
    capabilityLabel := hempty _ (by decide)
    capabilityUnit := hempty _ (by decide)
    featureId := hempty _ (by decide)
    featureTool := hempty _ (by decide)
    settingType := by
      intro _
      show CborCodec.settingTypeKnown ch.type = true
      rcases hfits.type with h | h | h | h <;> (rw [h]; decide) }

omit hid hnul in
theorem message_readable (hrequest : requestId ≠ 0) : (ch.message tx requestId).Readable where
  requestId := fun h => hrequest (Option.some.inj h)
  snapshotId := by simp [ChangeRequest.message]
  featureId := fun h => by cases h
  settingId := by
    intro t ht
    cases ht
    exact textFits_copied ch.settingId.noNul ch.settingId.bounded hfits.id
  settingType := by
    intro _
    show ch.type ≤ CborCodec.GW_SETTING_TYPE_ENUM
    rcases hfits.type with h | h | h | h <;> (rw [h]; decide)
  settingValue := by
    intro _ _ hstring
    rcases wireValue_requestValue hfits with ⟨h, -⟩ | ⟨h, -⟩ | ⟨h, t, ht, hv⟩ | ⟨h, -⟩
    · exact absurd (h.symm.trans hstring) (by decide)
    · exact absurd (h.symm.trans hstring) (by decide)
    · show (wireValue ch.type ch.requestValue).string.bytes.length < _
      rw [hv, ht]
      exact hfits.string h
    · exact absurd (h.symm.trans hstring) (by decide)

omit hid hnul in
/-- The value takes the room of a string at most. -/
theorem settingValueItem_message (tx : Transaction) (requestId : UInt32) :
    ∃ v, CborCodec.settingValueItem (ch.message tx requestId) = some v ∧ v.Short ∧ v.room ≤ 65 := by
  have hitem : CborCodec.settingValueItem (ch.message tx requestId) =
      CborCodec.settingValueItem { settingType := ch.type
                                   settingValue := wireValue ch.type ch.requestValue } := rfl
  rw [hitem]
  rcases wireValue_requestValue hfits with ⟨h, hv⟩ | ⟨h, hv⟩ | ⟨h, t, ht, hv⟩ | ⟨h, v, -, hv⟩
  · rw [hv, h]
    exact ⟨_, rfl, trivial, Nat.le_add_right 9 56⟩
  · rw [hv, h]
    exact ⟨_, rfl, trivial, Nat.le_add_right 9 56⟩
  · have hlen : t.bytes.length < 64 := by
      rw [ht]
      exact hfits.string h
    rw [hv, h]
    refine ⟨.text t.bytes, rfl, ?_, ?_⟩
    · rw [Cbor.Item.short_text]
      omega
    · rw [Cbor.Item.room_text]
      omega
  · rw [hv, h]
    exact ⟨_, rfl, trivial, Nat.le_add_right 9 56⟩

omit hfits hid hnul in
/-- The eleven entries of the message. -/
theorem items_message {v : Cbor.Item}
    (hv : CborCodec.settingValueItem (ch.message tx requestId) = some v) :
    CborCodec.items (ch.message tx requestId) =
      [(0, .int 4),
        (1, .text (copied CborCodec.GW_MSG_TYPE_LEN (cstr "device_command")).bytes),
        (2, .text (copied DEVICE_ID_MAX_LEN tx.deviceId.text).bytes),
        (3, .text (copied DEVICE_COMMAND_MAX_LEN GW_SETTINGS_CMD_TX_SET).bytes),
        (10, .int requestId.toNat), (4, .int 0), (5, .bool false),
        (34, .text (copied GW_SETTINGS_CBOR_MAX_ID_LEN ch.settingId.text).bytes),
        (38, .int ch.type.toNat), (40, v), (41, .int tx.transactionId.toNat)] := by
  rw [CborCodec.items, CborCodec.fields, CborCodec.settingFields, hv]
  rfl

omit hid in
/-- **The message fits its buffer.** -/
theorem length_encode_message :
    (Cbor.encode (CborCodec.items (ch.message tx requestId))).length ≤ GW_MSG_MAX_LEN := by
  have htype : (copied CborCodec.GW_MSG_TYPE_LEN (cstr "device_command")).bytes.length = 14 := by
    rw [copied_bytes (by decide) (by decide)]
    rfl
  have hcommand : (copied DEVICE_COMMAND_MAX_LEN GW_SETTINGS_CMD_TX_SET).bytes.length = 15 := by
    rw [copied_bytes (by decide) (by decide)]
    rfl
  have hdevice : (copied DEVICE_ID_MAX_LEN tx.deviceId.text).bytes.length < 32 := by
    rw [copied_bytes hnul tx.deviceId.bounded]
    exact tx.deviceId.bounded
  have hsetting : (copied GW_SETTINGS_CBOR_MAX_ID_LEN ch.settingId.text).bytes.length < 32 := by
    rw [copied_bytes ch.settingId.noNul ch.settingId.bounded]
    exact ch.settingId.bounded
  obtain ⟨v, hv, hshort, hroom⟩ := settingValueItem_message hfits tx requestId
  rw [items_message hv]
  refine (Cbor.length_encode_le ?_).trans ?_
  · simp only [List.forall_mem_cons, Cbor.Item.short_int, Cbor.Item.short_text,
      Cbor.Item.short_bool, List.not_mem_nil, false_imp_iff, implies_true, hshort, and_true]
    omega
  · simp only [List.map_cons, List.map_nil, List.sum_cons, List.sum_nil, Cbor.Item.room_int,
      Cbor.Item.room_text, Cbor.Item.room_bool]
    rw [GW_MSG_MAX_LEN]
    omega

end Message

/-! ## From the schema to the device -/

/-- QCBOR writes every head in its shortest form. -/
def PreferredHeads (q : Qcbor) : Prop :=
  ∀ m, (q.encode m).length ≤ (Cbor.encode m).length

/-- The service gives every request an id. -/
theorem pendingNextRequestId_ne_zero {κ : Type} (d : CommandService.Dcs κ) (n : Nat)
    (counter : UInt32) : d.pendingNextRequestId n counter ≠ 0 := by
  induction n generalizing counter with
  | zero => exact Scheduler.nextId_ne_zero counter
  | succ n ih =>
      rw [CommandService.Dcs.pendingNextRequestId]
      split
      · exact ih _
      · exact Scheduler.nextId_ne_zero counter

section Delivery

variable {q : Qcbor} {tx : Transaction} {ch : ChangeRequest} {requestId : UInt32}

theorem settingsValueIsValid_setRequest (hfits : ch.Fits) :
    settingsValueIsValid (tx.setRequest ch).settings = true := by
  have hstring : settingsStringIsTerminated (CommandService.stringOf (.stringValue
      (strlcpy GW_SETTINGS_VALUE_MAX_LEN ch.str))) GW_SETTINGS_VALUE_MAX_LEN = true :=
    decide_eq_true (strlcpy GW_SETTINGS_VALUE_MAX_LEN ch.str).bounded
  rw [Transaction.setRequest, settingsValueIsValid, ChangeRequest.requestValue]
  dsimp only
  rcases hfits.type with h | h | h | h
  · simp only [h]
    rfl
  · simp only [h]
    rfl
  · simp only [h]
    exact hstring
  · simp only [h]
    rfl

theorem settingsIdIsValid_setRequest (hfits : ch.Fits) :
    settingsIdIsValid (tx.setRequest ch).settings = true := by
  have hlen : ch.settingId.text.length < DEVICE_FEATURE_ID_MAX_LEN := ch.settingId.bounded
  have hsetting : (strlcpy DEVICE_FEATURE_ID_MAX_LEN ch.settingId.text).text = ch.settingId.text :=
    strlcpy_text hlen
  rw [Transaction.setRequest, settingsIdIsValid]
  dsimp only
  rw [hsetting, settingsStringIsTerminated, decide_eq_true hfits.id, decide_eq_true hlen]
  rfl

/-- The service takes the request for a change that fits. -/
theorem validateRequest_setRequest (validate : GwMessage → McpExposure.Validation)
    (wire : GwMessage) (hfits : ch.Fits) (hid : tx.deviceId.text ≠ []) :
    validateRequest validate (tx.setRequest ch) wire = .ok := by
  have hcommand : (tx.setRequest ch).command.text = GW_SETTINGS_CMD_TX_SET :=
    strlcpy_text (by decide)
  have hpayload : (!(tx.setRequest ch).settings.hasTransactionId ||
      !settingsIdIsValid (tx.setRequest ch).settings ||
      !settingsValueIsValid (tx.setRequest ch).settings) = false := by
    rw [settingsIdIsValid_setRequest hfits, settingsValueIsValid_setRequest hfits]
    rfl
  rw [validateRequest, if_neg (by exact hid)]
  show CommandService.validateSettings (tx.setRequest ch) = .ok
  rw [CommandService.validateSettings, hcommand, hpayload]
  rfl

/-- The message comes back from the wire with the change in it. -/
theorem carries_transmitted (hfits : ch.Fits) (hnul : (0 : UInt8) ∉ tx.deviceId.text) :
    Carries tx ch (ch.message tx requestId).transmitted where
  type := copied_bytes (by decide) (by decide)
  command := copied_bytes (by decide) (by decide)
  deviceId := congrArg some (copied_bytes hnul tx.deviceId.bounded)
  transactionId := rfl
  settingId := congrArg some (copied_bytes ch.settingId.noNul ch.settingId.bounded)
  settingType := ⟨rfl, rfl⟩
  hasValue := rfl
  value := by
    have hvalue : (ch.message tx requestId).transmitted.settingValue =
        (wireValue ch.type ch.requestValue).inUse ch.type := rfl
    rw [hvalue]
    rcases wireValue_requestValue hfits with ⟨h, hv⟩ | ⟨h, hv⟩ | ⟨h, t, ht, hv⟩ | ⟨h, v, hv', hv⟩
    · refine Or.inl ⟨h, ?_⟩
      rw [hv, h]
      rfl
    · refine Or.inr (Or.inl ⟨h, ?_⟩)
      rw [hv, h]
      rfl
    · refine Or.inr (Or.inr (Or.inl ⟨h, ?_⟩))
      rw [hv, h]
      exact ht
    · refine Or.inr (Or.inr (Or.inr ⟨h, ?_⟩))
      rw [hv, h]
      exact hv'

/-- **A change reaches the device as it is.** A change that fits a committed schema gives a request
that the service takes and a message that fits its buffer, and the device reads the same setting,
type, value and transaction in it. -/
theorem change_reaches_wire {κ : Type} (d : CommandService.Dcs κ)
    (validate : GwMessage → McpExposure.Validation) (hq : q.Correct) (hheads : PreferredHeads q)
    {schema : Schema} (hs : Committed schema)
    (hnext : tx.changes[tx.nextChangeIndex]? = some ch)
    (hch : prevalidateChange (some schema) ch = true)
    (hid : tx.deviceId.text ≠ []) (hnul : (0 : UInt8) ∉ tx.deviceId.text) :
    validateRequest validate tx.nextRequest
        { buildWireMessage tx.nextRequest 0 with requestId := none } = .ok ∧
      ∃ out m, cborCodecEncode q (buildWireMessage tx.nextRequest
          (d.pendingNextRequestId CommandService.DCS_MAX_PENDING d.nextRequestId))
          GW_MSG_MAX_LEN = some out ∧
        out.length ≤ GW_MSG_MAX_LEN ∧ cborCodecDecode q out = some m ∧ Carries tx ch m := by
  have hfits := fits_of_prevalidate hs hch
  have hrequest := pendingNextRequestId_ne_zero d CommandService.DCS_MAX_PENDING d.nextRequestId
  rw [nextRequest_eq hnext]
  refine ⟨validateRequest_setRequest validate _ hfits hid, ?_⟩
  rw [buildWireMessage_setRequest]
  have hlen : (q.encode (CborCodec.items (ch.message tx (d.pendingNextRequestId
      CommandService.DCS_MAX_PENDING d.nextRequestId)))).length ≤ GW_MSG_MAX_LEN :=
    (hheads _).trans (length_encode_message hfits hnul)
  have henc := CborCodec.cborCodecEncode_eq_some_iff.mpr
    ⟨message_encodable hfits hid hnul, by decide, rfl, hlen⟩
  exact ⟨_, _, henc, hlen,
    (CborCodec.cborCodecDecode_encode hq henc hlen).mpr ⟨message_readable hfits hrequest, rfl⟩,
    carries_transmitted hfits hnul⟩

end Delivery

theorem no_nul : (0 : UInt8) ∉ [(97 : UInt8)] := by decide

/-- The first setting of the lamp is to be `true`. -/
def turnOn : ChangeRequest where
  settingId := settingId 97 no_nul
  type := DS_TYPE_BOOL
  union := Vector.ofFn fun i => if i.val = 0 then 1 else 0

def turning : Transaction :=
  { active := true, deviceId := lamp, state := .beginSent, changes := [turnOn]
    transactionId := 9 }

theorem change_reaches_wire_turnOn :
    ∃ out m, cborCodecEncode .shortest (buildWireMessage turning.nextRequest 1) GW_MSG_MAX_LEN =
      some out ∧ cborCodecDecode .shortest out = some m ∧ Carries turning turnOn m := by
  obtain ⟨σ, hσ, frames, schema, hc, htakes⟩ := exists_schema_of_run describeRun
    (fun s => prevalidateChange (some s) turnOn) (by decide +kernel)
  obtain ⟨-, out, m, henc, -, hdec, hcarries⟩ :=
    @change_reaches_wire .shortest turning turnOn Unit {} (fun _ => .unknown)
      CborCodec.Qcbor.shortest_correct (fun _ => Nat.le_refl _) schema ⟨σ, hσ, frames, hc⟩ rfl
      htakes (by decide) (by decide)
  exact ⟨out, m, henc, hdec, hcarries⟩

end BleGateway.Settings
