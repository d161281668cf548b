import BleGateway.EventStream.Json
import BleGateway.Lib.JsonText

/-! # Reading events back

What a JSON reader finds in the text of an event. Every text that comes out is an object whose
members are those of the event, with the identifiers as far as they were printed. An identifier is
printed whole unless its escapes fill the array before its end: the loop of `json_escape_string`
then stops, and the rest is dropped without an error.
-/

namespace BleGateway.EventStream

open GatewayEvents Json

/-! ## Numbers -/

theorem digitsValue_append (digits : List UInt8) (c : UInt8) :
    digitsValue (digits ++ [c]) = 10 * digitsValue digits + (c.toNat - 48) := by
  simp [digitsValue]

variable {n : Nat} {s : CString}

/-- The digits of a number are read back. -/
theorem digits_numeral {k : Nat} (hk : 0 < k) (h : n < 10 ^ k) :
    Numeral (digits k n) ∧ digitsValue (digits k n) = n := by
  induction k generalizing n with
  | zero => omega
  | succ k ih =>
      have hmod : n % 10 < 10 := Nat.mod_lt n (by decide)
      have hlast : (UInt8.ofNat (48 + n % 10)).toNat = 48 + n % 10 := by
        rw [UInt8.toNat_ofNat']
        omega
      have hdigit : Json.isDigit (UInt8.ofNat (48 + n % 10)) = true := by
        simp only [Json.isDigit, Bool.and_eq_true, decide_eq_true_eq, UInt8.le_iff_toNat_le, hlast]
        exact ⟨by simp, by simp; omega⟩
      rw [digits, digitsValue_append, hlast]
      by_cases hn : n < 10
      · rw [if_pos hn, List.nil_append]
        refine ⟨⟨by simp, by simpa using hdigit, ?_⟩, ?_⟩
        · intro hzero
          rw [List.head?_cons, Option.some.injEq] at hzero
          rw [hzero]
        · simp [digitsValue]
          omega
      · rw [if_neg hn]
        have hpos : 0 < k := by
          rcases Nat.eq_zero_or_pos k with rfl | hpos
          · simp at h
            omega
          · exact hpos
        have hless : n / 10 < 10 ^ k := by
          rw [Nat.pow_succ] at h
          omega
        obtain ⟨hnumeral, hvalue⟩ := ih hpos hless
        refine ⟨⟨by simp, ?_, ?_⟩, ?_⟩
        · intro c hc
          rcases List.mem_append.mp hc with hc | hc
          · exact hnumeral.isDigit c hc
          · rw [List.mem_singleton.mp hc]
            exact hdigit
        · -- a number with a leading zero has one digit
          intro hzero
          rw [List.head?_append_of_ne_nil _ hnumeral.ne_nil] at hzero
          rw [hnumeral.zero hzero] at hvalue
          have hten : n / 10 = 0 := hvalue.symm
          omega
        · rw [hvalue]
          omega

theorem prints_decimal (h : n < 10 ^ 20) : Prints (decimal n) (.number n) := by
  obtain ⟨hnumeral, hvalue⟩ := digits_numeral (by decide) h
  have hprints := prints_numeral hnumeral
  rwa [hvalue] at hprints

theorem prints_signed {i : Int} (h : i.natAbs < 10 ^ 20) :
    Prints (signedDecimal i) (.number i) := by
  unfold signedDecimal
  by_cases hi : i < 0
  · obtain ⟨hnumeral, hvalue⟩ := digits_numeral (by decide) h
    have hprints := prints_negative hnumeral
    have hcast : -(i.natAbs : ℚ) = (i : ℚ) := by
      have habs : (i.natAbs : Int) = -i := by omega
      rw [← Int.cast_natCast, habs]
      simp
    rw [hvalue, hcast] at hprints
    rw [if_pos hi]
    exact hprints
  · have hprints := prints_decimal h
    have hcast : (i.natAbs : ℚ) = (i : ℚ) := by
      have habs : (i.natAbs : Int) = i := by omega
      rw [← Int.cast_natCast, habs]
    rw [hcast] at hprints
    rwa [if_neg hi]

theorem prints_bool (b : Bool) : Prints (bool b) (.bool b) := by
  cases b
  · exact prints_false
  · exact prints_true

/-! ## Strings -/

/-- The escapes of all characters. -/
def escaped (s : CString) : CString := s.flatMap escapeChar

/-- A printed string. -/
def quote (s : CString) : CString := 34 :: (escaped s ++ [34])

theorem escaped_cons (c : UInt8) (s : CString) : escaped (c :: s) = escapeChar c ++ escaped s := rfl

theorem hexValue_hexDigit (h : n < 16) : hexValue (hexDigit n) = some n := by
  have hall : ∀ n < 16, hexValue (hexDigit n) = some n := by decide
  exact hall n h

/-- The `\u` form of a control character. -/
theorem readEscape_control {c : UInt8} (h : c < 0x20) (rest : CString) :
    readEscape (117 :: 48 :: 48 :: hexDigit (c.toNat / 16) :: hexDigit (c.toNat % 16) :: rest) =
      some ([c], rest) := by
  have hlt : c.toNat < 32 := by simpa [UInt8.lt_iff_toNat_lt] using h
  have hhigh := hexValue_hexDigit (n := c.toNat / 16) (by omega)
  have hlow := hexValue_hexDigit (n := c.toNat % 16) (by omega)
  have hzero : hexValue 48 = some 0 := by decide
  have hvalue : ((0 * 16 + 0) * 16 + c.toNat / 16) * 16 + c.toNat % 16 = c.toNat := by omega
  have hhex : readHex (48 :: 48 :: hexDigit (c.toNat / 16) :: hexDigit (c.toNat % 16) :: rest) =
      some (c.toNat, rest) := by
    simp only [readHex, hzero, hhigh, hlow, Option.bind_some, Option.map_some, hvalue]
  have hencode : encode c.toNat = [c] := by
    rw [encode, if_pos (by omega)]
    simp
  have hlookup : escapes.lookup 117 = none := by decide
  rw [readEscape, hlookup]
  dsimp only
  rw [if_pos rfl, readUnicode, hhex, Option.bind_some]
  dsimp only
  rw [if_pos (.inl (by omega)), hencode]

/-- An escaped string is read back. -/
theorem spells_escaped (s : CString) : Spells (escaped s) s := by
  induction s with
  | nil => exact spells_nil
  | cons c s ih =>
      rw [escaped_cons, escapeChar]
      by_cases hquote : c = 34 ∨ c = 92
      · rw [if_pos hquote]
        show Spells (92 :: ([c] ++ escaped s)) ([c] ++ s)
        apply ih.escape
        intro rest
        rcases hquote with rfl | rfl <;> rfl
      · rw [if_neg hquote]
        rw [not_or] at hquote
        by_cases hc : c < 0x20
        · rw [if_pos hc]
          show Spells (92 :: ([117, 48, 48, hexDigit (c.toNat / 16), hexDigit (c.toNat % 16)] ++
            escaped s)) ([c] ++ s)
          exact ih.escape (readEscape_control hc)
        · rw [if_neg hc]
          exact ih.cons hquote.1 hquote.2 hc

theorem prints_quote (s : CString) : Prints (quote s) (.string s) :=
  prints_string (spells_escaped s)

theorem hexDigit_ascii (h : n < 16) : hexDigit n < 0x80 := by
  have hall : ∀ n < 16, hexDigit n < 0x80 := by decide
  exact hall n h

/-- ASCII characters lead from any state to the same one. -/
theorem run_ascii_ne_nil {c : UInt8} {l : List UInt8} (q : Utf8.State)
    (h : ∀ b ∈ c :: l, b < 0x80) :
    Utf8.run q (c :: l) = if q = .start then some .start else none := by
  rw [Utf8.run_cons, Utf8.step_ascii (h c (by simp))]
  by_cases hq : q = .start
  · rw [if_pos hq, Option.bind_some, Utf8.run_ascii fun b hb => h b (by simp [hb])]
  · rw [if_neg hq]
    rfl

/-- An escape is ASCII, as its character is. -/
theorem run_escapeChar (q : Utf8.State) (c : UInt8) :
    Utf8.run q (escapeChar c) = Utf8.run q [c] := by
  have hone : c < 0x80 → Utf8.run q [c] = if q = .start then some .start else none :=
    fun hc => run_ascii_ne_nil q (by simpa using hc)
  unfold escapeChar
  by_cases hquote : c = 34 ∨ c = 92
  · have hc : c < 0x80 := by rcases hquote with rfl | rfl <;> decide
    rw [if_pos hquote, hone hc]
    apply run_ascii_ne_nil
    simpa using hc
  · rw [if_neg hquote]
    by_cases hc : c < 0x20
    · have hascii : c < 0x80 := UInt8.lt_trans hc (by decide)
      have hlt : c.toNat < 32 := by simpa [UInt8.lt_iff_toNat_lt] using hc
      rw [if_pos hc, hone hascii]
      show Utf8.run q (92 :: [117, 48, 48, hexDigit (c.toNat / 16), hexDigit (c.toNat % 16)]) = _
      apply run_ascii_ne_nil
      intro b hb
      simp only [List.mem_cons, List.not_mem_nil, or_false] at hb
      rcases hb with rfl | rfl | rfl | rfl | rfl | rfl
      · decide
      · decide
      · decide
      · decide
      · exact hexDigit_ascii (by omega)
      · exact hexDigit_ascii (by omega)
    · rw [if_neg hc]

theorem valid_escaped (s : CString) : Utf8.valid (escaped s) = Utf8.valid s := by
  have hrun : ∀ q, Utf8.run q (escaped s) = Utf8.run q s := by
    induction s with
    | nil => exact fun q => rfl
    | cons c s ih =>
        intro q
        rw [escaped_cons, Utf8.run_append, run_escapeChar, Utf8.run_cons, Utf8.run_cons]
        cases Utf8.step q c with
        | none => rfl
        | some q' => exact ih q'
  unfold Utf8.valid
  rw [hrun]

theorem delimited_quote (s : CString) :
    Utf8.Delimited (quote s) ∧ Utf8.valid (quote s) = Utf8.valid s := by
  have hbetween : Utf8.Delimited (quote s) ∧ Utf8.valid (quote s) = Utf8.valid (escaped s) :=
    Utf8.delimited_between (by decide) (by decide) (escaped s)
  obtain ⟨hdelimited, hvalid⟩ := hbetween
  exact ⟨hdelimited, hvalid.trans (valid_escaped s)⟩

/-- A character that is printed as it is. -/
def plain (c : UInt8) : Bool := c ≠ 34 && (c ≠ 92 && (0x20 ≤ c && c < 0x80))

theorem escaped_plain (h : s.all plain = true) : escaped s = s := by
  induction s with
  | nil => rfl
  | cons c s ih =>
      rw [List.all_cons, Bool.and_eq_true] at h
      have hc := h.1
      simp only [plain, Bool.and_eq_true, decide_eq_true_eq] at hc
      have hcontrol : ¬c < 0x20 := UInt8.not_lt.mpr hc.2.2.1
      rw [escaped_cons, ih h.2, escapeChar, if_neg (not_or.mpr ⟨hc.1, hc.2.1⟩), if_neg hcontrol]
      rfl

theorem quoted_eq {s : String} (h : (cstr s).all plain = true) : quoted s = quote (cstr s) := by
  rw [quote, escaped_plain h]
  rfl

/-! ## Escaping into an array -/

theorem escapeChar_length (c : UInt8) : 1 ≤ (escapeChar c).length := by
  unfold escapeChar
  split
  · simp
  · split <;> simp [cstr]

theorem escaped_append (p s : CString) : escaped (p ++ s) = escaped p ++ escaped s :=
  List.flatMap_append

variable {m : Nat}

/-- The loop stops where the array is full, in the middle of the string or at its end. -/
theorem escapeLoop_cut {p : CString} (rest out : CString)
    (h : out.length + (escaped p).length = m + 1) :
    escapeLoop (m + 3) (p ++ rest) out = some (out ++ escaped p) := by
  induction p generalizing out with
  | nil =>
      have hlen : out.length = m + 1 := by simpa [escaped] using h
      have hout : out ++ escaped [] = out := List.append_nil out
      rw [List.nil_append, hout]
      cases rest with
      | nil => rfl
      | cons c rest =>
          rw [escapeLoop, if_neg (by omega)]
  | cons c p ih =>
      have hone := escapeChar_length c
      rw [escaped_cons, List.length_append] at h
      rw [List.cons_append, escapeLoop, if_pos (by omega), if_neg (by omega),
        ih (out ++ escapeChar c) (by rw [List.length_append]; omega), escaped_cons,
        List.append_assoc]

/-- The whole string fits. -/
theorem escapeLoop_whole (out : CString) (h : out.length + (escaped s).length ≤ m + 1) :
    escapeLoop (m + 3) s out = some (out ++ escaped s) := by
  induction s generalizing out with
  | nil => rw [escapeLoop, show escaped [] = [] from rfl, List.append_nil]
  | cons c s ih =>
      have hone := escapeChar_length c
      rw [escaped_cons, List.length_append] at h
      rw [escapeLoop, if_pos (by omega), if_neg (by omega),
        ih (out ++ escapeChar c) (by rw [List.length_append]; omega), escaped_cons,
        List.append_assoc]

/-- An escape does not fit. -/
theorem escapeLoop_refused (out : CString) (hout : out.length ≤ m + 1)
    (h : m + 1 < out.length + (escaped s).length)
    (hnot : ∀ p, p <+: s → out.length + (escaped p).length ≠ m + 1) :
    escapeLoop (m + 3) s out = none := by
  induction s generalizing out with
  | nil =>
      simp only [escaped, List.flatMap_nil, List.length_nil] at h
      omega
  | cons c s ih =>
      have hlt : out.length < m + 1 := by
        have hne := hnot [] List.nil_prefix
        simp only [escaped, List.flatMap_nil, List.length_nil] at hne
        omega
      rw [escaped_cons, List.length_append] at h
      rw [escapeLoop, if_pos (by omega)]
      by_cases hlong : (escapeChar c).length > 1 ∧
          out.length + (escapeChar c).length ≥ m + 3 - 1
      · rw [if_pos hlong]
      · rw [if_neg hlong]
        apply ih
        · rw [List.length_append]
          omega
        · rw [List.length_append]
          omega
        · intro p hp
          have hmore := hnot (c :: p) (List.cons_prefix_cons.mpr ⟨rfl, hp⟩)
          rw [escaped_cons, List.length_append] at hmore
          rw [List.length_append]
          omega

/-- The escapes fit into the array of an identifier, or fill it in the middle. -/
theorem jsonEscapeString_prefix {p : CString} (rest : CString)
    (h : (escaped p).length = m ∨ rest = [] ∧ (escaped p).length ≤ m) :
    jsonEscapeString (p ++ rest) (m + 3) = some (quote p) := by
  have hloop : escapeLoop (m + 3) (p ++ rest) [34] = some ([34] ++ escaped p) := by
    rcases h with h | ⟨rfl, h⟩
    · apply escapeLoop_cut
      rw [List.length_singleton]
      omega
    · rw [List.append_nil]
      apply escapeLoop_whole
      rw [List.length_singleton]
      omega
  have hlen : ¬([34] ++ escaped p).length ≥ m + 3 - 1 := by
    rw [List.length_append, List.length_singleton]
    omega
  rw [jsonEscapeString, hloop, Option.bind_some, if_neg hlen]
  rfl

/-- The identifier is refused: its escapes are too long, and no prefix of it fills the array. -/
def Refused (m : Nat) (s : CString) : Prop :=
  m < (escaped s).length ∧ ∀ p, p <+: s → (escaped p).length ≠ m

theorem Refused.jsonEscapeString (h : Refused m s) :
    jsonEscapeString s (m + 3) = none := by
  have hloop : escapeLoop (m + 3) s [34] = none := by
    apply escapeLoop_refused
    · simp
    · rw [List.length_singleton]
      have hlong := h.1
      omega
    · intro p hp
      have hne := h.2 p hp
      rw [List.length_singleton]
      omega
  rw [EventStream.jsonEscapeString, hloop]
  rfl

/-- What is printed of an identifier. -/
theorem exists_printed (h : ¬Refused m s) :
    ∃ p, p <+: s ∧ jsonEscapeString s (m + 3) = some (quote p) ∧
      (p = s ↔ (escaped s).length ≤ m) ∧ escaped p = (escaped s).take m := by
  by_cases hfit : (escaped s).length ≤ m
  · have hwhole := jsonEscapeString_prefix (m := m) (p := s) [] (.inr ⟨rfl, hfit⟩)
    rw [List.append_nil] at hwhole
    exact ⟨s, List.prefix_rfl, hwhole, iff_of_true rfl hfit, (List.take_of_length_le hfit).symm⟩
  · have hcut : ∃ p, p <+: s ∧ (escaped p).length = m := by
      by_contra hnone
      refine h ⟨by omega, fun p hp hlen => hnone ⟨p, hp, hlen⟩⟩
    obtain ⟨p, ⟨rest, rfl⟩, hlen⟩ := hcut
    refine ⟨p, List.prefix_append p rest, jsonEscapeString_prefix rest (.inl hlen), ?_, ?_⟩
    · refine iff_of_false (fun heq => hfit ?_) hfit
      rw [← heq]
      omega
    · rw [escaped_append, ← hlen, List.take_left]

/-! ## What an event says -/

/-- The name of the type on the stream; every change of the list of devices is announced as one. -/
def typeName : EventType → String
  | .deviceConnection => "device.connection"
  | .deviceChanged | .deviceAdded | .deviceRenamed | .deviceRemoved => "device.changed"
  | .deviceSchema => "device.schema"
  | .featureState => "feature.state"
  | .resyncRequired => "resync.required"
  | .settingsChanged => "settings.changed"
  | .settingsState => "settings.state"
  | .settingsTransaction => "settings.transaction"

/-- The type has the device, the feature. -/
def carriesDevice (ev : GatewayEvent) : Bool := ev.type ≠ .resyncRequired

def carriesFeature (ev : GatewayEvent) : Bool := ev.type = .featureState

def text (s : String) : Json := .string (cstr s)

/-- The value of a feature. -/
def stateValues (ev : GatewayEvent) : List (String × Json) :=
  match ev.valueKind with
  | .bool => [("valueType", text "bool"), ("value", .bool ev.boolValue)]
  | .int => [("valueType", text "int"), ("value", .number ev.intValue.toInt)]
  | .none => []

/-- What the event says besides its number, its type and its device. -/
def eventValues (ev : GatewayEvent) (feature : CString) : List (String × Json) :=
  match ev.type with
  | .deviceConnection => [("connected", .bool ev.boolValue)]
  | .deviceChanged | .deviceAdded | .deviceRenamed | .deviceRemoved | .resyncRequired => []
  | .deviceSchema => [("revision", .number ev.schemaRevision.toNat)]
  | .featureState =>
      [("featureId", .string feature), ("propertyId", .number ev.propertyId.toNat)] ++
        stateValues ev ++ [("updatedAtMs", .number ev.updatedAtMs.toInt)]
  | .settingsChanged => [("configRevision", .number ev.configRevision.toNat)]
  | .settingsState =>
      [("state", text (settingsStateName ev.settingsState)),
        ("schemaRevision", .number ev.schemaRevision.toNat),
        ("configRevision", .number ev.configRevision.toNat)]
  | .settingsTransaction =>
      [("operationId", .string (decimal ev.transactionId.toNat)),
        ("state", text (settingsTxStateName ev.settingsTxState)),
        ("current", .number ev.progressCurrent.toNat),
        ("total", .number ev.progressTotal.toNat),
        ("expectedRevision", .number ev.expectedRevision.toNat),
        ("newRevision", .number ev.newRevision.toNat)]

/-- The members of an event with these identifiers. -/
def eventView (ev : GatewayEvent) (device feature : CString) : List (String × Json) :=
  [("seq", .number ev.seq.toNat), ("type", text (typeName ev.type))] ++
    (if carriesDevice ev then [("deviceId", .string device)] else []) ++ eventValues ev feature

/-- The same as an object. -/
def eventJson (ev : GatewayEvent) (device feature : CString) : Json :=
  .object ((eventView ev device feature).map fun m => (cstr m.1, m.2))

/-! ## Reading a text -/

/-- The text with identifiers that are printed already. -/
def eventText (ev : GatewayEvent) (device feature : CString) : CString :=
  jsonObject (("seq", decimal ev.seq.toNat) :: eventMembers ev device feature)

theorem jsonObject_eq (members : List (String × CString)) :
    jsonObject members = objectText (members.map fun m => (cstr m.1, m.2)) := by
  unfold jsonObject objectText
  rw [List.map_map]
  have hmember : (fun m : String × CString => cstr "\"" ++ cstr m.1 ++ cstr "\":" ++ m.2) =
      memberText ∘ fun m => (cstr m.1, m.2) := by
    funext m
    simp [memberText, cstr]
  rw [hmember]
  rfl

/-- The text of the value is UTF-8. -/
def validValue : Json → Bool
  | .string s => Utf8.valid s
  | _ => true

/-- A member that is read back: its key is plain, and its text is that of the value. -/
structure Reads (m : String × CString) (v : String × Json) : Prop where
  key : m.1 = v.1 ∧ (cstr m.1).all plain = true
  value : Prints m.2 v.2
  delimited : Utf8.Delimited m.2
  valid : Utf8.valid m.2 = validValue v.2

theorem plain_ascii (h : s.all plain = true) : ∀ c ∈ s, c < 0x80 := by
  intro c hc
  have hplain := List.all_eq_true.mp h c hc
  simp only [plain, Bool.and_eq_true, decide_eq_true_eq] at hplain
  exact hplain.2.2.2

theorem digits_ascii : ∀ c ∈ decimal n, c < 0x80 := by
  have hall : ∀ k n, ∀ c ∈ digits k n, c < 0x80 := by
    intro k
    induction k with
    | zero => simp [digits]
    | succ k ih =>
        intro n c hc
        rw [digits] at hc
        rcases List.mem_append.mp hc with hc | hc
        · split at hc
          · cases hc
          · exact ih _ c hc
        · rw [List.mem_singleton.mp hc, UInt8.lt_iff_toNat_lt, UInt8.toNat_ofNat']
          have hmod : n % 10 < 10 := Nat.mod_lt n (by decide)
          show (48 + n % 10) % 2 ^ 8 < 128
          omega
  exact hall 20 n

theorem signed_ascii {i : Int} : ∀ c ∈ signedDecimal i, c < 0x80 := by
  intro c hc
  unfold signedDecimal at hc
  split at hc
  · rcases List.mem_append.mp hc with hc | hc
    · rw [List.mem_singleton.mp hc]
      decide
    · exact digits_ascii c hc
  · exact digits_ascii c hc

section Members

variable {k : String}

theorem reads_ascii {v : Json} (hk : (cstr k).all plain = true) (hprints : Prints s v)
    (hs : ∀ c ∈ s, c < 0x80) (hv : validValue v = true) :
    Reads (k, s) (k, v) where
  key := ⟨rfl, hk⟩
  value := hprints
  delimited := Utf8.delimited_ascii hs
  valid := (Utf8.valid_ascii hs).trans hv.symm

theorem reads_quote (hk : (cstr k).all plain = true) (s : CString) :
    Reads (k, quote s) (k, .string s) where
  key := ⟨rfl, hk⟩
  value := prints_quote s
  delimited := (delimited_quote s).1
  valid := (delimited_quote s).2

theorem reads_text (hk : (cstr k).all plain = true) {s : String}
    (hs : (cstr s).all plain = true) : Reads (k, quoted s) (k, text s) := by
  rw [quoted_eq hs]
  exact reads_quote hk (cstr s)

theorem reads_bool (hk : (cstr k).all plain = true) (b : Bool) :
    Reads (k, bool b) (k, .bool b) := by
  refine reads_ascii hk (prints_bool b) ?_ rfl
  cases b
  · exact plain_ascii (s := cstr "false") (by decide)
  · exact plain_ascii (s := cstr "true") (by decide)

theorem reads_decimal (hk : (cstr k).all plain = true) (h : n < 10 ^ 20) :
    Reads (k, decimal n) (k, .number n) :=
  reads_ascii hk (prints_decimal h) digits_ascii rfl

theorem reads_signed (hk : (cstr k).all plain = true) {n : Int} (h : n.natAbs < 10 ^ 20) :
    Reads (k, signedDecimal n) (k, .number n) :=
  reads_ascii hk (prints_signed h) signed_ascii rfl

/-- The digits of a number between quotes. -/
theorem quoted_decimal (n : Nat) : cstr "\"" ++ decimal n ++ cstr "\"" = quote (decimal n) := by
  have hescaped : ∀ k n, escaped (digits k n) = digits k n := by
    intro k
    induction k with
    | zero => exact fun n => rfl
    | succ k ih =>
        intro n
        have hmod : n % 10 < 10 := Nat.mod_lt n (by decide)
        have hall : ∀ d < 10, escapeChar (UInt8.ofNat (48 + d)) = [UInt8.ofNat (48 + d)] := by
          decide
        have hlast : escaped [UInt8.ofNat (48 + n % 10)] = [UInt8.ofNat (48 + n % 10)] := by
          rw [escaped_cons, hall _ hmod]
          rfl
        rw [digits, escaped_append, hlast]
        split
        · rfl
        · rw [ih]
  unfold quote decimal
  rw [hescaped]
  rfl

end Members

theorem getD_plain {names : List String} {other : String}
    (h : ((other :: names).all fun s => (cstr s).all plain) = true) (i : Nat) :
    (cstr (names.getD i other)).all plain = true := by
  rw [List.all_eq_true] at h
  rw [List.getD_eq_getElem?_getD]
  cases hi : names[i]? with
  | none => exact h other (by simp)
  | some s => exact h s (List.mem_cons_of_mem _ (List.mem_of_getElem? hi))

theorem settingsStateName_plain (state : UInt8) :
    (cstr (settingsStateName state)).all plain = true :=
  getD_plain (by decide) _

theorem settingsTxStateName_plain (state : UInt8) :
    (cstr (settingsTxStateName state)).all plain = true :=
  getD_plain (by decide) _

theorem natAbs_int32 (v : Int32) : v.toInt.natAbs < 10 ^ 20 := by
  have h₁ := v.toInt_lt
  have h₂ := v.le_toInt
  omega

theorem natAbs_int64 (v : Int64) : v.toInt.natAbs < 10 ^ 20 := by
  have h₁ := v.toInt_lt
  have h₂ := v.le_toInt
  omega

/-- The members of an event are read back one by one. -/
theorem reads_event (ev : GatewayEvent) (p q : CString) :
    List.Forall₂ Reads (("seq", decimal ev.seq.toNat) :: eventMembers ev (quote p) (quote q))
      (eventView ev p q) := by
  have hseq : Reads ("seq", decimal ev.seq.toNat) ("seq", .number ev.seq.toNat) :=
    reads_decimal (by decide) (Nat.lt_of_lt_of_le ev.seq.toNat_lt (by decide))
  have hdevice : Reads ("deviceId", quote p) ("deviceId", .string p) := reads_quote (by decide) p
  have htype {s : String} (hs : (cstr s).all plain = true) :
      Reads ("type", quoted s) ("type", text s) := reads_text (by decide) hs
  have huint32 {k : String} (hk : (cstr k).all plain = true) (v : UInt32) :
      Reads (k, decimal v.toNat) (k, .number v.toNat) :=
    reads_decimal hk (Nat.lt_of_lt_of_le v.toNat_lt (by decide))
  have huint16 {k : String} (hk : (cstr k).all plain = true) (v : UInt16) :
      Reads (k, decimal v.toNat) (k, .number v.toNat) :=
    reads_decimal hk (Nat.lt_of_lt_of_le v.toNat_lt (by decide))
  unfold eventMembers eventView eventValues carriesDevice
  cases ev.type with
  | deviceConnection =>
      exact .cons hseq (.cons (htype (by decide)) (.cons hdevice
        (.cons (reads_bool (by decide) _) .nil)))
  | deviceChanged | deviceAdded | deviceRenamed | deviceRemoved =>
      exact .cons hseq (.cons (htype (by decide)) (.cons hdevice .nil))
  | resyncRequired => exact .cons hseq (.cons (htype (by decide)) .nil)
  | deviceSchema | settingsChanged =>
      exact .cons hseq (.cons (htype (by decide)) (.cons hdevice
        (.cons (huint32 (by decide) _) .nil)))
  | settingsState =>
      exact .cons hseq (.cons (htype (by decide)) (.cons hdevice
        (.cons (reads_text (by decide) (settingsStateName_plain _))
          (.cons (huint32 (by decide) _) (.cons (huint32 (by decide) _) .nil)))))
  | settingsTransaction =>
      have hoperation : Reads
          ("operationId", cstr "\"" ++ decimal ev.transactionId.toNat ++ cstr "\"")
          ("operationId", .string (decimal ev.transactionId.toNat)) := by
        rw [quoted_decimal]
        exact reads_quote (by decide) _
      exact .cons hseq (.cons (htype (by decide)) (.cons hdevice (.cons hoperation
        (.cons (reads_text (by decide) (settingsTxStateName_plain _))
          (.cons (huint16 (by decide) _) (.cons (huint16 (by decide) _)
            (.cons (huint32 (by decide) _) (.cons (huint32 (by decide) _) .nil))))))))
  | featureState =>
      have hupdated : Reads ("updatedAtMs", signedDecimal ev.updatedAtMs.toInt)
          ("updatedAtMs", .number ev.updatedAtMs.toInt) :=
        reads_signed (by decide) (natAbs_int64 _)
      have hproperty : Reads ("propertyId", decimal ev.propertyId.toNat)
          ("propertyId", .number ev.propertyId.toNat) :=
        reads_decimal (by decide) (Nat.lt_of_lt_of_le ev.propertyId.toNat_lt (by decide))
      refine .cons hseq (.cons (htype (by decide)) (.cons hdevice
        (.cons (reads_quote (by decide) q) (.cons hproperty ?_))))
      unfold stateValues
      cases ev.valueKind with
      | none => exact .cons hupdated .nil
      | bool =>
          exact .cons (reads_text (by decide) (by decide))
            (.cons (reads_bool (by decide) _) (.cons hupdated .nil))
      | int =>
          exact .cons (reads_text (by decide) (by decide))
            (.cons (reads_signed (by decide) (natAbs_int32 _)) (.cons hupdated .nil))

/-- The identifiers that the event carries are UTF-8. -/
def ValidIds (ev : GatewayEvent) (p q : CString) : Prop :=
  (carriesDevice ev = true → Utf8.valid p = true) ∧
    (carriesFeature ev = true → Utf8.valid q = true)

theorem validValue_text {s : String} (h : (cstr s).all plain = true) :
    validValue (text s) = true := Utf8.valid_ascii (plain_ascii h)

@[simp] theorem validValue_string (s : CString) : validValue (.string s) = Utf8.valid s := rfl

@[simp] theorem validValue_number (v : ℚ) : validValue (.number v) = true := rfl

@[simp] theorem validValue_bool (b : Bool) : validValue (.bool b) = true := rfl

theorem validValues_iff (ev : GatewayEvent) (p q : CString) :
    ((eventView ev p q).all fun m => validValue m.2) = true ↔ ValidIds ev p q := by
  have htype : validValue (text (typeName ev.type)) = true := by
    apply validValue_text
    cases ev.type <;> decide
  have hdevice : ((if carriesDevice ev then [("deviceId", Json.string p)] else []).all
      fun m : String × Json => validValue m.2) = true ↔
        (carriesDevice ev = true → Utf8.valid p = true) := by
    cases carriesDevice ev <;> simp
  have hvalues : ((eventValues ev q).all fun m => validValue m.2) = true ↔
      (carriesFeature ev = true → Utf8.valid q = true) := by
    have hdigits : Utf8.valid (decimal ev.transactionId.toNat) = true :=
      Utf8.valid_ascii digits_ascii
    have hstate := validValue_text (settingsStateName_plain ev.settingsState)
    have htx := validValue_text (settingsTxStateName_plain ev.settingsTxState)
    have hfeature : ((stateValues ev).all fun m => validValue m.2) = true := by
      have hbool := validValue_text (s := "bool") (by decide)
      have hint := validValue_text (s := "int") (by decide)
      unfold stateValues
      cases ev.valueKind <;>
        simp only [List.all_cons, List.all_nil, hbool, hint, validValue_bool, validValue_number,
          Bool.and_self]
    unfold eventValues carriesFeature
    cases ev.type <;>
      simp only [List.all_append, List.all_cons, List.all_nil, validValue_string,
        validValue_number, validValue_bool, hdigits, hstate, htx, hfeature, Bool.and_true,
        Bool.and_self, reduceCtorEq, decide_false, decide_true, Bool.false_eq_true,
        false_implies, true_implies]
  unfold ValidIds eventView
  rw [List.all_append, List.all_append, Bool.and_eq_true, Bool.and_eq_true, hdevice, hvalues]
  simp [htype]

/-- **What a reader finds in the text of an event** whose identifiers are printed as far as `p` and
`q`. -/
theorem parse_eventText (ev : GatewayEvent) (p q : CString) :
    (ValidIds ev p q → Json.parse (eventText ev (quote p) (quote q)) = some (eventJson ev p q)) ∧
      (¬ValidIds ev p q → Json.parse (eventText ev (quote p) (quote q)) = none) := by
  have hreads := reads_event ev p q
  rw [← validValues_iff]
  unfold eventText eventJson
  rw [jsonObject_eq]
  generalize hms : ("seq", decimal ev.seq.toNat) :: eventMembers ev (quote p) (quote q) = ms
    at hreads
  generalize eventView ev p q = vs at hreads
  have hne : (ms.map fun m => (cstr m.1, m.2)) ≠ [] := by
    rw [← hms]
    simp
  have hforall : List.Forall₂ (fun m v => Spells m.1 v.1 ∧ Prints m.2 v.2)
      (ms.map fun m => (cstr m.1, m.2)) (vs.map fun m => (cstr m.1, m.2)) := by
    rw [List.forall₂_map_left_iff, List.forall₂_map_right_iff]
    refine hreads.imp fun m v h => ⟨?_, h.value⟩
    have hspells := spells_escaped (cstr m.1)
    rw [escaped_plain h.key.2] at hspells
    rw [← h.key.1]
    exact hspells
  have hmembers : ∀ m ∈ ms, (cstr m.1).all plain = true ∧ Utf8.Delimited m.2 := by
    have hboth : List.Forall₂
        (fun m v => ((cstr m.1).all plain = true ∧ Utf8.Delimited m.2) ∧ Reads m v) ms vs :=
      hreads.imp fun m v h => ⟨⟨h.key.2, h.delimited⟩, h⟩
    exact ((List.forall₂_and_left ms vs).mp hboth).1
  have hvalid : (ms.all fun m => Utf8.valid m.2) = vs.all fun m => validValue m.2 := by
    clear hms hne hforall hmembers
    induction hreads with
    | nil => rfl
    | cons h _ ih => rw [List.all_cons, List.all_cons, h.valid, ih]
  have hparse := parse_objectText hne hforall
    (fun m hm => by
      obtain ⟨m', hm', rfl⟩ := List.mem_map.mp hm
      exact plain_ascii (hmembers m' hm').1)
    (fun m hm => by
      obtain ⟨m', hm', rfl⟩ := List.mem_map.mp hm
      exact (hmembers m' hm').2)
  have hall : ((ms.map fun m => (cstr m.1, m.2)).all fun m => Utf8.valid m.2) =
      vs.all fun m => validValue m.2 := by
    rw [List.all_map]
    exact hvalid
  rw [hparse, hall]
  exact ⟨fun h => if_pos h, fun h => if_neg h⟩

/-- The identifiers that an event carries can be read off what it says. -/
theorem eventJson_inj {ev : GatewayEvent} {p q p' q' : CString} :
    eventJson ev p q = eventJson ev p' q' ↔
      (carriesDevice ev = true → p = p') ∧ (carriesFeature ev = true → q = q') := by
  constructor
  · intro h
    simp only [eventJson, eventView, Json.object.injEq, List.map_append] at h
    have hlen : ∀ q q', (eventValues ev q).length = (eventValues ev q').length := by
      intro q q'
      unfold eventValues
      cases ev.type <;> rfl
    obtain ⟨hfront, hback⟩ := List.append_inj' h (by simp [hlen q q'])
    constructor
    · intro hc
      simpa [hc] using hfront
    · intro hc
      simp only [carriesFeature, decide_eq_true_eq] at hc
      simp only [eventValues, hc] at hback
      simpa using hback
  · rintro ⟨hp, hq⟩
    unfold eventJson eventView eventValues carriesDevice carriesFeature at *
    cases htype : ev.type <;> simp_all

/-! ## The serializer -/

/-- An identifier is UTF-8, and its escapes fit into the array. -/
structure Intact (m : Nat) (s : CString) : Prop where
  valid : Utf8.valid s = true
  fits : (escaped s).length ≤ m

/-- The characters of an identifier that are printed, at most. -/
def printed (m : Nat) (s : CString) : CString := 34 :: ((escaped s).take m ++ [34])

/-- The room for the escapes of the two identifiers. -/
def DEVICE_ESCAPES : Nat := DEVICE_ID_MAX_LEN * 4
def FEATURE_ESCAPES : Nat := DEVICE_FEATURE_ID_MAX_LEN * 4

/-- The length of the text of an event, should it be printed. -/
def textLength (ev : GatewayEvent) : Nat :=
  (eventText ev (printed DEVICE_ESCAPES ev.deviceId.text)
    (printed FEATURE_ESCAPES ev.featureId.text)).length

/-- The serializer writes nothing, or the identifiers of the event are intact. -/
def Serializable (ev : GatewayEvent) (len : Nat) : Prop :=
  Refused DEVICE_ESCAPES ev.deviceId.text ∨ Refused FEATURE_ESCAPES ev.featureId.text ∨
    len ≤ textLength ev ∨
      ((carriesDevice ev = true → Intact DEVICE_ESCAPES ev.deviceId.text) ∧
        (carriesFeature ev = true → Intact FEATURE_ESCAPES ev.featureId.text))

/-- **The serializer is faithful** exactly on these events: whatever it writes is read back as the
event. -/
theorem serializeEvent_faithful_iff (ev : GatewayEvent) (len : Nat) :
    (∀ out, serializeEvent ev len = some out →
      Json.parse out = some (eventJson ev ev.deviceId.text ev.featureId.text)) ↔
        Serializable ev len := by
  unfold Serializable
  by_cases hdevice : Refused DEVICE_ESCAPES ev.deviceId.text
  · have hnone : serializeEvent ev len = none := by
      have hescape := hdevice.jsonEscapeString
      rw [serializeEvent, ← DEVICE_ESCAPES, hescape]
      rfl
    refine iff_of_true (fun out hout => ?_) (.inl hdevice)
    rw [hnone] at hout
    cases hout
  obtain ⟨p, -, hp, hpwhole, hptake⟩ := exists_printed hdevice
  by_cases hfeature : Refused FEATURE_ESCAPES ev.featureId.text
  · have hnone : serializeEvent ev len = none := by
      have hescape := hfeature.jsonEscapeString
      rw [serializeEvent, ← DEVICE_ESCAPES, hp, Option.bind_some, ← FEATURE_ESCAPES, hescape]
      rfl
    refine iff_of_true (fun out hout => ?_) (.inr (.inl hfeature))
    rw [hnone] at hout
    cases hout
  obtain ⟨q, -, hq, hqwhole, hqtake⟩ := exists_printed hfeature
  have hlength : (eventText ev (quote p) (quote q)).length = textLength ev := by
    rw [textLength, printed, printed, ← hptake, ← hqtake]
    rfl
  have hserialize : serializeEvent ev len =
      if textLength ev ≥ len then none else some (eventText ev (quote p) (quote q)) := by
    rw [serializeEvent, ← DEVICE_ESCAPES, hp, Option.bind_some, ← FEATURE_ESCAPES, hq,
      Option.bind_some, ← hlength]
    rfl
  rw [hserialize]
  by_cases hlen : textLength ev ≥ len
  · rw [if_pos hlen]
    refine iff_of_true (fun out hout => ?_) (.inr (.inr (.inl hlen)))
    cases hout
  rw [if_neg hlen]
  obtain ⟨hvalid, hinvalid⟩ := parse_eventText ev p q
  simp only [hdevice, hfeature, false_or, show ¬len ≤ textLength ev from hlen,
    Option.some.injEq, forall_eq']
  constructor
  · intro hread
    by_cases hids : ValidIds ev p q
    · rw [hvalid hids, Option.some.injEq, eventJson_inj] at hread
      constructor
      · intro hc
        obtain rfl := hread.1 hc
        exact ⟨hids.1 hc, hpwhole.mp rfl⟩
      · intro hc
        obtain rfl := hread.2 hc
        exact ⟨hids.2 hc, hqwhole.mp rfl⟩
    · rw [hinvalid hids] at hread
      cases hread
  · rintro ⟨hp', hq'⟩
    have hids : ValidIds ev p q := by
      constructor
      · intro hc
        rw [hpwhole.mpr (hp' hc).fits]
        exact (hp' hc).valid
      · intro hc
        rw [hqwhole.mpr (hq' hc).fits]
        exact (hq' hc).valid
    rw [hvalid hids, Option.some.injEq, eventJson_inj]
    exact ⟨fun hc => hpwhole.mpr (hp' hc).fits, fun hc => hqwhole.mpr (hq' hc).fits⟩

/-- A device id of 21 control characters and three letters. -/
def cutEvent : GatewayEvent where
  seq := 1
  deviceId := strlcpy _ (List.replicate 21 1 ++ cstr "abc")

/-- What is printed of the id: it is all but the last letter. -/
def cutId : CString := List.replicate 21 1 ++ cstr "ab"

set_option maxRecDepth 4000 in
theorem serializeEvent_cut : serializeEvent cutEvent WEB_WS_JSON_MAX =
    some (eventText cutEvent (quote cutId) (quote [])) := by
  decide

/-- An identifier is cut without an error. -/
theorem serializeEvent_unfaithful : ¬ ∀ (ev : GatewayEvent) (len : Nat) (out : CString),
    serializeEvent ev len = some out →
      Json.parse out = some (eventJson ev ev.deviceId.text ev.featureId.text) := by
  intro h
  have hread := h cutEvent WEB_WS_JSON_MAX _ serializeEvent_cut
  have hids : ValidIds cutEvent cutId [] := ⟨fun _ => by decide, fun hc => by cases hc⟩
  rw [(parse_eventText cutEvent cutId []).1 hids, Option.some.injEq, eventJson_inj] at hread
  have hcut : cutId ≠ cutEvent.deviceId.text := by decide
  exact hcut (hread.1 rfl)

end BleGateway.EventStream
