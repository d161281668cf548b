import BleGateway.Lib.Base64
import BleGateway.Mcp.Auth
import BleGateway.Mcp.Protocol

/-! # The name in the header

`b64_decode` and `mcp_codec_decode_name` of `mcp_codec.c`. A name that is not safe in a header is
sent as `=?base64?...?=`. The prefix has nine characters and its length is given as ten, so that the
comparison takes in the NUL behind it and finds the prefix only where nothing follows. What cannot
be decoded is kept as it is and compared with the name of the request, too.
-/

namespace BleGateway.Mcp

open CborCodec (Text)

/-! ## Base64 -/

/-- `b64_char_val`, or `none` for `-1`. -/
def b64CharVal (c : UInt8) : Option Nat :=
  if byte 'A' ≤ c ∧ c ≤ byte 'Z' then some (c - byte 'A').toNat
  else if byte 'a' ≤ c ∧ c ≤ byte 'z' then some ((c - byte 'a').toNat + 26)
  else if byte '0' ≤ c ∧ c ≤ byte '9' then some ((c - byte '0').toNat + 52)
  else if c = byte '+' then some 62
  else if c = byte '/' then some 63
  else none

/-- One more than the largest `uint32_t`. -/
def UINT32_RANGE : Nat := 4294967296

/-- The loop of `b64_decode`; `out` is what has been written so far. -/
def b64Loop (outMax : Nat) : CString → List UInt8 → Nat → Nat → Option (List UInt8)
  | [], out, _, _ => some out
  | c :: input, out, acc, bits =>
      if c = byte '=' then some out
      else
        match b64CharVal c with
        | none => none
        | some val =>
            let acc := (acc * 64 + val) % UINT32_RANGE
            if bits + 6 ≥ 8 then
              if out.length ≥ outMax then none
              else
                b64Loop outMax input (out ++ [UInt8.ofNat (acc >>> (bits + 6 - 8))]) acc
                  (bits + 6 - 8)
            else b64Loop outMax input out acc (bits + 6)

/-- `b64_decode`: the bytes, or `none` for `-1`. -/
def b64Decode (input : CString) (outMax : Nat) : Option (List UInt8) := b64Loop outMax input [] 0 0

/-! ## Names -/

def MCP_NAME_DECODED_MAX : Nat := 128
def MCP_B64_PREFIX : CString := cstr "=?base64?"
def MCP_B64_SUFFIX : CString := cstr "?="
def MCP_B64_PREFIX_LEN : Nat := 10
def MCP_B64_SUFFIX_LEN : Nat := 2

/-- `strncmp(a, b, n) == 0`: the terminating NUL takes part in the comparison. -/
def strncmpEq (a b : CString) (n : Nat) : Bool := (a ++ [0]).take n = (b ++ [0]).take n

/-- `mcp_codec_decode_name`; `allocated` is whether the memory for the result is available. -/
def mcpCodecDecodeName (allocated : Bool) (rawName : CString) : Option CString :=
  if strncmpEq rawName MCP_B64_PREFIX MCP_B64_PREFIX_LEN then
    if rawName.length < MCP_B64_PREFIX_LEN + MCP_B64_SUFFIX_LEN then none
    else if rawName.drop (rawName.length - MCP_B64_SUFFIX_LEN) ≠ MCP_B64_SUFFIX then none
    else
      let encLen := rawName.length - MCP_B64_PREFIX_LEN - MCP_B64_SUFFIX_LEN
      let encoded := (rawName.drop MCP_B64_PREFIX_LEN).take encLen
      let maxDecoded := encLen * 3 / 4 + 1
      if maxDecoded > MCP_NAME_DECODED_MAX + 1 then none
      else if !allocated then none
      else
        (b64Decode encoded maxDecoded).bind fun decoded =>
          if decoded.length > MCP_NAME_DECODED_MAX then none else some (decoded.takeWhile (· ≠ 0))
  else if allocated then some rawName
  else none

/-! ## The standard encoding -/

/-- The digits of the standard alphabet. -/
def b64Digit (n : Nat) : UInt8 :=
  if n < 26 then UInt8.ofNat (65 + n)
  else if n < 52 then UInt8.ofNat (97 + (n - 26))
  else if n < 62 then UInt8.ofNat (48 + (n - 52))
  else if n = 62 then byte '+'
  else byte '/'

/-- The standard Base64 encoding. -/
def base64 (name : List UInt8) : CString := Base64.encode b64Digit (byte '=') name

/-- The header value of an encoded name. -/
def sentinel (name : List UInt8) : CString := MCP_B64_PREFIX ++ base64 name ++ MCP_B64_SUFFIX

theorem b64CharVal_b64Digit {n : Nat} (h : n < 64) :
    b64Digit n ≠ byte '=' ∧ b64CharVal (b64Digit n) = some n := by
  have hall : ∀ i : Fin 64, b64Digit i ≠ byte '=' ∧ b64CharVal (b64Digit i) = some i.val := by
    decide
  exact hall ⟨n, h⟩

variable {outMax : Nat} {input : CString} {out : List UInt8} {acc v : Nat}

/-- The first digit of a group gives no byte. -/
theorem b64Loop_first (hv : v < 64) : b64Loop outMax (b64Digit v :: input) out acc 0 =
    b64Loop outMax input out ((acc * 64 + v) % UINT32_RANGE) 6 := by
  obtain ⟨hpad, hval⟩ := b64CharVal_b64Digit hv
  rw [b64Loop, if_neg hpad, hval]
  rfl

/-- Every other digit gives a byte: eight bits of the digits before it and its own. The digits are
in the last twelve bits of the accumulator, which the wrap leaves alone. -/
theorem b64Loop_next {bits w : Nat} (b : UInt8) (hw : w < 64) (hbits : 2 ≤ bits ∧ bits ≤ 6)
    (hroom : out.length < outMax) (hb : (v * 64 + w) / 2 ^ (bits - 2) % 256 = b.toNat) :
    b64Loop outMax (b64Digit w :: input) out ((acc * 64 + v) % UINT32_RANGE) bits =
      b64Loop outMax input (out ++ [b])
        (((acc * 64 + v) % UINT32_RANGE * 64 + w) % UINT32_RANGE) (bits - 2) := by
  obtain ⟨hpad, hval⟩ := b64CharVal_b64Digit hw
  have hoctet : UInt8.ofNat
      ((((acc * 64 + v) % UINT32_RANGE * 64 + w) % UINT32_RANGE) >>> (bits - 2)) = b := by
    rw [← UInt8.toNat_inj, UInt8.toNat_ofNat', Nat.shiftRight_eq_div_pow, ← hb]
    have hrange : UINT32_RANGE = 4294967296 := rfl
    have hcases : bits = 2 ∨ bits = 3 ∨ bits = 4 ∨ bits = 5 ∨ bits = 6 := by omega
    rw [hrange]
    rcases hcases with rfl | rfl | rfl | rfl | rfl <;> simp <;> omega
  rw [b64Loop, if_neg hpad, hval]
  dsimp only
  rw [if_pos (by omega), if_neg (by omega), show bits + 6 - 8 = bits - 2 by omega, hoctet]

/-- A group of four digits gives three bytes. -/
theorem b64Loop_group (a b c : UInt8) (hroom : out.length + 3 ≤ outMax) : ∃ acc',
    b64Loop outMax (b64Digit (a.toNat / 4) :: b64Digit (a.toNat % 4 * 16 + b.toNat / 16) ::
        b64Digit (b.toNat % 16 * 4 + c.toNat / 64) :: b64Digit (c.toNat % 64) :: input) out acc 0 =
      b64Loop outMax input (out ++ [a, b, c]) acc' 0 := by
  have ha := a.toNat_lt
  have hb := b.toNat_lt
  have hc := c.toNat_lt
  apply Exists.intro
  rw [b64Loop_first, b64Loop_next a, b64Loop_next b, b64Loop_next c, List.append_assoc,
    List.append_assoc]
  · rfl
  all_goals first | omega | (simp; omega)

/-- **The decoder reads the standard encoding.** -/
theorem b64Loop_base64 (name : List UInt8) (hroom : out.length + name.length ≤ outMax) :
    b64Loop outMax (base64 name) out acc 0 = some (out ++ name) := by
  unfold base64
  induction name using Base64.encode.induct generalizing out acc with
  | case1 => simp [Base64.encode, b64Loop]
  | case2 a =>
      have ha := a.toNat_lt
      rw [List.length_singleton] at hroom
      rw [Base64.encode, b64Loop_first, b64Loop_next a]
      · simp [b64Loop]
      all_goals omega
  | case3 a b =>
      have ha := a.toNat_lt
      have hb := b.toNat_lt
      rw [List.length_cons, List.length_singleton] at hroom
      rw [Base64.encode, b64Loop_first, b64Loop_next a, b64Loop_next b]
      · simp [b64Loop]
      all_goals first | omega | (simp; omega)
  | case4 a b c rest ih =>
      simp only [List.length_cons] at hroom
      obtain ⟨acc', hgroup⟩ : ∃ acc', b64Loop outMax (Base64.encode b64Digit (byte '=')
          (a :: b :: c :: rest)) out acc 0 =
          b64Loop outMax (Base64.encode b64Digit (byte '=') rest) (out ++ [a, b, c]) acc' 0 :=
        b64Loop_group a b c (by omega)
      rw [hgroup, ih (by simp; omega), List.append_assoc]
      rfl

theorem base64_injective {m n : List UInt8} (h : base64 m = base64 n) : m = n := by
  have hm : b64Loop (m.length + n.length) (base64 m) [] 0 0 = some m := b64Loop_base64 m (by simp)
  have hn : b64Loop (m.length + n.length) (base64 n) [] 0 0 = some n := b64Loop_base64 n (by simp)
  rw [h, hn] at hm
  exact (Option.some.inj hm).symm

theorem sentinel_injective {m n : List UInt8} (h : sentinel m = sentinel n) : m = n := by
  unfold sentinel at h
  rw [List.append_cancel_right_eq, List.append_cancel_left_eq] at h
  exact base64_injective h

/-! ## What the comparison finds -/

/-- The comparison finds the prefix in no text but the prefix itself. -/
theorem strncmpEq_prefix_iff (raw : Text) :
    strncmpEq raw.bytes MCP_B64_PREFIX MCP_B64_PREFIX_LEN = true ↔ raw.bytes = MCP_B64_PREFIX := by
  have hwhole : (MCP_B64_PREFIX ++ [0]).take MCP_B64_PREFIX_LEN = MCP_B64_PREFIX ++ [0] := by decide
  have hlength : MCP_B64_PREFIX.length = 9 := by decide
  unfold strncmpEq
  rw [decide_eq_true_eq, hwhole]
  constructor
  · intro h
    have hlen : raw.bytes.length = 9 := by
      have htaken := congrArg List.length h
      rw [List.length_take, List.length_append, List.length_append, hlength] at htaken
      have hten : MCP_B64_PREFIX_LEN = 10 := rfl
      rw [List.length_singleton] at htaken
      by_contra hne
      -- a longer text would have a NUL at its tenth character
      have hzero : (0 : UInt8) ∈ raw.bytes.take MCP_B64_PREFIX_LEN := by
        have htake : (raw.bytes ++ [0]).take MCP_B64_PREFIX_LEN =
            raw.bytes.take MCP_B64_PREFIX_LEN := List.take_append_of_le_length (by omega)
        rw [← htake, h]
        exact List.mem_append_right _ (List.mem_singleton.mpr rfl)
      exact raw.nulFree 0 (List.mem_of_mem_take hzero) rfl
    rw [List.take_of_length_le (by rw [List.length_append, hlen]; decide)] at h
    exact List.append_cancel_right h
  · intro h
    rw [h, hwhole]

theorem decodeName_eq (raw : Text) : mcpCodecDecodeName true raw.bytes =
    if raw.bytes = MCP_B64_PREFIX then none else some raw.bytes := by
  unfold mcpCodecDecodeName
  by_cases h : raw.bytes = MCP_B64_PREFIX
  · rw [if_pos ((strncmpEq_prefix_iff raw).mpr h), if_pos h, if_pos (by rw [h]; decide)]
  · rw [if_neg fun hs => h ((strncmpEq_prefix_iff raw).mp hs), if_neg h]
    rfl

/-! ## Which values are decoded right -/

/-- A `tools/call` with this header value is found valid: the value is taken for the name of the
tool. The wire context has room for it. -/
def Matched (raw : CString) : Prop :=
  raw.length ≤ MCP_NAME_DECODED_MAX ∧ ∃ compat root wire context,
    wire.nameMetadata = some raw ∧ methodOf root = some (cstr "tools/call") ∧
      protocolDetect compat (mcpCodecDecodeName true) root wire = .ok context ∧
        context.era = .y2026 ∧ validateRequest compat root context = none

/-- A call of the tool with this name. -/
def callOf (name : CString) : Json :=
  .object [(cstr "method", .string (cstr "tools/call")), (cstr "params", .object
    [(cstr "_meta", .object
      [(MCP_META_KEY_PROTOCOL_VERSION, .string MCP_PROTOCOL_VERSION_2026),
        (MCP_META_KEY_CLIENT_CAPS, .object [])]),
      (cstr "name", .string name)])]

/-- The headers of such a call. -/
def headersOf (name : CString) : WireContext where
  protocolVersion := some MCP_PROTOCOL_VERSION_2026
  methodMetadata := some (cstr "tools/call")
  nameMetadata := some name

/-- Every value that fits is the name of a tool that can be called with it. -/
theorem matched_of_length (raw : Text) (h : raw.bytes.length ≤ MCP_NAME_DECODED_MAX) :
    Matched raw.bytes := by
  have hkept : (mcpCodecDecodeName true raw.bytes).getD raw.bytes = raw.bytes := by
    rw [decodeName_eq]
    split <;> rfl
  refine ⟨h, true, callOf raw.bytes, headersOf raw.bytes, _, rfl, rfl, rfl, rfl, ?_⟩
  change (if (mcpCodecDecodeName true raw.bytes).getD raw.bytes ≠ raw.bytes then
    some (badRequest MCP_ERR_HEADER "Mcp-Name mismatch") else none) = none
  rw [hkept, if_neg (not_not.mpr rfl)]

/-- What a header value stands for: an encoded name for that name, any other value without the
prefix for itself, and a malformed encoding for nothing, which matches no name. -/
structure DecodedRight (raw : Text) : Prop where
  encoded : ∀ name : Text, name.bytes.length ≤ MCP_NAME_DECODED_MAX →
    raw.bytes = sentinel name.bytes → mcpCodecDecodeName true raw.bytes = some name.bytes
  plain : ¬MCP_B64_PREFIX <+: raw.bytes → mcpCodecDecodeName true raw.bytes = some raw.bytes
  malformed : MCP_B64_PREFIX <+: raw.bytes → (∀ name, raw.bytes ≠ sentinel name) →
    mcpCodecDecodeName true raw.bytes = none ∧ ¬Matched raw.bytes

/-- An encoding of a name that is too long, or not a text. -/
def Oversized (raw : CString) : Prop :=
  ∃ name, raw = sentinel name ∧ (MCP_NAME_DECODED_MAX < name.length ∨ 0 ∈ name)

/-- A value is longer than the name that it encodes. -/
theorem length_lt_sentinel (name : List UInt8) : name.length < (sentinel name).length := by
  have hle := Base64.length_le_encode b64Digit (byte '=') name
  have hpos : 0 < MCP_B64_SUFFIX.length := by decide
  rw [sentinel, List.length_append, List.length_append, base64]
  omega

/-- A malformed encoding is returned as it is, or kept as it is. -/
theorem not_malformed_right (raw : Text) :
    ¬(mcpCodecDecodeName true raw.bytes = none ∧ ¬Matched raw.bytes) := by
  rintro ⟨hnone, hnot⟩
  rw [decodeName_eq] at hnone
  split at hnone
  · rename_i hwhole
    exact hnot (matched_of_length raw (by rw [hwhole]; decide))
  · cases hnone

/-- **A header value is decoded right** exactly if it does not start with the prefix, or encodes no
name of the admitted length. -/
theorem decodedRight_iff (raw : Text) :
    DecodedRight raw ↔ ¬MCP_B64_PREFIX <+: raw.bytes ∨ Oversized raw.bytes := by
  have hstarts (name : List UInt8) : MCP_B64_PREFIX <+: sentinel name :=
    (List.prefix_append _ _).trans (List.prefix_append _ _)
  constructor
  · intro h
    by_contra hcond
    obtain ⟨hcoded, hover⟩ := not_or.mp hcond
    by_cases henc : ∃ name, raw.bytes = sentinel name
    · obtain ⟨name, hname⟩ := henc
      have hlength : name.length ≤ MCP_NAME_DECODED_MAX :=
        Nat.le_of_not_lt fun hlong => hover ⟨name, hname, .inl hlong⟩
      have hnul : ∀ b ∈ name, b ≠ 0 := fun b hb hzero => hover ⟨name, hname, .inr (hzero ▸ hb)⟩
      -- the raw value comes back, and it is longer than the name
      have hback := h.encoded ⟨name, hnul⟩ hlength hname
      rw [decodeName_eq] at hback
      split at hback
      · cases hback
      · have hlonger := length_lt_sentinel name
        rw [← hname, Option.some.inj hback] at hlonger
        exact Nat.lt_irrefl _ hlonger
    · refine not_malformed_right raw (h.malformed (not_not.mp hcoded) fun name hname => ?_)
      exact henc ⟨name, hname⟩
  · rintro (hplain | ⟨name, hname, hover⟩)
    · refine ⟨fun name _ hname => absurd (hname ▸ hstarts _) hplain, fun _ => ?_,
        fun hp => absurd hp hplain⟩
      rw [decodeName_eq, if_neg]
      intro hwhole
      exact hplain (hwhole ▸ List.prefix_rfl)
    · refine ⟨fun other hlength hother => ?_, fun hp => absurd (hname ▸ hstarts name) hp,
        fun _ hall => absurd hname (hall name)⟩
      obtain rfl : name = other.bytes := sentinel_injective (hname.symm.trans hother)
      rcases hover with hlong | hzero
      · exact absurd hlong (Nat.not_lt.mpr hlength)
      · exact absurd rfl (other.nulFree 0 hzero)

/-- The encoded name `get_status` is taken for a plain name. -/
theorem encoded_name_kept : ¬ ∀ raw : Text, DecodedRight raw := by
  intro h
  have hname : ∀ b ∈ cstr "get_status", b ≠ 0 := by decide +kernel
  have hraw : ∀ b ∈ sentinel (cstr "get_status"), b ≠ 0 := by decide +kernel
  have hback := (h ⟨sentinel (cstr "get_status"), hraw⟩).encoded ⟨cstr "get_status", hname⟩
    (show (cstr "get_status").length ≤ MCP_NAME_DECODED_MAX by decide) rfl
  have hne : mcpCodecDecodeName true (sentinel (cstr "get_status")) ≠ some (cstr "get_status") := by
    decide +kernel
  exact hne hback

end BleGateway.Mcp
