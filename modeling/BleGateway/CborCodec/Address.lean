import BleGateway.CborCodec.Message

/-! # The text of a BLE address

`format_ble_addr` and `parse_ble_addr` of the codec: six octets in display order, which is the
reverse of the order in memory, with two hexadecimal digits each.
-/

namespace BleGateway.CborCodec

/-- The digit of a value below 16, in upper case. -/
def hexDigit (n : Nat) : UInt8 :=
  if n < 10 then UInt8.ofNat ('0'.toNat + n) else UInt8.ofNat ('A'.toNat + (n - 10))

/-- `hex_value`: the value of a digit, or `none` for `-1`. -/
def hexValue (c : UInt8) : Option Nat :=
  if '0'.toNat ≤ c.toNat ∧ c.toNat ≤ '9'.toNat then some (c.toNat - '0'.toNat)
  else if 'a'.toNat ≤ c.toNat ∧ c.toNat ≤ 'f'.toNat then some (c.toNat - 'a'.toNat + 10)
  else if 'A'.toNat ≤ c.toNat ∧ c.toNat ≤ 'F'.toNat then some (c.toNat - 'A'.toNat + 10)
  else none

/-- `%02X`. -/
def formatOctet (b : UInt8) : CString := [hexDigit (b.toNat / 16), hexDigit (b.toNat % 16)]

def COLON : UInt8 := 58
def DASH : UInt8 := 45

/-- The octets in display order, with colons between them. -/
def formatOctets : List UInt8 → CString
  | [] => []
  | [b] => formatOctet b
  | b :: bs => formatOctet b ++ COLON :: formatOctets bs

/-- `format_ble_addr`. -/
def formatBleAddr (address : Fin 6 → UInt8) : CString :=
  formatOctets (List.ofFn address).reverse

/-- The loop of `parse_ble_addr` over the octets that are left; a separator stands behind every
octet but the last one, and the end of the text behind that. -/
def parseOctets : Nat → CString → Option (List UInt8)
  | 0, text => if text = [] then some [] else none
  | n + 1, high :: low :: text =>
      match hexValue high, hexValue low with
      | some h, some l =>
          let octet := UInt8.ofNat (h <<< 4 ||| l)
          if n = 0 then (parseOctets n text).map (octet :: ·)
          else
            match text with
            | separator :: text =>
                if separator = COLON ∨ separator = DASH then (parseOctets n text).map (octet :: ·)
                else none
            | [] => none
      | _, _ => none
  | _ + 1, _ => none

/-- `parse_ble_addr`. -/
def parseBleAddr (text : CString) : Option (Fin 6 → UInt8) :=
  (parseOctets 6 text).map fun octets i => octets.reverse.getD i 0

/-! ## Reading what was written -/

theorem hexValue_hexDigit {n : Nat} (h : n < 16) : hexValue (hexDigit n) = some n := by
  have hall : ∀ i : Fin 16, hexValue (hexDigit i) = some i.val := by decide
  exact hall ⟨n, h⟩

/-- An octet is its high half and its low half. -/
theorem octet_halves (b : UInt8) :
    UInt8.ofNat ((b.toNat / 16) <<< 4 ||| b.toNat % 16) = b := by
  have hlow : b.toNat % 16 < 2 ^ 4 := Nat.mod_lt _ (by decide)
  rw [← Nat.shiftLeft_add_eq_or_of_lt hlow, Nat.shiftLeft_eq]
  have hsum : b.toNat / 16 * 2 ^ 4 + b.toNat % 16 = b.toNat := by omega
  rw [hsum, UInt8.ofNat_toNat]

theorem parseOctets_cons (n : Nat) (b : UInt8) (text : CString) :
    parseOctets (n + 2) (formatOctet b ++ COLON :: text) =
      (parseOctets (n + 1) text).map (b :: ·) := by
  have hhigh : hexValue (hexDigit (b.toNat / 16)) = some (b.toNat / 16) :=
    hexValue_hexDigit (by have := b.toNat_lt; omega)
  have hlow : hexValue (hexDigit (b.toNat % 16)) = some (b.toNat % 16) :=
    hexValue_hexDigit (Nat.mod_lt _ (by decide))
  rw [formatOctet, List.cons_append, List.cons_append, List.nil_append, parseOctets, hhigh, hlow]
  dsimp only
  rw [if_neg (Nat.succ_ne_zero n), if_pos (Or.inl rfl), octet_halves]

theorem parseOctets_last (b : UInt8) : parseOctets 1 (formatOctet b) = some [b] := by
  have hhigh : hexValue (hexDigit (b.toNat / 16)) = some (b.toNat / 16) :=
    hexValue_hexDigit (by have := b.toNat_lt; omega)
  have hlow : hexValue (hexDigit (b.toNat % 16)) = some (b.toNat % 16) :=
    hexValue_hexDigit (Nat.mod_lt _ (by decide))
  rw [formatOctet, parseOctets, hhigh, hlow]
  dsimp only
  rw [if_pos rfl, octet_halves]
  rfl

theorem parseOctets_formatOctets (bs : List UInt8) (h : bs ≠ []) :
    parseOctets bs.length (formatOctets bs) = some bs := by
  induction bs with
  | nil => exact absurd rfl h
  | cons b bs ih =>
      cases bs with
      | nil => exact parseOctets_last b
      | cons b' bs =>
          have htail := ih (List.cons_ne_nil b' bs)
          rw [formatOctets, List.length_cons, List.length_cons, parseOctets_cons]
          · rw [List.length_cons] at htail
            rw [htail]
            rfl
          · exact List.cons_ne_nil b' bs

/-- **Reading the text of an address gives back the address.** -/
theorem parseBleAddr_formatBleAddr (address : Fin 6 → UInt8) :
    parseBleAddr (formatBleAddr address) = some address := by
  have hlength : (List.ofFn address).reverse.length = 6 := by
    rw [List.length_reverse, List.length_ofFn]
  have hparse := parseOctets_formatOctets (List.ofFn address).reverse
    (List.ne_nil_of_length_pos (by omega))
  rw [hlength] at hparse
  rw [parseBleAddr, formatBleAddr, hparse, Option.map_some, Option.some.injEq]
  funext i
  rw [List.reverse_reverse, List.getD_eq_getElem?_getD, List.getElem?_ofFn]
  simp

/-- The text of an address has no NUL. -/
theorem formatBleAddr_nulFree (address : Fin 6 → UInt8) : ∀ b ∈ formatBleAddr address, b ≠ 0 := by
  have hdigit : ∀ n, n < 16 → hexDigit n ≠ 0 := by
    intro n hn
    have hall : ∀ i : Fin 16, hexDigit i ≠ 0 := by decide
    exact hall ⟨n, hn⟩
  have hoctet : ∀ b : UInt8, ∀ c ∈ formatOctet b, c ≠ 0 := by
    intro b c hc
    have hlt := b.toNat_lt
    rw [formatOctet, List.mem_cons, List.mem_singleton] at hc
    rcases hc with rfl | rfl
    · exact hdigit _ (by omega)
    · exact hdigit _ (Nat.mod_lt _ (by decide))
  have hall : ∀ bs : List UInt8, ∀ c ∈ formatOctets bs, c ≠ 0 := by
    intro bs
    induction bs with
    | nil =>
        intro c hc
        cases hc
    | cons b bs ih =>
        cases bs with
        | nil => exact hoctet b
        | cons b' bs =>
            intro c hc
            rw [formatOctets] at hc
            · rcases List.mem_append.mp hc with hb | htail
              · exact hoctet b c hb
              · rcases List.mem_cons.mp htail with rfl | hrest
                · decide
                · exact ih c hrest
            · exact List.cons_ne_nil b' bs
  exact hall _

end BleGateway.CborCodec
