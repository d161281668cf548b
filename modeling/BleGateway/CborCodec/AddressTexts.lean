import BleGateway.CborCodec.Address
import BleGateway.Mcp.Auth

/-! # The address texts of the interfaces

An address reaches a client through the MCP tool `list_devices`, through the REST APIs of the web
server and through the JSON bridge of the codec, each with a formatter of its own. All but the one
of `mcp_tools.c` write the octets in display order. Both parsers read display order.
-/

namespace BleGateway

open CborCodec (formatOctets parseOctets formatOctet hexDigit hexValue COLON DASH)

/-! ## Formatters and parsers -/

/-- `format_ble_addr` of `mcp_tools.c`: the octets in the order of the memory. -/
def Mcp.formatBleAddr (addr : Fin 6 → UInt8) : CString := formatOctets (List.ofFn addr)

/-- `format_ble_addr` of `web_device_api.c`. -/
def WebDeviceApi.formatBleAddr (address : Fin 6 → UInt8) : CString :=
  formatOctets (List.ofFn address).reverse

/-- `format_ble_addr` of `web_device_detail_api.c`. -/
def WebDeviceDetailApi.formatBleAddr (address : Fin 6 → UInt8) : CString :=
  formatOctets (List.ofFn address).reverse

/-- `format_ble_addr` of `web_ble_api.c`, for the results of a scan. -/
def WebBleApi.formatBleAddr (address : Fin 6 → UInt8) : CString :=
  formatOctets (List.ofFn address).reverse

/-- `parse_ble_addr` of `web_device_api.c`. -/
def WebDeviceApi.parseBleAddr (text : CString) : Option (Fin 6 → UInt8) :=
  (parseOctets 6 text).map fun octets i => octets.reverse.getD i 0

namespace AddressTexts

/-- What the interfaces make of an address. -/
def texts (address : Fin 6 → UInt8) : List CString :=
  [Mcp.formatBleAddr address, WebDeviceApi.formatBleAddr address,
    WebDeviceDetailApi.formatBleAddr address, WebBleApi.formatBleAddr address,
    CborCodec.formatBleAddr address]

/-- The interfaces give one text for the address, and both parsers read it back. -/
def Agree (address : Fin 6 → UInt8) : Prop :=
  (∀ s ∈ texts address, ∀ t ∈ texts address, s = t) ∧
    ∀ t ∈ texts address, WebDeviceApi.parseBleAddr t = some address ∧
      CborCodec.parseBleAddr t = some address

/-- A character without its case, and a separator as a colon. -/
def canonical (c : UInt8) : UInt8 :=
  if c = DASH then COLON
  else if Mcp.byte 'a' ≤ c ∧ c ≤ Mcp.byte 'z' then c - 32
  else c

/-- What a parser reads from the text is written as that text again. -/
def Rereads (text : CString) : Prop :=
  (∀ a, WebDeviceApi.parseBleAddr text = some a →
      WebDeviceApi.formatBleAddr a = text.map canonical) ∧
    ∀ a, CborCodec.parseBleAddr text = some a → CborCodec.formatBleAddr a = text.map canonical

/-! ## Reading and writing again -/

theorem hexDigit_hexValue {c : UInt8} {n : Nat} (h : hexValue c = some n) :
    n < 16 ∧ hexDigit n = canonical c := by
  have hall : ∀ i : Fin 256, (hexValue (UInt8.ofNat i)).all (fun m =>
      decide (m < 16 ∧ hexDigit m = canonical (UInt8.ofNat i))) = true := by decide +kernel
  have hc := hall ⟨c.toNat, c.toNat_lt⟩
  rw [UInt8.ofNat_toNat, h, Option.all_some, decide_eq_true_eq] at hc
  exact hc

/-- The octet of two digits is written with those digits. -/
theorem formatOctet_of_digits {high low : UInt8} {h l : Nat} (hh : hexValue high = some h)
    (hl : hexValue low = some l) :
    formatOctet (UInt8.ofNat (h <<< 4 ||| l)) = [canonical high, canonical low] := by
  obtain ⟨hh16, hhigh⟩ := hexDigit_hexValue hh
  obtain ⟨hl16, hlow⟩ := hexDigit_hexValue hl
  have hsum : h <<< 4 ||| l = h * 16 + l := by
    rw [← Nat.shiftLeft_add_eq_or_of_lt (by omega), Nat.shiftLeft_eq]
  have hnat : (UInt8.ofNat (h <<< 4 ||| l)).toNat = h * 16 + l := by
    rw [hsum, UInt8.toNat_ofNat']
    exact Nat.mod_eq_of_lt (by omega)
  unfold formatOctet
  rw [hnat, show (h * 16 + l) / 16 = h by omega, show (h * 16 + l) % 16 = l by omega, hhigh, hlow]

/-- A separator is written as a colon. -/
theorem canonical_separator {c : UInt8} (h : c = COLON ∨ c = DASH) : canonical c = COLON := by
  rcases h with rfl | rfl
  · decide
  · decide

theorem formatOctets_of_parse {n : Nat} {text : CString} {octets : List UInt8}
    (h : parseOctets n text = some octets) :
    octets.length = n ∧ formatOctets octets = text.map canonical := by
  induction n generalizing text octets with
  | zero =>
      obtain ⟨htext, ⟨⟩⟩ := Option.ite_none_right_eq_some.mp h
      rw [htext]
      exact ⟨rfl, rfl⟩
  | succ n ih =>
      cases text with
      | nil => cases h
      | cons high text =>
      cases text with
      | nil => cases h
      | cons low text =>
          unfold parseOctets at h
          cases hh : hexValue high with
          | none => simp [hh] at h
          | some hv =>
              cases hl : hexValue low with
              | none => simp [hh, hl] at h
              | some lv =>
                  rw [hh, hl] at h
                  dsimp only at h
                  have hoctet := formatOctet_of_digits hh hl
                  by_cases hn : n = 0
                  · -- the last octet ends the text
                    rw [if_pos hn] at h
                    obtain ⟨rest, hrest, rfl⟩ := Option.map_eq_some_iff.mp h
                    obtain ⟨hlength, hformat⟩ := ih hrest
                    obtain rfl : rest = [] := List.length_eq_zero_iff.mp (hlength.trans hn)
                    have htext : text = [] := List.map_eq_nil_iff.mp hformat.symm
                    rw [htext]
                    exact ⟨by rw [hn]; rfl, hoctet⟩
                  · rw [if_neg hn] at h
                    cases text with
                    | nil => cases h
                    | cons separator text =>
                        obtain ⟨hsep, h⟩ := Option.ite_none_right_eq_some.mp h
                        obtain ⟨rest, hrest, rfl⟩ := Option.map_eq_some_iff.mp h
                        obtain ⟨hlength, hformat⟩ := ih hrest
                        refine ⟨by rw [List.length_cons, hlength], ?_⟩
                        rw [formatOctets, hoctet, hformat]
                        · rw [List.map_cons, List.map_cons, List.map_cons,
                            canonical_separator hsep]
                          rfl
                        · intro hnil
                          rw [hnil] at hlength
                          exact hn hlength.symm

/-- Every accepted text is written again, up to its letter case and its separators. -/
theorem rereads (text : CString) : Rereads text := by
  have hall : ∀ a, CborCodec.parseBleAddr text = some a →
      CborCodec.formatBleAddr a = text.map canonical := by
    intro a ha
    obtain ⟨octets, hparse, rfl⟩ := Option.map_eq_some_iff.mp ha
    obtain ⟨hlength, hformat⟩ := formatOctets_of_parse hparse
    have hlist : List.ofFn (fun i : Fin 6 => octets.reverse.getD i 0) = octets.reverse := by
      apply List.ext_getElem
      · rw [List.length_ofFn, List.length_reverse, hlength]
      · intro i h₁ h₂
        rw [List.getElem_ofFn]
        exact (List.getElem_eq_getD (h := h₂) 0).symm
    unfold CborCodec.formatBleAddr
    rw [hlist, List.reverse_reverse, hformat]
  exact ⟨hall, hall⟩

/-! ## The order of the octets -/

/-- An address reads the same in both directions. -/
def Palindrome (address : Fin 6 → UInt8) : Prop := ∀ i : Fin 6, address i = address i.rev

theorem reverse_ofFn (address : Fin 6 → UInt8) :
    (List.ofFn address).reverse = List.ofFn fun i => address i.rev := rfl

theorem reverse_palindrome {address : Fin 6 → UInt8} (h : Palindrome address) :
    (List.ofFn address).reverse = List.ofFn address := by
  rw [reverse_ofFn]
  congr 1
  funext i
  exact (h i).symm

/-- **The interfaces agree on an address** exactly if it reads the same in both directions; for any
text, what a parser accepts is written as that text again. -/
theorem agree_iff (address : Fin 6 → UInt8) (text : CString) :
    (Agree address ∧ Rereads text) ↔ Palindrome address := by
  have hback := CborCodec.parseBleAddr_formatBleAddr address
  constructor
  · rintro ⟨⟨hsame, -⟩, -⟩ i
    have htexts : Mcp.formatBleAddr address = CborCodec.formatBleAddr address :=
      hsame _ (by simp [texts]) _ (by simp [texts])
    -- the text of the tool is the display text of the reversed address
    have hreversed : CborCodec.formatBleAddr (fun j => address j.rev) =
        Mcp.formatBleAddr address := by
      unfold CborCodec.formatBleAddr Mcp.formatBleAddr
      rw [reverse_ofFn]
      simp
    have hparse := CborCodec.parseBleAddr_formatBleAddr fun j => address j.rev
    rw [hreversed, htexts, hback] at hparse
    exact congrFun (Option.some.inj hparse) i
  · intro h
    have hmcp : Mcp.formatBleAddr address = CborCodec.formatBleAddr address := by
      unfold Mcp.formatBleAddr CborCodec.formatBleAddr
      rw [reverse_palindrome h]
    have hall : ∀ t ∈ texts address, t = CborCodec.formatBleAddr address := by
      intro t ht
      simp only [texts, List.mem_cons, List.not_mem_nil, or_false] at ht
      rcases ht with rfl | rfl | rfl | rfl | rfl
      · exact hmcp
      · rfl
      · rfl
      · rfl
      · rfl
    refine ⟨⟨fun s hs t ht => (hall s hs).trans (hall t ht).symm, fun t ht => ?_⟩, rereads text⟩
    rw [hall t ht]
    exact ⟨hback, hback⟩

/-- The address `01:02:03:04:05:06` is given as `06:05:04:03:02:01` by the tool. -/
theorem not_agree : ¬ ∀ address text, Agree address ∧ Rereads text := by
  intro h
  obtain ⟨⟨hsame, -⟩, -⟩ := h (fun i => UInt8.ofNat (6 - i)) []
  have hne : Mcp.formatBleAddr (fun i => UInt8.ofNat (6 - i)) ≠
      CborCodec.formatBleAddr (fun i => UInt8.ofNat (6 - i)) := by decide
  exact hne (hsame _ (by simp [texts]) _ (by simp [texts]))

end AddressTexts

end BleGateway
