import Mathlib.Data.List.Basic

set_option autoImplicit false

/-! # Base64

Three octets are four digits of six bits; the last group is filled up with a padding character. The
digits are characters of any alphabet.
-/

namespace Base64

variable {α : Type} (digit : Nat → α) (pad : α)

/-- The digits of a text, with padding. -/
def encode : List UInt8 → List α
  | [] => []
  | [a] => [digit (a.toNat / 4), digit (a.toNat % 4 * 16), pad, pad]
  | [a, b] =>
      [digit (a.toNat / 4), digit (a.toNat % 4 * 16 + b.toNat / 16), digit (b.toNat % 16 * 4), pad]
  | a :: b :: c :: rest =>
      digit (a.toNat / 4) :: digit (a.toNat % 4 * 16 + b.toNat / 16) ::
        digit (b.toNat % 16 * 4 + c.toNat / 64) :: digit (c.toNat % 64) :: encode rest

/-- The length is a multiple of four. -/
theorem length_encode (l : List UInt8) : (encode digit pad l).length = (l.length + 2) / 3 * 4 := by
  induction l using encode.induct with
  | case1 => rfl
  | case2 | case3 => simp [encode]
  | case4 a b c rest ih =>
      rw [encode]
      simp only [List.length_cons, ih]
      omega

/-- An encoding is longer than what it encodes, if that is not empty. -/
theorem length_le_encode (l : List UInt8) : l.length ≤ (encode digit pad l).length := by
  rw [length_encode]
  omega

end Base64
