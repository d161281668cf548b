import BleGateway.Lib.JsonTree
import Mathlib.Algebra.Order.Ring.Nat
import Mathlib.Data.List.Forall2
import Mathlib.Tactic.Ring

set_option autoImplicit false

/-! # JSON texts

A reader for JSON texts in UTF-8. The text is checked to be UTF-8 first; the bytes with a meaning
of their own are ASCII, so that the reader itself works on bytes. A string is read as its UTF-8
bytes, a number as the rational that it denotes. `Prints text v` says that the reader finds `v`
where the text stands in front of a separator.
-/

/-! ## UTF-8 -/

namespace Utf8

/-- What has to follow in the middle of a character: up to three more bytes, the first of them in a
narrower range after some leading bytes. -/
inductive State
  | start | one | two | three | afterE0 | afterED | afterF0 | afterF4
  deriving DecidableEq

/-- The state after the first byte of a character. -/
def lead (c : UInt8) : Option State :=
  if c < 0x80 then some .start
  else if c < 0xC2 then none
  else if c < 0xE0 then some .one
  else if c = 0xE0 then some .afterE0
  else if c = 0xED then some .afterED
  else if c < 0xF0 then some .two
  else if c = 0xF0 then some .afterF0
  else if c < 0xF4 then some .three
  else if c = 0xF4 then some .afterF4
  else none

/-- The range of a following byte, and the state after it. -/
def follow (low high c : UInt8) (next : State) : Option State :=
  if low ≤ c ∧ c ≤ high then some next else none

def step : State → UInt8 → Option State
  | .start, c => lead c
  | .one, c => follow 0x80 0xBF c .start
  | .two, c => follow 0x80 0xBF c .one
  | .three, c => follow 0x80 0xBF c .two
  | .afterE0, c => follow 0xA0 0xBF c .one
  | .afterED, c => follow 0x80 0x9F c .one
  | .afterF0, c => follow 0x90 0xBF c .two
  | .afterF4, c => follow 0x80 0x8F c .two

def run (s : State) (l : List UInt8) : Option State := l.foldlM step s

/-- The bytes are a sequence of whole characters. -/
def valid (l : List UInt8) : Bool := run .start l = some .start

variable {s : State} {c : UInt8} {a b l : List UInt8}

@[simp] theorem run_nil (s : State) : run s [] = some s := rfl

theorem run_cons (s : State) (c : UInt8) (l : List UInt8) :
    run s (c :: l) = (step s c).bind fun s' => run s' l := by
  unfold run
  rw [List.foldlM_cons]
  rfl

theorem run_append (s : State) (a b : List UInt8) :
    run s (a ++ b) = (run s a).bind fun s' => run s' b := by
  unfold run
  rw [List.foldlM_append]
  rfl

/-- An ASCII byte stands between two characters. -/
theorem step_ascii (h : c < 0x80) : step s c = if s = .start then some .start else none := by
  have hfollow : ∀ low high next, 0x80 ≤ low → follow low high c next = none := by
    intro low high next hlow
    have hlt : ¬low ≤ c := fun hle => absurd (UInt8.lt_of_lt_of_le h hlow) (UInt8.not_lt.mpr hle)
    exact if_neg fun hboth => hlt hboth.1
  cases s <;> simp only [step, reduceCtorEq, if_false, if_true]
  · exact if_pos h
  all_goals exact hfollow _ _ _ (by decide)

theorem run_ascii (h : ∀ c ∈ l, c < 0x80) : run .start l = some .start := by
  induction l with
  | nil => rfl
  | cons c l ih =>
      rw [run_cons, step_ascii (h c (by simp)), if_pos rfl, Option.bind_some]
      exact ih fun c hc => h c (by simp [hc])

/-- Behind the bytes the text is either between two characters or refused. -/
def Delimited (l : List UInt8) : Prop := run .start l = if valid l then some .start else none

theorem Delimited.valid_append (h : Delimited a) (b : List UInt8) :
    valid (a ++ b) = (valid a && valid b) := by
  show decide (run .start (a ++ b) = some .start) = _
  rw [run_append, h]
  cases ha : valid a with
  | false => simp
  | true => simp [valid]

theorem Delimited.append (h : Delimited a) (h' : Delimited b) : Delimited (a ++ b) := by
  unfold Delimited
  rw [h.valid_append, run_append, h]
  cases ha : valid a with
  | false => simp
  | true =>
      rw [Bool.true_and]
      exact h'

theorem valid_ascii (h : ∀ c ∈ l, c < 0x80) : valid l = true := by
  simp [valid, run_ascii h]

theorem delimited_ascii (h : ∀ c ∈ l, c < 0x80) : Delimited l := by
  rw [Delimited, valid_ascii h, run_ascii h]
  rfl

/-- An ASCII byte in front and one behind. -/
theorem delimited_between {c' : UInt8} (h : c < 0x80) (h' : c' < 0x80) (l : List UInt8) :
    Delimited (c :: (l ++ [c'])) ∧ valid (c :: (l ++ [c'])) = valid l := by
  have hrun : run .start (c :: (l ++ [c'])) = if valid l then some .start else none := by
    rw [run_cons, step_ascii h, if_pos rfl, Option.bind_some, run_append]
    unfold valid
    cases run .start l with
    | none => simp
    | some s => simp [run_cons, step_ascii h', apply_ite (fun o : Option State => o.bind some)]
  have hvalid : valid (c :: (l ++ [c'])) = valid l := by
    show decide (run .start (c :: (l ++ [c'])) = some .start) = _
    rw [hrun]
    cases valid l <;> simp
  exact ⟨by rw [Delimited, hvalid, hrun], hvalid⟩

end Utf8

namespace Json

/-! ## The reader -/

def isSpace (c : UInt8) : Bool := c = 32 || c = 9 || c = 10 || c = 13

def skipSpace (text : List UInt8) : List UInt8 := text.dropWhile isSpace

def hexValue (c : UInt8) : Option Nat :=
  if 48 ≤ c ∧ c ≤ 57 then some (c.toNat - 48)
  else if 97 ≤ c ∧ c ≤ 102 then some (c.toNat - 87)
  else if 65 ≤ c ∧ c ≤ 70 then some (c.toNat - 55)
  else none

/-- Four hexadecimal digits. -/
def readHex : List UInt8 → Option (Nat × List UInt8)
  | a :: b :: c :: d :: rest =>
      (hexValue a).bind fun a => (hexValue b).bind fun b => (hexValue c).bind fun c =>
        (hexValue d).map fun d => (((a * 16 + b) * 16 + c) * 16 + d, rest)
  | _ => none

/-- The bytes of a code point. -/
def encode (n : Nat) : List UInt8 :=
  if n < 0x80 then [UInt8.ofNat n]
  else if n < 0x800 then [UInt8.ofNat (0xC0 + n / 64), UInt8.ofNat (0x80 + n % 64)]
  else if n < 0x10000 then
    [UInt8.ofNat (0xE0 + n / 4096), UInt8.ofNat (0x80 + n / 64 % 64), UInt8.ofNat (0x80 + n % 64)]
  else
    [UInt8.ofNat (0xF0 + n / 262144), UInt8.ofNat (0x80 + n / 4096 % 64),
      UInt8.ofNat (0x80 + n / 64 % 64), UInt8.ofNat (0x80 + n % 64)]

/-- The code point behind a `\u`; one above the basic plane takes a second escape. -/
def readUnicode (text : List UInt8) : Option (List UInt8 × List UInt8) :=
  (readHex text).bind fun high =>
    if high.1 < 0xD800 ∨ 0xE000 ≤ high.1 then some (encode high.1, high.2)
    else if 0xDC00 ≤ high.1 ∨ high.2.take 2 ≠ [92, 117] then none
    else
      (readHex (high.2.drop 2)).bind fun low =>
        if 0xDC00 ≤ low.1 ∧ low.1 < 0xE000 then
          some (encode (0x10000 + (high.1 - 0xD800) * 1024 + (low.1 - 0xDC00)), low.2)
        else none

/-- The characters with an escape of two bytes. -/
def escapes : List (UInt8 × UInt8) :=
  [(34, 34), (92, 92), (47, 47), (98, 8), (102, 12), (110, 10), (114, 13), (116, 9)]

/-- What follows a backslash. -/
def readEscape : List UInt8 → Option (List UInt8 × List UInt8)
  | [] => none
  | c :: rest =>
      match escapes.lookup c with
      | some b => some ([b], rest)
      | none => if c = 117 then readUnicode rest else none

/-- The characters of a string up to the closing quote. -/
def readChars : Nat → List UInt8 → Option (List UInt8 × List UInt8)
  | 0, _ => none
  | _ + 1, [] => none
  | fuel + 1, c :: rest =>
      if c = 34 then some ([], rest)
      else if c = 92 then
        (readEscape rest).bind fun e =>
          (readChars fuel e.2).map fun more => (e.1 ++ more.1, more.2)
      else if c < 0x20 then none
      else (readChars fuel rest).map fun more => (c :: more.1, more.2)

/-- A string behind its opening quote. -/
def readString (text : List UInt8) : Option (List UInt8 × List UInt8) :=
  readChars text.length text

def isDigit (c : UInt8) : Bool := 48 ≤ c && c ≤ 57

def readDigits (text : List UInt8) : Option (List UInt8 × List UInt8) :=
  if text.takeWhile isDigit = [] then none
  else some (text.takeWhile isDigit, text.dropWhile isDigit)

def digitsValue (digits : List UInt8) : Nat :=
  digits.foldl (fun n c => 10 * n + (c.toNat - 48)) 0

def readFraction (text : List UInt8) : Option (List UInt8 × List UInt8) :=
  if text.head? = some 46 then readDigits text.tail else some ([], text)

def readExponent (text : List UInt8) : Option (Int × List UInt8) :=
  if text.head? = some 101 ∨ text.head? = some 69 then
    let sign := text.tail.head?
    let rest := if sign = some 43 ∨ sign = some 45 then text.tail.tail else text.tail
    (readDigits rest).map fun digits =>
      (if sign = some 45 then -(digitsValue digits.1 : Int) else digitsValue digits.1, digits.2)
  else some (0, text)

/-- A number without a sign; a leading zero stands alone. -/
def readUnsigned (text : List UInt8) : Option (ℚ × List UInt8) :=
  (readDigits text).bind fun whole =>
    if whole.1.head? = some 48 ∧ whole.1 ≠ [48] then none
    else
      (readFraction whole.2).bind fun fraction =>
        (readExponent fraction.2).map fun exponent =>
          (mkRat (digitsValue (whole.1 ++ fraction.1) * 10 ^ exponent.1.toNat)
            (10 ^ (fraction.1.length + (-exponent.1).toNat)), exponent.2)

def readNumber (text : List UInt8) : Option (ℚ × List UInt8) :=
  if text.head? = some 45 then (readUnsigned text.tail).map fun n => (-n.1, n.2)
  else readUnsigned text

section Items

variable {α : Type} (item : List UInt8 → Option (α × List UInt8)) (close : UInt8)

/-- Items with commas between them, up to the closing bracket. -/
def readItems : Nat → List UInt8 → Option (List α × List UInt8)
  | 0, _ => none
  | fuel + 1, text =>
      (item text).bind fun a =>
        match skipSpace a.2 with
        | [] => none
        | c :: rest =>
            if c = close then some ([a.1], rest)
            else if c = 44 then
              (readItems fuel rest).map fun more => (a.1 :: more.1, more.2)
            else none

/-- The same, behind the opening bracket. -/
def readList (text : List UInt8) : Option (List α × List UInt8) :=
  match skipSpace text with
  | [] => none
  | c :: rest =>
      if c = close then some ([], rest) else readItems item close (c :: rest).length (c :: rest)

end Items

/-- A member of an object. -/
def readMember (value : List UInt8 → Option (Json × List UInt8)) (text : List UInt8) :
    Option ((List UInt8 × Json) × List UInt8) :=
  match skipSpace text with
  | [] => none
  | c :: rest =>
      if c = 34 then
        (readString rest).bind fun key =>
          match skipSpace key.2 with
          | [] => none
          | c :: rest =>
              if c = 58 then (value rest).map fun v => ((key.1, v.1), v.2) else none
      else none

/-- The literals with a name. -/
def literals : List (List UInt8 × Json) :=
  [([116, 114, 117, 101], .bool true), ([102, 97, 108, 115, 101], .bool false),
    ([110, 117, 108, 108], .null)]

/-- A value; the fuel bounds how deep arrays and objects are nested. -/
def readValue : Nat → List UInt8 → Option (Json × List UInt8)
  | 0, _ => none
  | fuel + 1, text =>
      match skipSpace text with
      | [] => none
      | c :: rest =>
          if c = 34 then (readString rest).map fun s => (.string s.1, s.2)
          else if c = 123 then
            (readList (readMember (readValue fuel)) 125 rest).map fun l => (.object l.1, l.2)
          else if c = 91 then
            (readList (readValue fuel) 93 rest).map fun l => (.array l.1, l.2)
          else
            match literals.find? fun l => l.1.isPrefixOf (c :: rest) with
            | some l => some (l.2, (c :: rest).drop l.1.length)
            | none => (readNumber (c :: rest)).map fun n => (.number n.1, n.2)

/-- A whole text. -/
def parse (text : List UInt8) : Option Json :=
  if Utf8.valid text then
    (readValue (text.length + 1) text).bind fun v => if skipSpace v.2 = [] then some v.1 else none
  else none


/-- `[1, {"a": null}]` is a text, the two-byte form of NUL is none. -/
example : (parse [91, 49, 44, 32, 123, 34, 97, 34, 58, 32, 110, 117, 108, 108, 125, 93]).isSome ∧
    (parse [34, 0xC0, 0x80, 34]).isNone := by
  decide

/-! ## What the reader finds -/

variable {text body s chars esc digits : List UInt8} {v : Json} {c : UInt8}

/-- A byte that may follow a value inside an array or an object. -/
def Separates (c : UInt8) : Prop := c = 44 ∨ c = 125 ∨ c = 93

/-- In front of a separator the reader finds the value in the text. -/
def Prints (text : List UInt8) (v : Json) : Prop :=
  ∀ fuel c rest, Separates c → readValue (fuel + 1) (text ++ c :: rest) = some (v, c :: rest)

variable {rest : List UInt8}

theorem skipSpace_cons (h : isSpace c = false) :
    skipSpace (c :: rest) = c :: rest := by
  simp [skipSpace, h]

theorem Separates.isDigit (h : Separates c) : isDigit c = false := by
  obtain rfl | rfl | rfl := h <;> decide

/-! ## Strings -/

/-- In front of a closing quote the reader finds the characters in the body. -/
def Spells (body s : List UInt8) : Prop :=
  ∀ fuel rest, body.length < fuel → readChars fuel (body ++ 34 :: rest) = some (s, rest)

theorem spells_nil : Spells [] [] := by
  intro fuel rest hfuel
  obtain ⟨fuel, rfl⟩ := Nat.exists_eq_succ_of_ne_zero (Nat.ne_of_gt hfuel)
  rfl

theorem Spells.cons (h : Spells body s) (hquote : c ≠ 34) (hback : c ≠ 92) (hc : ¬c < 0x20) :
    Spells (c :: body) (c :: s) := by
  intro fuel rest hfuel
  rw [List.length_cons] at hfuel
  obtain ⟨fuel, rfl⟩ : ∃ f, fuel = f + 1 := ⟨fuel - 1, by omega⟩
  rw [List.cons_append, readChars, if_neg hquote, if_neg hback, if_neg hc,
    h fuel rest (by omega)]
  rfl

theorem Spells.escape (h : Spells body s)
    (hesc : ∀ rest, readEscape (esc ++ rest) = some (chars, rest)) :
    Spells (92 :: (esc ++ body)) (chars ++ s) := by
  intro fuel rest hfuel
  rw [List.length_cons, List.length_append] at hfuel
  obtain ⟨fuel, rfl⟩ : ∃ f, fuel = f + 1 := ⟨fuel - 1, by omega⟩
  rw [List.cons_append, List.append_assoc, readChars, if_neg (by decide), if_pos rfl, hesc,
    Option.bind_some, h fuel rest (by omega)]
  rfl

theorem readString_spells (h : Spells body s) (rest : List UInt8) :
    readString (body ++ 34 :: rest) = some (s, rest) := by
  apply h
  rw [List.length_append, List.length_cons]
  omega

theorem prints_string (h : Spells body s) : Prints (34 :: (body ++ [34])) (.string s) := by
  intro fuel c rest _
  have hstring := readString_spells h (c :: rest)
  rw [List.cons_append, List.append_assoc, List.singleton_append, readValue,
    skipSpace_cons (by decide)]
  dsimp only
  rw [if_pos rfl, hstring]
  rfl

/-! ## Literals and numbers -/

theorem prints_true : Prints [116, 114, 117, 101] (.bool true) := by
  intro fuel c rest _
  rfl

theorem prints_false : Prints [102, 97, 108, 115, 101] (.bool false) := by
  intro fuel c rest _
  rfl

/-- Digits that are a number: there is one, and a leading zero stands alone. -/
structure Numeral (digits : List UInt8) : Prop where
  ne_nil : digits ≠ []
  isDigit : ∀ c ∈ digits, isDigit c = true
  zero : digits.head? = some 48 → digits = [48]

theorem readDigits_append (h : Numeral digits) (hc : isDigit c = false) :
    readDigits (digits ++ c :: rest) = some (digits, c :: rest) := by
  have htake : (digits ++ c :: rest).takeWhile Json.isDigit = digits := by
    rw [List.takeWhile_append_of_pos h.isDigit, List.takeWhile_cons_of_neg (by simp [hc]),
      List.append_nil]
  have hdrop : (digits ++ c :: rest).dropWhile Json.isDigit = c :: rest := by
    rw [List.dropWhile_append_of_pos h.isDigit, List.dropWhile_cons_of_neg (by simp [hc])]
  rw [readDigits, htake, hdrop, if_neg h.ne_nil]

theorem readUnsigned_numeral (h : Numeral digits) (hc : Separates c) (rest : List UInt8) :
    readUnsigned (digits ++ c :: rest) = some ((digitsValue digits : ℚ), c :: rest) := by
  have hzero : ¬(digits.head? = some 48 ∧ digits ≠ [48]) := fun hz => hz.2 (h.zero hz.1)
  have hfraction : readFraction (c :: rest) = some ([], c :: rest) := by
    unfold readFraction
    obtain rfl | rfl | rfl := hc <;> exact if_neg (by simp)
  have hexponent : readExponent (c :: rest) = some (0, c :: rest) := by
    unfold readExponent
    obtain rfl | rfl | rfl := hc <;> exact if_neg (by simp)
  rw [readUnsigned, readDigits_append h hc.isDigit, Option.bind_some]
  dsimp only
  rw [if_neg hzero, hfraction, Option.bind_some, hexponent, Option.map_some, List.append_nil]
  simp [Rat.mkRat_one]

/-- A number starts with no byte that stands for anything else. -/
theorem number_start {b : UInt8} (hc : c = 45 ∨ isDigit c = true) (hb : b ≠ 45)
    (hdigit : isDigit b = false) : c ≠ b := by
  rintro rfl
  rcases hc with rfl | hc
  · exact hb rfl
  · rw [hdigit] at hc
    cases hc

theorem readValue_number {q : ℚ} (hc : c = 45 ∨ isDigit c = true)
    (h : readNumber (c :: rest) = some (q, text)) (fuel : Nat) :
    readValue (fuel + 1) (c :: rest) = some (.number q, text) := by
  have hne {b : UInt8} (hb : b ≠ 45) (hdigit : isDigit b = false) : c ≠ b :=
    number_start hc hb hdigit
  have hspace : isSpace c = false := by
    have h₁ : c ≠ 32 := hne (by decide) (by decide)
    have h₂ : c ≠ 9 := hne (by decide) (by decide)
    have h₃ : c ≠ 10 := hne (by decide) (by decide)
    have h₄ : c ≠ 13 := hne (by decide) (by decide)
    simp [isSpace, h₁, h₂, h₃, h₄]
  have hliteral : (literals.find? fun l => l.1.isPrefixOf (c :: rest)) = none := by
    have h₁ : (116 : UInt8) ≠ c := (hne (by decide) (by decide)).symm
    have h₂ : (102 : UInt8) ≠ c := (hne (by decide) (by decide)).symm
    have h₃ : (110 : UInt8) ≠ c := (hne (by decide) (by decide)).symm
    simp [literals, List.isPrefixOf, h₁, h₂, h₃]
  rw [readValue, skipSpace_cons hspace]
  dsimp only
  rw [if_neg (hne (by decide) (by decide)), if_neg (hne (by decide) (by decide)),
    if_neg (hne (by decide) (by decide)), hliteral, h]
  rfl

theorem prints_numeral (h : Numeral digits) : Prints digits (.number (digitsValue digits)) := by
  intro fuel c rest hc
  have hread := readUnsigned_numeral h hc rest
  obtain ⟨d, ds, rfl⟩ := List.exists_cons_of_ne_nil h.ne_nil
  have hd := h.isDigit d (by simp)
  have hminus : d ≠ 45 := by
    rintro rfl
    exact absurd hd (by decide)
  rw [List.cons_append] at hread ⊢
  apply readValue_number (.inr hd)
  rw [readNumber, if_neg (by simpa using hminus), hread]

theorem prints_negative (h : Numeral digits) :
    Prints (45 :: digits) (.number (-(digitsValue digits : ℚ))) := by
  intro fuel c rest hc
  rw [List.cons_append]
  apply readValue_number (.inl rfl)
  rw [readNumber, if_pos List.head?_cons, List.tail_cons, readUnsigned_numeral h hc]
  rfl

/-! ## Objects -/

/-- The text of an object with these members, each a key in quotes and the text of its value. -/
def memberText (m : List UInt8 × List UInt8) : List UInt8 := 34 :: (m.1 ++ 34 :: 58 :: m.2)

def objectText (members : List (List UInt8 × List UInt8)) : List UInt8 :=
  123 :: (List.intercalate [44] (members.map memberText) ++ [125])

section Items

variable {α : Type} {item : List UInt8 → Option (α × List UInt8)} {close : UInt8}
  {texts : List (List UInt8)} {values : List α}

theorem intercalate_cons (x y : List UInt8) (l : List (List UInt8)) :
    List.intercalate [44] (x :: y :: l) = x ++ 44 :: List.intercalate [44] (y :: l) := by
  simp [List.intercalate]

theorem length_intercalate (l : List (List UInt8)) :
    l.length ≤ (List.intercalate [44] l).length + 1 := by
  induction l with
  | nil => simp
  | cons x l ih =>
      cases l with
      | nil => simp
      | cons y l =>
          rw [intercalate_cons]
          simp only [List.length_append, List.length_cons] at ih ⊢
          omega

/-- Items that are read one by one are read as a list. -/
theorem readItems_intercalate (hclose : isSpace close = false) (hcomma : close ≠ 44)
    (h : List.Forall₂ (fun text a => ∀ c rest, c = 44 ∨ c = close →
      item (text ++ c :: rest) = some (a, c :: rest)) texts values) (hne : texts ≠ [])
    (fuel : Nat) (hfuel : texts.length ≤ fuel) (rest : List UInt8) :
    readItems item close fuel (List.intercalate [44] texts ++ close :: rest) =
      some (values, rest) := by
  induction h generalizing fuel with
  | nil => exact absurd rfl hne
  | @cons text a texts values hitem hitems ih =>
      rw [List.length_cons] at hfuel
      obtain ⟨fuel, rfl⟩ : ∃ f, fuel = f + 1 := ⟨fuel - 1, by omega⟩
      cases hitems with
      | nil =>
          have hone : List.intercalate [44] [text] = text := by simp [List.intercalate]
          rw [hone, readItems, hitem close rest (.inr rfl), Option.bind_some,
            skipSpace_cons hclose]
          exact if_pos rfl
      | @cons text' a' texts values hitem' hitems' =>
          have hrest := ih (by simp) fuel (by omega)
          rw [intercalate_cons, List.append_assoc, List.cons_append, readItems,
            hitem 44 _ (.inl rfl), Option.bind_some, skipSpace_cons (by decide)]
          dsimp only
          rw [if_neg hcomma.symm, if_pos rfl, hrest]
          rfl

end Items

variable {members : List (List UInt8 × List UInt8)} {values : List (List UInt8 × Json)}

theorem readMember_memberText {m : List UInt8 × List UInt8} {v : List UInt8 × Json}
    (hkey : Spells m.1 v.1) (hvalue : Prints m.2 v.2) (fuel : Nat) (hc : Separates c) :
    readMember (readValue (fuel + 1)) (memberText m ++ c :: rest) = some (v, c :: rest) := by
  have hstring := readString_spells hkey (58 :: (m.2 ++ c :: rest))
  rw [memberText, List.cons_append, List.append_assoc, readMember, skipSpace_cons (by decide)]
  dsimp only [List.cons_append]
  rw [if_pos rfl, hstring, Option.bind_some, skipSpace_cons (by decide)]
  dsimp only
  rw [if_pos rfl, hvalue fuel c rest hc]
  rfl

theorem readValue_objectText (hne : members ≠ [])
    (h : List.Forall₂ (fun m v => Spells m.1 v.1 ∧ Prints m.2 v.2) members values) (fuel : Nat)
    (rest : List UInt8) :
    readValue (fuel + 2) (objectText members ++ rest) = some (.object values, rest) := by
  have hitems : List.Forall₂ (fun text a => ∀ c rest, c = 44 ∨ c = 125 →
      readMember (readValue (fuel + 1)) (text ++ c :: rest) = some (a, c :: rest))
      (members.map memberText) values := by
    rw [List.forall₂_map_left_iff]
    refine h.imp fun m v hmv c rest hc => ?_
    exact readMember_memberText hmv.1 hmv.2 fuel (hc.imp_right .inl)
  have hnil : members.map memberText ≠ [] := by simpa using hne
  have hread := readItems_intercalate (by decide) (by decide) hitems hnil
  obtain ⟨m, ms, rfl⟩ := List.exists_cons_of_ne_nil hne
  -- the text starts with the quote of the first key
  obtain ⟨tail, htail⟩ : ∃ tail, List.intercalate [44] ((m :: ms).map memberText) ++ 125 :: rest =
      34 :: tail := by
    cases ms with
    | nil => exact ⟨_, by simp [List.intercalate, memberText]; rfl⟩
    | cons m' ms =>
        rw [List.map_cons, List.map_cons, intercalate_cons, memberText, List.cons_append,
          List.cons_append]
        exact ⟨_, rfl⟩
  have hfuel : ((m :: ms).map memberText).length ≤ (34 :: tail).length := by
    have hlen := length_intercalate ((m :: ms).map memberText)
    rw [← htail, List.length_append, List.length_cons]
    omega
  have hlist := hread _ hfuel rest
  rw [objectText, List.cons_append, List.append_assoc, List.singleton_append, readValue,
    skipSpace_cons (by decide)]
  dsimp only
  rw [if_neg (by decide), if_pos rfl, readList, htail, skipSpace_cons (by decide)]
  dsimp only
  rw [if_neg (by decide), ← htail]
  rw [htail] at hlist ⊢
  rw [hlist]
  rfl

/-! ## Whole texts -/

theorem delimited_members (hkey : ∀ m ∈ members, ∀ c ∈ m.1, c < 0x80)
    (hvalue : ∀ m ∈ members, Utf8.Delimited m.2) :
    Utf8.Delimited (List.intercalate [44] (members.map memberText)) ∧
      Utf8.valid (List.intercalate [44] (members.map memberText)) =
        members.all fun m => Utf8.valid m.2 := by
  have hmember : ∀ m ∈ members, Utf8.Delimited (memberText m) ∧
      Utf8.valid (memberText m) = Utf8.valid m.2 := by
    intro m hm
    have hascii : ∀ c ∈ 34 :: (m.1 ++ [34, 58]), c < 0x80 := by
      intro c hc
      simp only [List.mem_cons, List.mem_append, List.not_mem_nil, or_false] at hc
      rcases hc with rfl | hc | rfl | rfl
      · decide
      · exact hkey m hm c hc
      · decide
      · decide
    have hsplit : memberText m = (34 :: (m.1 ++ [34, 58])) ++ m.2 := by simp [memberText]
    have hdelimited := Utf8.delimited_ascii hascii
    rw [hsplit, hdelimited.valid_append, Utf8.valid_ascii hascii, Bool.true_and]
    exact ⟨hdelimited.append (hvalue m hm), rfl⟩
  clear hkey hvalue
  induction members with
  | nil => exact ⟨Utf8.delimited_ascii (by simp [List.intercalate]), by decide⟩
  | cons m ms ih =>
      obtain ⟨hfirst, hvalid⟩ := hmember m (by simp)
      cases ms with
      | nil =>
          have hone : List.intercalate [44] ([m].map memberText) = memberText m := by
            simp [List.intercalate]
          rw [hone, hvalid]
          exact ⟨hfirst, by simp⟩
      | cons m' ms =>
          obtain ⟨hrest, hall⟩ := ih fun m hm => hmember m (by simp [hm])
          have hcomma : Utf8.Delimited [44] := Utf8.delimited_ascii (by simp)
          have hjoin : List.intercalate [44] ((m :: m' :: ms).map memberText) =
              memberText m ++ ([44] ++ List.intercalate [44] ((m' :: ms).map memberText)) := by
            rw [List.map_cons, List.map_cons, intercalate_cons]
            rfl
          rw [hjoin]
          refine ⟨hfirst.append (hcomma.append hrest), ?_⟩
          rw [hfirst.valid_append, hcomma.valid_append, hvalid, hall, List.all_cons]
          rfl

/-- **Reading an object back.** -/
theorem parse_objectText (hne : members ≠ [])
    (h : List.Forall₂ (fun m v => Spells m.1 v.1 ∧ Prints m.2 v.2) members values)
    (hkey : ∀ m ∈ members, ∀ c ∈ m.1, c < 0x80) (hvalue : ∀ m ∈ members, Utf8.Delimited m.2) :
    parse (objectText members) =
      if (members.all fun m => Utf8.valid m.2) = true then some (.object values) else none := by
  obtain ⟨-, hall⟩ := delimited_members hkey hvalue
  have hvalid : Utf8.valid (objectText members) = members.all fun m => Utf8.valid m.2 := by
    rw [objectText, (Utf8.delimited_between (by decide) (by decide) _).2, hall]
  have hread := readValue_objectText hne h ((objectText members).length - 1) []
  have hlen : (objectText members).length - 1 + 2 = (objectText members).length + 1 := by
    rw [objectText, List.length_cons]
    omega
  rw [List.append_nil, hlen] at hread
  rw [parse, hvalid, hread]
  rfl

end Json
