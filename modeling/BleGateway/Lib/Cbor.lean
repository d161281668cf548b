import Mathlib.Data.List.Basic
import Mathlib.Data.Int.Basic
import Mathlib.Tactic.Ring

set_option autoImplicit false

/-! # Maps in CBOR

The part of the Concise Binary Object Representation that a map with integer labels and plain values
needs: heads in their shortest form, integers, byte and text strings of definite length, and
Booleans. Every other value is one constructor, which is written as `null`. Reading gives back what
was written.
-/

namespace Cbor

/-- A value in a map. -/
inductive Item
  | int (v : Int)
  | bytes (b : List UInt8)
  | text (b : List UInt8)
  | bool (b : Bool)
  /-- A value of another kind. -/
  | other
  deriving DecidableEq

/-- The entries of a map in their order. -/
abbrev Entries := List (Int × Item)

/-! ## Heads -/

/-- The last `k` bytes of a number, the most significant one first. -/
def bigEndian : Nat → Nat → List UInt8
  | 0, _ => []
  | k + 1, n => UInt8.ofNat (n / 256 ^ k) :: bigEndian k n

/-- The number that bytes stand for. -/
def fromBytes (l : List UInt8) : Nat := l.foldl (fun acc b => acc * 256 + b.toNat) 0

/-- The first bytes of a value: its major type and its argument. -/
def head (major n : Nat) : List UInt8 :=
  if n < 24 then [UInt8.ofNat (32 * major + n)]
  else if n < 256 ^ 1 then UInt8.ofNat (32 * major + 24) :: bigEndian 1 n
  else if n < 256 ^ 2 then UInt8.ofNat (32 * major + 25) :: bigEndian 2 n
  else if n < 256 ^ 4 then UInt8.ofNat (32 * major + 26) :: bigEndian 4 n
  else UInt8.ofNat (32 * major + 27) :: bigEndian 8 n

/-- The number of bytes behind the first one that hold the argument. -/
def width : Nat → Option Nat
  | 24 => some 1
  | 25 => some 2
  | 26 => some 4
  | 27 => some 8
  | _ => none

/-- Read a head: the major type, the argument and the bytes behind it. -/
def readHead : List UInt8 → Option (Nat × Nat × List UInt8)
  | [] => none
  | b :: rest =>
      if b.toNat % 32 < 24 then some (b.toNat / 32, b.toNat % 32, rest)
      else
        match width (b.toNat % 32) with
        | some k =>
            if rest.length < k then none
            else some (b.toNat / 32, fromBytes (rest.take k), rest.drop k)
        | none => none

theorem length_bigEndian (k n : Nat) : (bigEndian k n).length = k := by
  induction k with
  | zero => rfl
  | succ k ih => rw [bigEndian, List.length_cons, ih]

theorem fromBytes_bigEndian (k n : Nat) : fromBytes (bigEndian k n) = n % 256 ^ k := by
  have hfold : ∀ acc, (bigEndian k n).foldl (fun acc b => acc * 256 + b.toNat) acc =
      acc * 256 ^ k + n % 256 ^ k := by
    induction k with
    | zero =>
        intro acc
        rw [bigEndian, List.foldl_nil, Nat.pow_zero, Nat.mod_one, Nat.mul_one, Nat.add_zero]
    | succ k ih =>
        intro acc
        have hbyte : (UInt8.ofNat (n / 256 ^ k)).toNat = n / 256 ^ k % 256 := UInt8.toNat_ofNat'
        calc (bigEndian (k + 1) n).foldl (fun acc b => acc * 256 + b.toNat) acc
            = (acc * 256 + n / 256 ^ k % 256) * 256 ^ k + n % 256 ^ k := by
              rw [bigEndian, List.foldl_cons, ih, hbyte]
          _ = acc * 256 ^ (k + 1) + (n % 256 ^ k + 256 ^ k * (n / 256 ^ k % 256)) := by
              rw [Nat.pow_succ]
              ring
          _ = acc * 256 ^ (k + 1) + n % 256 ^ (k + 1) := by
              rw [Nat.pow_succ, Nat.mod_mul]
  rw [fromBytes, hfold, Nat.zero_mul, Nat.zero_add]

variable {major n : Nat} {i : Item} {m : Entries}

/-- A head of several bytes. -/
theorem readHead_wide {info k : Nat} (hmajor : major < 8) (hinfo : 24 ≤ info) (hlt : info < 32)
    (hwidth : width info = some k) (hn : n < 256 ^ k) (rest : List UInt8) :
    readHead (UInt8.ofNat (32 * major + info) :: bigEndian k n ++ rest) =
      some (major, n, rest) := by
  have hbyte : (UInt8.ofNat (32 * major + info)).toNat = 32 * major + info := by
    rw [UInt8.toNat_ofNat']
    omega
  have hmod : (32 * major + info) % 32 = info := by omega
  have hdiv : (32 * major + info) / 32 = major := by omega
  have hlen := length_bigEndian k n
  rw [List.cons_append, readHead, hbyte, hmod, hdiv, if_neg (by omega), hwidth]
  dsimp only
  rw [if_neg (by rw [List.length_append, hlen]; omega), List.take_left' hlen, List.drop_left' hlen,
    fromBytes_bigEndian, Nat.mod_eq_of_lt hn]

/-- **Reading gives back a head.** -/
theorem readHead_head (hmajor : major < 8) (hn : n < 256 ^ 8) (rest : List UInt8) :
    readHead (head major n ++ rest) = some (major, n, rest) := by
  unfold head
  split
  · rename_i hsmall
    have hbyte : (UInt8.ofNat (32 * major + n)).toNat = 32 * major + n := by
      rw [UInt8.toNat_ofNat']
      omega
    have hmod : (32 * major + n) % 32 = n := by omega
    have hdiv : (32 * major + n) / 32 = major := by omega
    rw [List.singleton_append, readHead, hbyte, hmod, hdiv, if_pos hsmall]
  split
  · rename_i hlt
    exact readHead_wide hmajor (by omega) (by omega) rfl hlt rest
  split
  · rename_i hlt
    exact readHead_wide hmajor (by omega) (by omega) rfl hlt rest
  split
  · rename_i hlt
    exact readHead_wide hmajor (by omega) (by omega) rfl hlt rest
  · exact readHead_wide hmajor (by omega) (by omega) rfl hn rest

/-! ## Values -/

/-- Integers have an argument of eight bytes at most, and so have lengths. -/
def Item.Valid : Item → Prop
  | .int v => -(256 ^ 8 : Int) ≤ v ∧ v < 256 ^ 8
  | .bytes b | .text b => b.length < 256 ^ 8
  | .bool _ | .other => True

def encodeItem : Item → List UInt8
  | .int v => if 0 ≤ v then head 0 v.toNat else head 1 (-1 - v).toNat
  | .bytes b => head 2 b.length ++ b
  | .text b => head 3 b.length ++ b
  | .bool b => head 7 (if b then 21 else 20)
  | .other => head 7 22

/-- The first `n` bytes, and the bytes behind them. -/
def split (n : Nat) (l : List UInt8) : Option (List UInt8 × List UInt8) :=
  if l.length < n then none else some (l.take n, l.drop n)

/-- The value behind a head. -/
def readValue (major n : Nat) (rest : List UInt8) : Option (Item × List UInt8) :=
  match major with
  | 0 => some (.int n, rest)
  | 1 => some (.int (-1 - n), rest)
  | 2 => (split n rest).map fun p => (.bytes p.1, p.2)
  | 3 => (split n rest).map fun p => (.text p.1, p.2)
  | 7 =>
      if n = 20 then some (.bool false, rest)
      else if n = 21 then some (.bool true, rest)
      else if n = 22 then some (.other, rest)
      else none
  | _ => none

def readItem (l : List UInt8) : Option (Item × List UInt8) :=
  match readHead l with
  | some (major, n, rest) => readValue major n rest
  | none => none

theorem split_append (b rest : List UInt8) : split b.length (b ++ rest) = some (b, rest) := by
  rw [split, if_neg (by rw [List.length_append]; omega), List.take_left' rfl, List.drop_left' rfl]

theorem readItem_head (hmajor : major < 8) (hn : n < 256 ^ 8) (rest : List UInt8) :
    readItem (head major n ++ rest) = readValue major n rest := by
  rw [readItem, readHead_head hmajor hn]

/-- **Reading gives back a value.** -/
theorem readItem_encodeItem (h : i.Valid) (rest : List UInt8) :
    readItem (encodeItem i ++ rest) = some (i, rest) := by
  cases i with
  | int v =>
      obtain ⟨hlo, hhi⟩ := h
      rw [encodeItem]
      split
      · rename_i hv
        rw [readItem_head (by omega) (by omega), readValue, Int.toNat_of_nonneg hv]
      · rename_i hv
        rw [readItem_head (by omega) (by omega), readValue, Int.toNat_of_nonneg (by omega),
          Int.sub_sub_self]
  | bytes | text =>
      rw [encodeItem, List.append_assoc, readItem_head (by omega) h, readValue, split_append]
      rfl
  | bool b =>
      rw [encodeItem, readItem_head (by omega) (by cases b <;> decide)]
      cases b <;> rfl
  | other =>
      rw [encodeItem, readItem_head (by omega) (by omega)]
      rfl

/-! ## Maps -/

def encodeEntry (e : Int × Item) : List UInt8 := encodeItem (.int e.1) ++ encodeItem e.2

/-- A map of definite length. -/
def encode (m : Entries) : List UInt8 := head 5 m.length ++ m.flatMap encodeEntry

/-- The entries of a map, each with an integer label, and the bytes behind them. -/
def readEntries : Nat → List UInt8 → Option (Entries × List UInt8)
  | 0, l => some ([], l)
  | n + 1, l =>
      match readItem l with
      | some (.int label, l) =>
          match readItem l with
          | some (i, l) => (readEntries n l).map fun p => ((label, i) :: p.1, p.2)
          | none => none
      | _ => none

/-- A map and nothing behind it. -/
def decode (l : List UInt8) : Option Entries :=
  match readHead l with
  | some (major, n, rest) =>
      if major = 5 then
        match readEntries n rest with
        | some (m, []) => some m
        | _ => none
      else none
  | none => none

theorem readEntries_flatMap (h : ∀ e ∈ m, (Item.int e.1).Valid ∧ e.2.Valid) (rest : List UInt8) :
    readEntries m.length (m.flatMap encodeEntry ++ rest) = some (m, rest) := by
  induction m with
  | nil => rfl
  | cons e m ih =>
      obtain ⟨hlabel, hitem⟩ := h e List.mem_cons_self
      have htail := ih fun e he => h e (List.mem_cons_of_mem _ he)
      rw [List.flatMap_cons, encodeEntry, List.append_assoc, List.append_assoc, List.length_cons,
        readEntries, readItem_encodeItem hlabel]
      dsimp only
      rw [readItem_encodeItem hitem]
      dsimp only
      rw [htail]
      rfl

/-- **Reading gives back a map.** -/
theorem decode_encode (hlen : m.length < 256 ^ 8) (h : ∀ e ∈ m, (Item.int e.1).Valid ∧ e.2.Valid) :
    decode (encode m) = some m := by
  have hall := readEntries_flatMap h []
  rw [List.append_nil] at hall
  rw [decode, encode, readHead_head (by omega) hlen]
  dsimp only
  rw [if_pos rfl, hall]

theorem encode_ne_nil (m : Entries) : encode m ≠ [] := by
  rw [encode, head]
  split
  · exact List.cons_ne_nil _ _
  split
  · exact List.cons_ne_nil _ _
  split
  · exact List.cons_ne_nil _ _
  split <;> exact List.cons_ne_nil _ _

/-- The values of a map take no more room than the map. -/
theorem length_encodeItem_le {e : Int × Item} (h : e ∈ m) :
    (encodeItem e.2).length ≤ (encode m).length := by
  have hentry : (encodeEntry e).length ≤ (m.flatMap encodeEntry).length := by
    obtain ⟨front, back, rfl⟩ := List.append_of_mem h
    rw [List.flatMap_append, List.flatMap_cons, List.length_append, List.length_append]
    omega
  rw [encodeEntry, List.length_append] at hentry
  rw [encode, List.length_append]
  omega

/-- A value that was written in few bytes is valid as soon as its integer is. -/
theorem Item.valid_of_length (hlen : (encodeItem i).length < 256 ^ 8)
    (hint : ∀ v, i = .int v → -(256 ^ 8 : Int) ≤ v ∧ v < 256 ^ 8) : i.Valid := by
  cases i with
  | int v => exact hint v rfl
  | bytes | text =>
      rw [encodeItem, List.length_append] at hlen
      rw [Item.Valid]
      omega
  | bool | other => trivial

/-! ## Room -/

theorem length_head_le (major n : Nat) : (head major n).length ≤ 9 := by
  rw [head]
  split
  · exact Nat.le_add_left 1 8
  split
  · rw [List.length_cons, length_bigEndian]
    omega
  split
  · rw [List.length_cons, length_bigEndian]
    omega
  split
  · rw [List.length_cons, length_bigEndian]
    omega
  · rw [List.length_cons, length_bigEndian]

/-- A head with a small argument. -/
theorem length_head_le_two (major : Nat) (h : n < 256) : (head major n).length ≤ 2 := by
  rw [head]
  split
  · exact Nat.le_succ 1
  · rw [if_pos (by omega), List.length_cons, length_bigEndian]

/-- Room for a value whose strings have fewer than 256 bytes. -/
def Item.room : Item → Nat
  | .bytes b | .text b => 2 + b.length
  | .int _ | .bool _ | .other => 9

/-- The strings have fewer than 256 bytes. -/
def Item.Short : Item → Prop
  | .bytes b | .text b => b.length < 256
  | .int _ | .bool _ | .other => True

namespace Item

@[simp] theorem room_int (v : Int) : (int v).room = 9 := rfl

@[simp] theorem room_text (b : List UInt8) : (text b).room = 2 + b.length := rfl

@[simp] theorem room_bool (b : Bool) : (bool b).room = 9 := rfl

@[simp] theorem short_int (v : Int) : (int v).Short := trivial

@[simp] theorem short_text (b : List UInt8) : (text b).Short ↔ b.length < 256 := Iff.rfl

@[simp] theorem short_bool (b : Bool) : (bool b).Short := trivial

end Item

theorem length_encodeItem_le_room (h : i.Short) : (encodeItem i).length ≤ i.room := by
  cases i with
  | int v =>
      rw [encodeItem]
      split <;> exact length_head_le _ _
  | bytes b =>
      have hhead := length_head_le_two 2 h
      rw [encodeItem, List.length_append, Item.room]
      omega
  | text b =>
      have hhead := length_head_le_two 3 h
      rw [encodeItem, List.length_append, Item.room]
      omega
  | bool | other => exact length_head_le _ _

/-- **The room that a map takes** when its labels are small and its strings are short. -/
theorem length_encode_le (h : ∀ e ∈ m, (0 ≤ e.1 ∧ e.1 < 256) ∧ e.2.Short) :
    (encode m).length ≤ 9 + (m.map fun e => 2 + e.2.room).sum := by
  have hentries : (m.flatMap encodeEntry).length ≤ (m.map fun e => 2 + e.2.room).sum := by
    induction m with
    | nil => exact Nat.le_refl 0
    | cons e m ih =>
        obtain ⟨⟨hlo, hhi⟩, hshort⟩ := h e List.mem_cons_self
        have htail := ih fun e he => h e (List.mem_cons_of_mem _ he)
        have hlabel : (encodeItem (.int e.1)).length ≤ 2 := by
          rw [encodeItem, if_pos hlo]
          exact length_head_le_two 0 (by omega)
        have hvalue := length_encodeItem_le_room hshort
        rw [List.flatMap_cons, List.length_append, encodeEntry, List.length_append, List.map_cons,
          List.sum_cons]
        omega
  have hhead := length_head_le 5 m.length
  rw [encode, List.length_append]
  omega

end Cbor
