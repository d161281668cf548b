import BleGateway.CborCodec.Decoded

/-! # Looking up what the encoder has written

The labels of a message are distinct, so that each of them is found in what the encoder writes, or
is missing because the message does not have the field. For every kind of field one lemma says what
the decoder reads there, and when it refuses the value.
-/

namespace BleGateway.CborCodec

open Cbor (Item Entries)

variable {m : GwMessage} {key : Int}

/-! ## The entries of a message -/

/-- The labels in their order on the wire. -/
def labels : List Int :=
  [0, 1, 2, 3, 10, 4, 5, 6, 8, 9, 11, 12, 13, 14, 15, 16, 17, 18, 19, 20, 21, 22, 23, 24, 25, 26,
    27,
    28, 29, 30, 31, 32, 33, 34, 35, 36, 37, 38, 39, 40, 41, 42, 43, 44, 45, 46, 47]

theorem map_fst_fields (m : GwMessage) : (fields m).map Prod.fst = labels := rfl

theorem fields_nodup (m : GwMessage) : ((fields m).map Prod.fst).Nodup := by
  rw [map_fst_fields]
  decide

/-- The entry with the label of a field. -/
theorem itemInMap_items {o : Option Item} (h : (key, o) ∈ fields m) :
    itemInMap (items m) key = o.elim (.error .labelNotFound) .ok := by
  rw [itemInMap, items, Fields.filter_present (fields_nodup m) h]
  cases o with
  | none => rfl
  | some i => rfl

/-- An integer of 64 bits at most. -/
def Fits (o : Option Item) : Prop := ∀ v, o = some (.int v) → INT64_MIN ≤ v ∧ v ≤ UINT64_MAX

variable {α : Type} {o : Option α} {toNat : α → Nat} {minimum : Nat}

theorem fits_map (o : Option α) {f : α → Item} (h : ∀ a, Fits (some (f a))) :
    Fits (o.map f) := by
  cases o with
  | none =>
      intro v hv
      cases hv
  | some a => exact h a

theorem fits_nat {n : Nat} (h : n ≤ UINT64_MAX) : Fits (some (.int n)) := by
  intro v hv
  obtain rfl : (n : Int) = v := by
    cases hv
    rfl
  simp only [INT64_MIN]
  omega

theorem fits_int32 (n : Int32) : Fits (some (.int n.toInt)) := by
  intro v hv
  obtain rfl : n.toInt = v := by
    cases hv
    rfl
  have hlo := n.le_toInt
  have hhi := n.toInt_lt
  simp only [INT64_MIN, UINT64_MAX]
  omega

theorem fits_text (t : List UInt8) : Fits (some (.text t)) := by
  intro v hv
  cases hv

theorem fits_bytes (t : List UInt8) : Fits (some (.bytes t)) := by
  intro v hv
  cases hv

theorem fits_bool (b : Bool) : Fits (some (.bool b)) := by
  intro v hv
  cases hv

theorem fits_uint8 (n : UInt8) : Fits (some (.int n.toNat)) :=
  fits_nat (by have := n.toNat_lt; simp only [UINT64_MAX]; omega)

theorem fits_uint16 (n : UInt16) : Fits (some (.int n.toNat)) :=
  fits_nat (by have := n.toNat_lt; simp only [UINT64_MAX]; omega)

theorem fits_uint32 (n : UInt32) : Fits (some (.int n.toNat)) :=
  fits_nat (by have := n.toNat_lt; simp only [UINT64_MAX]; omega)

theorem fits_uint64 (n : UInt64) : Fits (some (.int n.toNat)) :=
  fits_nat (by have := n.toNat_lt; simp only [UINT64_MAX]; omega)

theorem fits_toNat (b : Bool) : Fits (some (.int b.toNat)) :=
  fits_nat (by have := b.toNat_le; simp only [UINT64_MAX]; omega)

theorem fits_settingValue (m : GwMessage) : Fits (settingValueItem m) := by
  unfold settingValueItem
  split
  · exact fits_bool _
  split
  · exact fits_int32 _
  split
  · exact fits_text _
  split
  · exact fits_uint8 _
  · intro v hv
    cases hv

theorem fits_fields (m : GwMessage) : ∀ f ∈ fields m, Fits f.2 := by
  have hvalue : Fits (if m.hasSettingValue then settingValueItem m else none) := by
    split
    · exact fits_settingValue m
    · intro v hv
      cases hv
  simp only [fields, baseFields, featureFields, settingFields, List.forall_mem_append,
    List.forall_mem_cons, List.not_mem_nil, false_imp_iff, implies_true, and_true, hvalue,
    fits_map, fits_text, fits_bytes, fits_bool, fits_uint8, fits_uint16, fits_uint32, fits_uint64,
    fits_int32, fits_toNat]

/-- QCBOR writes the entries of every message. -/
theorem writable_items (m : GwMessage) : Writable (items m) := by
  have hsub : ((items m).map Prod.fst).Sublist labels := Fields.map_fst_present_sublist (fields m)
  have hlabels : ∀ k ∈ labels, INT64_MIN ≤ k ∧ k ≤ INT64_MAX := by decide
  refine ⟨(fields_nodup m).sublist hsub, ?_, ?_⟩
  · have hlength := hsub.length_le
    have hle : labels.length ≤ UINT16_MAX := by decide
    rw [List.length_map] at hlength
    omega
  · intro e he
    refine ⟨hlabels e.1 (hsub.subset (List.mem_map_of_mem he)), fun v hv => ?_⟩
    exact fits_fields m _ (Fields.mem_present he) v (congrArg some hv)

/-! ## Fields -/

theorem getUInt64_items (h : (key, o.map fun v => .int (toNat v)) ∈ fields m)
    (hmax : ∀ v, toNat v ≤ UINT64_MAX) :
    getUInt64InMapN (items m) key = o.elim (.error .labelNotFound) fun v => .ok (toNat v) := by
  rw [getUInt64InMapN, itemInMap_items h]
  cases o with
  | none => rfl
  | some v =>
      have hfits : (0 : Int) ≤ toNat v ∧ (toNat v : Int) ≤ UINT64_MAX := by
        have := hmax v
        omega
      dsimp only [Option.map_some, Option.elim_some]
      rw [if_pos hfits, Int.toNat_natCast]

theorem getInt64_items {o : Option Int32}
    (h : (key, o.map fun v => .int v.toInt) ∈ fields m) :
    getInt64InMapN (items m) key = o.elim (.error .labelNotFound) fun v => .ok v.toInt := by
  rw [getInt64InMapN, itemInMap_items h]
  cases o with
  | none => rfl
  | some v =>
      have hfits : INT64_MIN ≤ v.toInt ∧ v.toInt ≤ INT64_MAX := by
        have hlo := v.le_toInt
        have hhi := v.toInt_lt
        simp only [INT64_MIN, INT64_MAX]
        omega
      dsimp only [Option.map_some, Option.elim_some]
      rw [if_pos hfits]

theorem getBool_items {o : Option Bool} (h : (key, o.map .bool) ∈ fields m) :
    getBoolInMapN (items m) key = o.elim (.error .labelNotFound) .ok := by
  rw [getBoolInMapN, itemInMap_items h]
  cases o with
  | none => rfl
  | some b => rfl

theorem getText_items {o : Option Text} (h : (key, o.map fun t => .text t.bytes) ∈ fields m) :
    getTextStringInMapN (items m) key = o.elim (.error .labelNotFound) fun t => .ok t.bytes := by
  rw [getTextStringInMapN, itemInMap_items h]
  cases o with
  | none => rfl
  | some t => rfl

/-- What the decoder makes of a field that may be missing. -/
theorem optional_eq_some_iff {β γ : Type} {g : α → γ} {f : γ → Option β} {x : Option β} :
    optional (o.elim (.error .labelNotFound) fun v => .ok (g v)) f = some x ↔
      (o = none ∧ x = none) ∨ ∃ v y, o = some v ∧ f (g v) = some y ∧ x = some y := by
  cases o with
  | none =>
      dsimp only [Option.elim_none, optional]
      constructor
      · intro h
        exact Or.inl ⟨rfl, (Option.some.inj h).symm⟩
      · rintro (⟨-, rfl⟩ | ⟨v, y, hv, -, -⟩)
        · rfl
        · cases hv
  | some v =>
      dsimp only [Option.elim_some, optional]
      rw [Option.map_eq_some_iff]
      constructor
      · rintro ⟨y, hy, rfl⟩
        exact Or.inr ⟨v, y, rfl, hy, rfl⟩
      · rintro (⟨hv, -⟩ | ⟨v', y, hv, hy, rfl⟩)
        · cases hv
        · cases hv
          exact ⟨y, hy, rfl⟩

/-- Where each value is accepted just when it is good, and comes back as it was, the field comes
back just when its value is good. -/
theorem optional_back {γ : Type} {g : α → γ} {f : γ → Option α} {x : Option α} {Good : α → Prop}
    (hf : ∀ v y, f (g v) = some y ↔ y = v ∧ Good v) :
    optional (o.elim (.error .labelNotFound) fun v => .ok (g v)) f = some x ↔
      x = o ∧ ∀ v, o = some v → Good v := by
  rw [optional_eq_some_iff]
  constructor
  · rintro (⟨rfl, rfl⟩ | ⟨v, y, rfl, hy, rfl⟩)
    · exact ⟨rfl, fun v hv => by cases hv⟩
    · obtain ⟨rfl, hgood⟩ := (hf v y).mp hy
      refine ⟨rfl, fun v hv => ?_⟩
      cases hv
      exact hgood
  · rintro ⟨rfl, hgood⟩
    cases x with
    | none => exact Or.inl ⟨rfl, rfl⟩
    | some v => exact Or.inr ⟨v, v, rfl, (hf v v).mpr ⟨rfl, hgood v rfl⟩, rfl⟩

theorem checkUInt_eq_some_iff {maximum : Nat} {ofNat : Nat → α} (hback : ∀ v, ofNat (toNat v) = v)
    {v y : α} :
    checkUInt minimum maximum ofNat (toNat v) = some y ↔
      y = v ∧ minimum ≤ toNat v ∧ toNat v ≤ maximum := by
  rw [checkUInt, hback]
  split
  · rename_i hout
    constructor
    · intro h
      cases h
    · rintro ⟨-, hlo, hhi⟩
      omega
  · rename_i hin
    constructor
    · intro h
      exact ⟨(Option.some.inj h).symm, by omega, by omega⟩
    · rintro ⟨rfl, -⟩
      rfl

theorem checkInt_toInt (v : Int32) : checkInt v.toInt = some v := by
  have hlo := v.le_toInt
  have hhi := v.toInt_lt
  rw [checkInt, if_neg (by simp only [INT32_MIN, INT32_MAX]; omega), Int32.ofInt_toInt]

/-- A text that `copy_text` accepts. -/
def TextFits (capacity : Nat) (allowEmpty : Bool) (t : Text) : Prop :=
  t.bytes.length < capacity ∧ (allowEmpty = true ∨ t.bytes ≠ [])

theorem copyText_eq_some_iff {capacity : Nat} {allowEmpty : Bool} {t y : Text} :
    copyText capacity allowEmpty t.bytes = some y ↔ y = t ∧ TextFits capacity allowEmpty t := by
  have hfits : TextFits capacity allowEmpty t ↔
      ¬(t.bytes.length ≥ capacity || (!allowEmpty && t.bytes.length == 0)) = true := by
    rw [TextFits]
    cases allowEmpty with
    | true => simp
    | false => simp [List.length_eq_zero_iff]
  rw [copyText, hfits, Text.ofBytes_bytes]
  split
  · rename_i hbad
    constructor
    · intro h
      cases h
    · rintro ⟨-, hgood⟩
      exact absurd hbad hgood
  · rename_i hgood
    constructor
    · intro h
      exact ⟨(Option.some.inj h).symm, hgood⟩
    · rintro ⟨rfl, -⟩
      rfl

/-! ### By type -/

theorem optionalUInt_items {x : Option α} {maximum : Nat} {ofNat : Nat → α}
    (h : (key, o.map fun v => .int (toNat v)) ∈ fields m) (hmax : ∀ v, toNat v ≤ UINT64_MAX)
    (hback : ∀ v, ofNat (toNat v) = v) :
    optionalUInt (items m) key minimum maximum ofNat = some x ↔
      x = o ∧ ∀ v, o = some v → minimum ≤ toNat v ∧ toNat v ≤ maximum := by
  rw [optionalUInt, getUInt64_items h hmax]
  exact optional_back fun v y => checkUInt_eq_some_iff hback

theorem optionalUInt8_items {o : Option UInt8}
    (h : (key, o.map fun v => .int v.toNat) ∈ fields m) {x : Option UInt8} :
    optionalUInt8 (items m) key = some x ↔ x = o := by
  have hlt : ∀ v : UInt8, v.toNat ≤ UINT8_MAX := fun v => Nat.le_of_lt_succ v.toNat_lt
  have hle : UINT8_MAX ≤ UINT64_MAX := by decide
  rw [optionalUInt8, optionalUInt_items h (fun v => (hlt v).trans hle) fun v => UInt8.ofNat_toNat]
  exact and_iff_left fun v _ => ⟨Nat.zero_le _, hlt v⟩

theorem optionalUInt16_items {o : Option UInt16}
    (h : (key, o.map fun v => .int v.toNat) ∈ fields m) {x : Option UInt16} :
    optionalUInt16 (items m) key = some x ↔ x = o := by
  have hlt : ∀ v : UInt16, v.toNat ≤ UINT16_MAX := fun v => Nat.le_of_lt_succ v.toNat_lt
  have hle : UINT16_MAX ≤ UINT64_MAX := by decide
  rw [optionalUInt16, optionalUInt_items h (fun v => (hlt v).trans hle) fun v => UInt16.ofNat_toNat]
  exact and_iff_left fun v _ => ⟨Nat.zero_le _, hlt v⟩

theorem optionalUInt32_items {o : Option UInt32} (h : (key, o.map fun v => .int v.toNat) ∈ fields m)
    {x : Option UInt32} :
    optionalUInt32 (items m) key minimum = some x ↔
      x = o ∧ ∀ v, o = some v → minimum ≤ v.toNat := by
  have hlt : ∀ v : UInt32, v.toNat ≤ UINT32_MAX := fun v => Nat.le_of_lt_succ v.toNat_lt
  have hle : UINT32_MAX ≤ UINT64_MAX := by decide
  rw [optionalUInt32, optionalUInt_items h (fun v => (hlt v).trans hle) fun v => UInt32.ofNat_toNat]
  simp only [hlt, and_true]

theorem optionalInt32_items {o : Option Int32}
    (h : (key, o.map fun v => .int v.toInt) ∈ fields m) {x : Option Int32} :
    optionalInt32 (items m) key = some x ↔ x = o := by
  have hcheck : ∀ v y : Int32, checkInt v.toInt = some y ↔ y = v ∧ True := fun v y => by
    rw [checkInt_toInt, Option.some.injEq, and_true, eq_comm]
  rw [optionalInt32, getInt64_items h, optional_back hcheck]
  exact and_iff_left fun v _ => trivial

theorem optionalBool_items {o : Option Bool} (h : (key, o.map .bool) ∈ fields m)
    {x : Option Bool} : optionalBool (items m) key = some x ↔ x = o := by
  have hcheck : ∀ v y : Bool, some v = some y ↔ y = v ∧ True := fun v y => by
    rw [Option.some.injEq, and_true, eq_comm]
  rw [optionalBool, getBool_items h]
  refine (optional_back (g := fun b => b) hcheck).trans ?_
  exact and_iff_left fun v _ => trivial

theorem optionalText_items {o : Option Text}
    (h : (key, o.map fun t => .text t.bytes) ∈ fields m) {capacity : Nat} {allowEmpty : Bool}
    {x : Option Text} :
    optionalText (items m) key capacity allowEmpty = some x ↔
      x = o ∧ ∀ t, o = some t → TextFits capacity allowEmpty t := by
  rw [optionalText, getText_items h]
  exact optional_back fun t y => copyText_eq_some_iff

end BleGateway.CborCodec
