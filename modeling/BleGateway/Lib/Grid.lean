import Mathlib.Data.Int.Basic
import Mathlib.Algebra.Order.Group.Unbundled.Int

set_option autoImplicit false

/-! # Ranges with a step

The values of a range that lie a whole number of steps above its lower bound. A program tests this
by a difference of two 32-bit numbers, which need not fit into 32 bits as a signed number: the test
is exact when the difference is taken in 64 bits, and also when it wraps around in 32 bits and is
then read as an unsigned number.
-/

namespace Grid

/-- The value lies in the range and a whole number of steps above its lower bound. -/
def OnGrid (min max : Int) (step : Nat) (v : Int) : Prop :=
  min ≤ v ∧ v ≤ max ∧ (step : Int) ∣ v - min

instance (min max : Int) (step : Nat) (v : Int) : Decidable (OnGrid min max step v) :=
  inferInstanceAs (Decidable (_ ∧ _ ∧ _))

variable {a b : Int32}

/-- The difference in 64 bits. -/
theorem toNat_wide_sub (h : b.toInt ≤ a.toInt) :
    ((a.toInt64 - b.toInt64).toUInt64.toNat : Int) = a.toInt - b.toInt := by
  have ha := a.toInt_lt
  have hb := b.le_toInt
  have hexact : (a.toInt64 - b.toInt64).toInt = a.toInt - b.toInt := by
    rw [Int64.toInt_sub, Int32.toInt_toInt64, Int32.toInt_toInt64]
    apply Int.bmod_eq_of_le <;> omega
  have hnonneg : 0 ≤ a.toInt64 - b.toInt64 := by
    rw [Int64.le_iff_toInt_le, hexact]
    have hzero : Int64.toInt 0 = 0 := rfl
    omega
  rw [Int64.toNat_toUInt64_of_le hnonneg]
  show ((a.toInt64 - b.toInt64).toInt.toNat : Int) = _
  rw [hexact]
  omega

/-- The difference in 32 bits, read as an unsigned number. -/
theorem toNat_narrow_sub (h : b.toInt ≤ a.toInt) :
    ((a - b).toUInt32.toNat : Int) = a.toInt - b.toInt := by
  have ha := a.toInt_lt
  have hb := b.le_toInt
  have hwrapped : (a - b).toInt = Int.bmod ((a - b).toUInt32.toNat) (2 ^ 32) :=
    BitVec.toInt_eq_toNat_bmod (a - b).toBitVec
  have hlt := (a - b).toUInt32.toNat_lt
  rw [Int32.toInt_sub] at hwrapped
  simp only [Int.bmod_def] at hwrapped
  omega

theorem mod_eq_zero_iff {n step : Nat} {d : Int} (h : (n : Int) = d) :
    n % step = 0 ↔ (step : Int) ∣ d := by
  rw [← h, Int.natCast_dvd_natCast, Nat.dvd_iff_mod_eq_zero]

theorem wide_mod_eq_zero_iff {step : UInt32} (h : b.toInt ≤ a.toInt) :
    (a.toInt64 - b.toInt64).toUInt64 % step.toUInt64 = 0 ↔
      (step.toNat : Int) ∣ a.toInt - b.toInt := by
  rw [← mod_eq_zero_iff (toNat_wide_sub h), ← UInt64.toNat_inj, UInt64.toNat_mod,
    UInt32.toNat_toUInt64]
  rfl

theorem narrow_mod_eq_zero_iff {step : UInt32} (h : b.toInt ≤ a.toInt) :
    (a - b).toUInt32 % step = 0 ↔ (step.toNat : Int) ∣ a.toInt - b.toInt := by
  rw [← mod_eq_zero_iff (toNat_narrow_sub h), ← UInt32.toNat_inj, UInt32.toNat_mod]
  rfl

end Grid
