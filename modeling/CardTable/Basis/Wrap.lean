import Mathlib.Algebra.Group.Nat.Defs
import Mathlib.Algebra.Ring.Int.Defs
import Mathlib.Data.Int.Basic
import Mathlib.Tactic.Common

/-!
# Wrap — amounts in sixty-four bits

Go keeps an amount as a `uint64`, converts it to an `int64` to add a
signed change, tests the sum's sign and converts it back. Each of these
steps wraps. What comes out is the exact sum reduced to the signed range
(`Int.bmod`), and it is the exact sum exactly when that lies in
`[0, 2^63)`.
-/

namespace Basis

/-- The exact values an `int64` that is not negative can hold. -/
def FitsInt64 (n : Int) : Prop := 0 ≤ n ∧ n < 2 ^ 63

instance (n : Int) : Decidable (FitsInt64 n) := inferInstanceAs (Decidable (_ ∧ _))

/-- A `uint64` read as an `int64`. -/
theorem toInt64_eq (amount : UInt64) : amount.toInt64 = Int64.ofInt amount.toNat := by
  apply Int64.toBitVec.inj
  simp

/-- Conversion and sum wrap together. -/
theorem toInt64_add_ofInt (amount : UInt64) (n : Int) :
    amount.toInt64 + Int64.ofInt n = Int64.ofInt (amount.toNat + n) := by
  rw [Int64.ofInt_add, toInt64_eq]

/-- The sign of the wrapped sum. -/
theorem ofInt_neg_iff (n : Int) : Int64.ofInt n < 0 ↔ n.bmod (2 ^ 64) < 0 := by
  rw [Int64.lt_iff_toInt_lt, Int64.toInt_ofInt]
  rfl

/-- A sum that did not come out negative, converted back. -/
theorem toNat_of_nonneg {n : Int} (h : ¬Int64.ofInt n < 0) :
    ((Int64.ofInt n).toUInt64.toNat : Int) = n.bmod (2 ^ 64) := by
  have hbits : ((Int64.ofInt n).toUInt64.toNat : Int) = n % 2 ^ 64 := by
    rw [← UInt64.toNat_toBitVec, Int64.toBitVec_toUInt64, Int64.toBitVec_ofInt,
      BitVec.toNat_ofInt]
    simp
    omega
  rw [ofInt_neg_iff] at h
  simp only [Int.bmod] at *
  omega

/-- **It is exact when the exact sum fits.** -/
theorem toNat_eq_iff {n : Int} (h : ¬Int64.ofInt n < 0) :
    ((Int64.ofInt n).toUInt64.toNat : Int) = n ↔ FitsInt64 n := by
  rw [toNat_of_nonneg h]
  rw [ofInt_neg_iff] at h
  simp only [FitsInt64, Int.bmod] at *
  omega

/-- What fits is not taken for negative. -/
theorem FitsInt64.nonneg {n : Int} (h : FitsInt64 n) : ¬Int64.ofInt n < 0 := by
  rw [ofInt_neg_iff]
  simp only [FitsInt64, Int.bmod] at *
  omega

/-- The size of an `int64` change, negated when negative, as a `uint64`:
right for every change, the smallest included. -/
theorem toNat_abs (n : Int64) :
    (if n < 0 then -n else n).toUInt64.toNat = n.toInt.natAbs := by
  have hlow := Int64.le_toInt n
  have hhigh := Int64.toInt_lt n
  have hback : ∀ m : Int64, (m.toUInt64.toNat : Int) = m.toInt % 2 ^ 64 := by
    intro m
    rw [← UInt64.toNat_toBitVec, Int64.toBitVec_toUInt64, ← Int64.toInt_toBitVec,
      BitVec.toInt_eq_toNat_bmod]
    have := m.toBitVec.isLt
    simp only [Int.bmod]
    omega
  have hzero : (0 : Int64).toInt = 0 := rfl
  split
  case isTrue h =>
    rw [Int64.lt_iff_toInt_lt, hzero] at h
    have hneg := hback (-n)
    rw [Int64.toInt_neg] at hneg
    simp only [Int.bmod] at hneg
    omega
  case isFalse h =>
    rw [Int64.lt_iff_toInt_lt, hzero] at h
    have hpos := hback n
    omega

end Basis
