import Mathlib.Algebra.Order.Floor.Ring
import Mathlib.Data.Int.Log
import Mathlib.Data.Rat.Floor
import Mathlib.Tactic.FieldSimp
import Mathlib.Tactic.Linarith
import Mathlib.Tactic.Positivity
import Mathlib.Tactic.Ring

/-!
# Doubles — the quotient of two double numbers

A quotient is rounded to the nearest double, which can carry it to the
next integer. It does not where the dividend is below `2 ^ 53`: the
rounding error is then smaller than the distance from the quotient to the
next integer, and the floor of the quotient is the floor it had
(`floor_nearestDouble_div`).
-/

namespace Basis

/-- The nearest integer, ties to even. -/
def nearestEven (q : ℚ) : ℤ :=
  let n := ⌊q⌋
  let rest := q - n
  if rest < 1 / 2 then n
  else if 1 / 2 < rest then n + 1
  else if n % 2 = 0 then n
  else n + 1

/-- The double nearest to a positive number, ties to even: 53 bits, the
first of which is that of the number. Exponents are not bounded here. -/
def nearestDouble (q : ℚ) : ℚ :=
  let ulp := (2 : ℚ) ^ (Int.log 2 q - 52)
  nearestEven (q / ulp) * ulp

theorem nearestEven_intCast (n : ℤ) : nearestEven n = n := by
  rw [nearestEven, Int.floor_intCast, sub_self]
  simp

/-- Half a unit at most is rounded away. -/
theorem abs_nearestEven_sub_le (q : ℚ) : |(nearestEven q : ℚ) - q| ≤ 1 / 2 := by
  have hlow := Int.floor_le q
  have hhigh := Int.lt_floor_add_one q
  rw [abs_le, nearestEven]
  split
  · constructor
    · linarith
    · linarith
  · split
    · push_cast
      constructor
      · linarith
      · linarith
    · split
      · constructor
        · linarith
        · linarith
      · push_cast
        constructor
        · linarith
        · linarith

/-- The rounding error is that of the 54th bit. -/
theorem abs_nearestDouble_sub_le {q : ℚ} (h : 0 < q) :
    |nearestDouble q - q| ≤ q / 2 ^ 53 := by
  have hulp : (0 : ℚ) < 2 ^ (Int.log 2 q - 52) := zpow_pos (by norm_num) _
  have hround := abs_nearestEven_sub_le (q / 2 ^ (Int.log 2 q - 52))
  have hfirst : (2 : ℚ) ^ (Int.log 2 q) ≤ q := Int.zpow_log_le_self (by norm_num) h
  have hsplit : (2 : ℚ) ^ (Int.log 2 q - 52) = 2 ^ (Int.log 2 q) / 2 ^ 52 := by
    rw [zpow_sub₀ (by norm_num)]
    norm_num
  have herror : nearestDouble q - q =
      ((nearestEven (q / 2 ^ (Int.log 2 q - 52)) : ℚ) - q / 2 ^ (Int.log 2 q - 52)) *
        2 ^ (Int.log 2 q - 52) := by
    rw [nearestDouble, sub_mul, div_mul_cancel₀ _ hulp.ne']
  calc |nearestDouble q - q|
      = |(nearestEven (q / 2 ^ (Int.log 2 q - 52)) : ℚ) - q / 2 ^ (Int.log 2 q - 52)| *
          2 ^ (Int.log 2 q - 52) := by rw [herror, abs_mul, abs_of_pos hulp]
    _ ≤ 1 / 2 * 2 ^ (Int.log 2 q - 52) := mul_le_mul_of_nonneg_right hround hulp.le
    _ = 2 ^ (Int.log 2 q) / 2 ^ 53 := by
        rw [hsplit]
        ring
    _ ≤ q / 2 ^ 53 := by
        apply div_le_div_of_nonneg_right hfirst
        positivity

/-- An integer of 53 bits is a double. -/
theorem nearestDouble_natCast {n : ℕ} (h : n < 2 ^ 53) : nearestDouble n = n := by
  by_cases hzero : n = 0
  · subst hzero
    have hround : nearestEven 0 = 0 := nearestEven_intCast 0
    simp [nearestDouble, hround]
  · -- the unit is `2 ^ -k` for some `k`, so that the number is a multiple of it
    have hlog : Nat.log 2 n ≤ 52 := by
      have := Nat.log_lt_of_lt_pow hzero h
      omega
    obtain ⟨k, hk⟩ := Nat.exists_eq_add_of_le hlog
    have hexp : Int.log 2 (n : ℚ) - 52 = -(k : ℤ) := by
      rw [Int.log_natCast]
      omega
    have hscaled : (n : ℚ) / 2 ^ (-(k : ℤ)) = ((n * 2 ^ k : ℕ) : ℤ) := by
      rw [zpow_neg, zpow_natCast, div_inv_eq_mul]
      push_cast
      ring
    have hpow : (2 : ℚ) ^ k ≠ 0 := by positivity
    rw [nearestDouble, hexp, hscaled, nearestEven_intCast, zpow_neg, zpow_natCast]
    push_cast
    rw [mul_assoc, mul_inv_cancel₀ hpow, mul_one]

/-- **The floor of a rounded quotient** is the quotient of the integers. -/
theorem floor_nearestDouble_div {a b : ℕ} (hb : 0 < b) (ha : a < 2 ^ 53) :
    ⌊nearestDouble ((a : ℚ) / b)⌋ = ((a / b : ℕ) : ℤ) := by
  have hbq : (0 : ℚ) < b := by exact_mod_cast hb
  have hsplit : (b : ℚ) * (a / b : ℕ) + (a % b : ℕ) = a := by exact_mod_cast Nat.div_add_mod a b
  by_cases hrest : a % b = 0
  · -- the quotient is an integer, and a double
    have hquot : (a : ℚ) / b = ((a / b : ℕ) : ℚ) := by
      rw [hrest] at hsplit
      rw [div_eq_iff hbq.ne', ← hsplit]
      push_cast
      ring
    have hlt : a / b < 2 ^ 53 := Nat.lt_of_le_of_lt (Nat.div_le_self a b) ha
    rw [hquot, nearestDouble_natCast hlt, Int.floor_natCast]
  · -- the error is smaller than the part `1 / b` there is to both integers
    have hpos : 0 < a := by
      apply Nat.pos_of_ne_zero
      rintro rfl
      exact hrest (Nat.zero_mod b)
    have haq : (0 : ℚ) < a := by exact_mod_cast hpos
    have hbound : (a : ℚ) < 2 ^ 53 := by exact_mod_cast ha
    have herror := abs_le.mp (abs_nearestDouble_sub_le (div_pos haq hbq))
    have hsmall : (a : ℚ) / b / 2 ^ 53 < 1 / b := by
      rw [div_right_comm]
      apply div_lt_div_of_pos_right _ hbq
      rw [div_lt_one (by positivity)]
      exact hbound
    have hone : (1 : ℚ) ≤ (a % b : ℕ) := by exact_mod_cast Nat.pos_of_ne_zero hrest
    have hlast : ((a % b : ℕ) : ℚ) + 1 ≤ b := by exact_mod_cast Nat.mod_lt a hb
    have hquot : (a : ℚ) / b = (a / b : ℕ) + (a % b : ℕ) / (b : ℚ) := by
      rw [div_eq_iff hbq.ne', add_mul, div_mul_cancel₀ _ hbq.ne', mul_comm, hsplit]
    have hlow : 1 / (b : ℚ) ≤ (a % b : ℕ) / (b : ℚ) := div_le_div_of_nonneg_right hone hbq.le
    have hhigh : (a % b : ℕ) / (b : ℚ) + 1 / b ≤ 1 := by
      rw [← add_div, div_le_one hbq]
      exact hlast
    rw [Int.floor_eq_iff, Int.cast_natCast]
    constructor
    · linarith [herror.1]
    · linarith [herror.2]

end Basis
