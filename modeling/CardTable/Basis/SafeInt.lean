import Mathlib.Algebra.Group.Nat.Defs

/-!
# SafeInt — integer arithmetic on IEEE double numbers

A language whose only number type is the IEEE double computes with
integers exactly up to `2^53 - 1`, its *safe* range, and rounds beyond
it. `toDouble n` is the double nearest to the integer `n`, ties to even;
the sum and the product of two integer-valued doubles are `toDouble` of
the exact sum and product. `SafeNat` is a non-negative safe integer, and
`SafeNat.ofInt?` is the run-time check that admits one.

The point of the module is `ofInt?_toDouble`: rounding never moves a
number into or out of the safe range, so a check made after a rounded
operation decides the same as one made on the exact result.
-/

namespace Basis

/-- `2^53 - 1`. -/
def maxSafeInteger : Nat := 9007199254740991

/-- Is `n` in the range where doubles are exact on integers? -/
def isSafeInteger (n : Int) : Bool :=
  decide (-(maxSafeInteger : Int) ≤ n ∧ n ≤ maxSafeInteger)

/-! ## Rounding to the nearest double -/

/-- The double nearest to `n`, ties to even: 53 significant bits stay,
the `k` bits below them are rounded away. -/
def roundNat (n : Nat) : Nat :=
  let k := Nat.log2 n - 52
  let q := n / 2 ^ k
  let r := n % 2 ^ k
  if 2 ^ k < 2 * r ∨ (2 ^ k = 2 * r ∧ q % 2 = 1) then (q + 1) * 2 ^ k else q * 2 ^ k

/-- The double nearest to an integer. -/
def toDouble : Int → Int
  | .ofNat n => roundNat n
  | .negSucc n => -(roundNat (n + 1) : Int)

theorem roundNat_eq_self {n : Nat} (h : n ≤ maxSafeInteger) : roundNat n = n := by
  have hlog : Nat.log2 n - 52 = 0 := by
    rcases Nat.eq_zero_or_pos n with rfl | hpos
    · decide
    · have hlt : n < 2 ^ 53 := by simp only [maxSafeInteger] at h; omega
      have : Nat.log2 n < 53 := (Nat.log2_lt (by omega)).mpr hlt
      omega
  simp [roundNat, hlog, Nat.mod_one]

/-- Rounding does not come back down below `2^53`. -/
theorem lt_roundNat {n : Nat} (h : maxSafeInteger < n) : maxSafeInteger < roundNat n := by
  have hn : n ≠ 0 := by omega
  have hlog : 53 ≤ Nat.log2 n := by
    rcases Nat.lt_or_ge (Nat.log2 n) 53 with hlt | hge
    · have : n < 2 ^ 53 := (Nat.log2_lt hn).mp hlt
      simp only [maxSafeInteger] at h
      omega
    · exact hge
  have hq : 2 ^ 52 ≤ n / 2 ^ (Nat.log2 n - 52) := by
    rw [Nat.le_div_iff_mul_le (Nat.two_pow_pos _), ← Nat.pow_add,
      show 52 + (Nat.log2 n - 52) = Nat.log2 n from by omega]
    exact Nat.log2_self_le hn
  have hpow : 2 ≤ 2 ^ (Nat.log2 n - 52) :=
    Nat.le_self_pow (show Nat.log2 n - 52 ≠ 0 by omega) 2
  have hbase : 2 ^ 53 ≤ n / 2 ^ (Nat.log2 n - 52) * 2 ^ (Nat.log2 n - 52) := by
    calc 2 ^ 53 = 2 ^ 52 * 2 := by decide
      _ ≤ _ := Nat.mul_le_mul hq hpow
  simp only [roundNat, maxSafeInteger]
  split
  · rw [Nat.add_mul]
    omega
  · omega

theorem toDouble_eq_self {n : Int} (hl : -(maxSafeInteger : Int) ≤ n)
    (hu : n ≤ maxSafeInteger) : toDouble n = n := by
  cases n with
  | ofNat n =>
      have : n ≤ maxSafeInteger := by simp only [Int.ofNat_eq_natCast] at hu; omega
      simp [toDouble, roundNat_eq_self this]
  | negSucc n =>
      have : n + 1 ≤ maxSafeInteger := by omega
      simp only [toDouble, roundNat_eq_self this]
      omega

theorem lt_toDouble {n : Int} (h : (maxSafeInteger : Int) < n) :
    (maxSafeInteger : Int) < toDouble n := by
  cases n with
  | ofNat n =>
      have : maxSafeInteger < n := by simp only [Int.ofNat_eq_natCast] at h; omega
      have := lt_roundNat this
      simp only [toDouble]
      omega
  | negSucc n => omega

theorem toDouble_lt {n : Int} (h : n < -(maxSafeInteger : Int)) :
    toDouble n < -(maxSafeInteger : Int) := by
  cases n with
  | ofNat n => simp only [Int.ofNat_eq_natCast] at h; omega
  | negSucc n =>
      have : maxSafeInteger < n + 1 := by omega
      have := lt_roundNat this
      simp only [toDouble]
      omega

/-- A rounded number in the safe range was exact. -/
theorem toDouble_eq_self_of_safe {n : Int} (hl : -(maxSafeInteger : Int) ≤ toDouble n)
    (hu : toDouble n ≤ maxSafeInteger) : toDouble n = n := by
  by_cases hhigh : (maxSafeInteger : Int) < n
  · have := lt_toDouble hhigh
    omega
  · by_cases hlow : n < -(maxSafeInteger : Int)
    · have := toDouble_lt hlow
      omega
    · exact toDouble_eq_self (by omega) (by omega)

/-- When a product is safe, so is that of a smaller factor. -/
theorem toDouble_mul_of_le {a b : Nat} {m : Int} (h : a ≤ b)
    (hl : -(maxSafeInteger : Int) ≤ toDouble (b * m)) (hu : toDouble (b * m) ≤ maxSafeInteger) :
    toDouble (b * m) = b * m ∧ toDouble (a * m) = a * m := by
  have hb := toDouble_eq_self_of_safe hl hu
  have habs : ((a : Int) * m).natAbs ≤ ((b : Int) * m).natAbs := by
    rw [Int.natAbs_mul, Int.natAbs_mul]
    exact Nat.mul_le_mul_right _ h
  exact ⟨hb, toDouble_eq_self (by omega) (by omega)⟩

/-! ## Non-negative safe integers -/

/-- A non-negative safe integer. -/
structure SafeNat where
  val : Nat
  isLe : val ≤ maxSafeInteger
  deriving DecidableEq, Repr

namespace SafeNat

/-- A literal is the number it writes, or the largest one when it is
out of range. -/
instance (n : Nat) : OfNat SafeNat n where
  ofNat := ⟨min n maxSafeInteger, Nat.min_le_right n maxSafeInteger⟩

@[ext] theorem ext {a b : SafeNat} (h : a.val = b.val) : a = b := by
  cases a; cases b; simp_all

/-- The run-time check for a non-negative safe integer. -/
def ofInt? (n : Int) : Option SafeNat :=
  if h : 0 ≤ n ∧ n ≤ maxSafeInteger then some ⟨n.toNat, by omega⟩ else none

theorem ofInt?_eq_some {n : Int} {s : SafeNat} : ofInt? n = some s ↔ (s.val : Int) = n := by
  have hs := s.isLe
  simp only [ofInt?]
  split
  · simp only [Option.some.injEq]
    constructor
    · intro heq
      subst heq
      show ((n.toNat : Nat) : Int) = n
      omega
    · intro h
      apply SafeNat.ext
      show n.toNat = s.val
      omega
  · simp only [reduceCtorEq, false_iff]
    omega

theorem ofInt?_eq_none {n : Int} : ofInt? n = none ↔ n < 0 ∨ (maxSafeInteger : Int) < n := by
  simp only [ofInt?]
  split
  · simp only [reduceCtorEq, false_iff]
    omega
  · simp only [true_iff]
    omega

@[simp] theorem ofInt?_val (s : SafeNat) : ofInt? (s.val : Int) = some s :=
  ofInt?_eq_some.mpr rfl

/-- The check `isSafeInteger n ∧ 0 ≤ n`, as a program writes it, is
`ofInt?`. -/
theorem not_safe_or_neg_iff {n : Int} :
    (isSafeInteger n = false ∨ n < 0) ↔ ofInt? n = none := by
  simp only [ofInt?_eq_none, isSafeInteger, decide_eq_false_iff_not]
  omega

/-- **Rounding does not change the verdict**: a rounded result is a
non-negative safe integer exactly when the exact one is, and then they
are equal. -/
@[simp] theorem ofInt?_toDouble (n : Int) : ofInt? (toDouble n) = ofInt? n := by
  by_cases hu : (maxSafeInteger : Int) < n
  · rw [ofInt?_eq_none.mpr (.inr hu), ofInt?_eq_none.mpr (.inr (lt_toDouble hu))]
  · by_cases hl : n < -(maxSafeInteger : Int)
    · have := toDouble_lt hl
      rw [ofInt?_eq_none.mpr (.inl (by omega)), ofInt?_eq_none.mpr (.inl (by omega))]
    · rw [toDouble_eq_self (by omega) (by omega)]

/-- The same for a sum whose second term was rounded first: adding a
product to a safe amount and then checking decides as the exact sum
does. -/
theorem ofInt?_toDouble_add (a : SafeNat) (d : Int) :
    ofInt? (toDouble (a.val + toDouble d)) = ofInt? (a.val + d) := by
  have ha := a.isLe
  rw [ofInt?_toDouble]
  by_cases hu : (maxSafeInteger : Int) < d
  · have := lt_toDouble hu
    rw [ofInt?_eq_none.mpr (.inr (by omega)), ofInt?_eq_none.mpr (.inr (by omega))]
  · by_cases hl : d < -(maxSafeInteger : Int)
    · have := toDouble_lt hl
      rw [ofInt?_eq_none.mpr (.inl (by omega)), ofInt?_eq_none.mpr (.inl (by omega))]
    · rw [toDouble_eq_self (by omega) (by omega)]

theorem ofInt?_toDouble_sub (a : SafeNat) (d : Int) :
    ofInt? (toDouble (a.val + -toDouble d)) = ofInt? (a.val + -d) := by
  have ha := a.isLe
  rw [ofInt?_toDouble]
  by_cases hu : (maxSafeInteger : Int) < d
  · have := lt_toDouble hu
    rw [ofInt?_eq_none.mpr (.inl (by omega)), ofInt?_eq_none.mpr (.inl (by omega))]
  · by_cases hl : d < -(maxSafeInteger : Int)
    · have := toDouble_lt hl
      rw [ofInt?_eq_none.mpr (.inr (by omega)), ofInt?_eq_none.mpr (.inr (by omega))]
    · rw [toDouble_eq_self (by omega) (by omega)]

end SafeNat

/-- `2^53 + 1` is the first integer a double cannot hold. -/
example : toDouble 9007199254740993 = 9007199254740992 := by decide

end Basis
