import CardTable.Basis.Bytes

/-!
# Der — signatures of two integers in their only encoding

DER writes an integer as a tag, a length and the bytes of the integer,
the most significant first. The top bit is the sign, so that a number
whose top bit is in use has a byte of zeros in front; any other leading
zero is one too many (`Minimal`). A signature is a sequence of two such
integers.

The bytes of an integer are determined by its value (`Minimal.inj`),
which is what makes an encoding the only one.
-/

namespace Basis.Der

/-! ## The bytes of an integer -/

/-- The sign bit is clear. -/
def Nonneg : List UInt8 → Prop
  | [] => False
  | b :: _ => b.toNat < 128

/-- No byte in front that carries nothing but the sign a smaller integer
has anyway. -/
def Minimal : List UInt8 → Prop
  | [] => False
  | [_] => True
  | b :: c :: _ => b = 0 → 128 ≤ c.toNat

/-- The bytes of a positive integer of at most `k` bytes besides a sign
byte. -/
structure Positive (k : Nat) (body : List UInt8) : Prop where
  minimal : Minimal body
  nonneg : Nonneg body
  pos : 0 < uintBE body
  bound : uintBE body < 256 ^ k

theorem Minimal.ne_nil {body : List UInt8} (h : Minimal body) : body ≠ [] := by
  rintro rfl
  exact h

/-- A non-negative integer leaves the top bit of its bytes alone. -/
theorem Nonneg.lt {body : List UInt8} (h : Nonneg body) :
    uintBE body < 128 * 256 ^ (body.length - 1) := by
  cases body with
  | nil => exact h.elim
  | cons b rest =>
      have hb : b.toNat < 128 := h
      have hrest := uintBE_lt rest
      have hle : b.toNat * 256 ^ rest.length ≤ 127 * 256 ^ rest.length :=
        Nat.mul_le_mul_right _ (by omega)
      rw [uintBE_cons, List.length_cons, Nat.add_sub_cancel]
      omega

/-- Bytes that are all needed make a large number. -/
theorem Minimal.le {body : List UInt8} (h : Minimal body) (hlen : 2 ≤ body.length) :
    128 * 256 ^ (body.length - 2) ≤ uintBE body := by
  match body, h, hlen with
  | b :: c :: rest, h, _ =>
      have hexp : rest.length + 1 + 1 - 2 = rest.length := by omega
      rw [uintBE_cons, uintBE_cons, List.length_cons, List.length_cons, Nat.pow_succ, hexp]
      by_cases hzero : b = 0
      · have hc : 128 ≤ c.toNat := h hzero
        have hle : 128 * 256 ^ rest.length ≤ c.toNat * 256 ^ rest.length :=
          Nat.mul_le_mul_right _ hc
        omega
      · have hb : 1 ≤ b.toNat := by
          apply Nat.pos_of_ne_zero
          intro hnat
          exact hzero (UInt8.toNat_inj.mp hnat)
        have hle : 1 * (256 ^ rest.length * 256) ≤ b.toNat * (256 ^ rest.length * 256) :=
          Nat.mul_le_mul_right _ hb
        omega

/-- The longer of two integers is the larger one. -/
theorem Minimal.length_le {w v : List UInt8} (hw : Nonneg w) (hv : Minimal v)
    (h : uintBE v ≤ uintBE w) : v.length ≤ w.length := by
  apply Nat.le_of_not_lt
  intro hlt
  have hne : w.length ≠ 0 := by
    intro hzero
    rw [List.length_eq_zero_iff.mp hzero] at hw
    exact hw
  have hlow := hv.le (by omega)
  have hhigh := hw.lt
  have hpow : 256 ^ (w.length - 1) ≤ 256 ^ (v.length - 2) :=
    Nat.pow_le_pow_right (by decide) (by omega)
  omega

/-- **An integer has one encoding.** -/
theorem Minimal.inj {w v : List UInt8} (hw : Minimal w) (hwn : Nonneg w) (hv : Minimal v)
    (hvn : Nonneg v) (h : uintBE w = uintBE v) : w = v := by
  refine uintBE_inj ?_ h
  apply Nat.le_antisymm
  · exact Minimal.length_le hvn hw (by omega)
  · exact Minimal.length_le hwn hv (by omega)

namespace Positive

variable {k : Nat} {body : List UInt8}

theorem length_pos (h : Positive k body) : 0 < body.length :=
  List.length_pos_iff.mpr h.minimal.ne_nil

/-- One byte more than the integer, for the sign. -/
theorem length_le (h : Positive k body) : body.length ≤ k + 1 := by
  apply Nat.le_of_not_lt
  intro hlt
  have hlow := h.minimal.le (by omega)
  have hpow : 256 ^ k ≤ 256 ^ (body.length - 2) :=
    Nat.pow_le_pow_right (by decide) (by omega)
  have := h.bound
  omega

end Positive

/-! ## Signatures -/

/-- An integer with its tag and its length. -/
def integer (body : List UInt8) : List UInt8 := 0x02 :: UInt8.ofNat body.length :: body

/-- A sequence of two integers. -/
def signature (r s : List UInt8) : List UInt8 :=
  0x30 :: UInt8.ofNat (r.length + s.length + 4) :: (integer r ++ integer s)

end Basis.Der
