import CardTable.Basis.Bytes
import Mathlib.Data.Nat.Bitwise

/-!
# Bits32 — bit operators on double numbers

A language without machine integers has its bit operators on words all
the same: the operands are taken modulo `2 ^ 32`, the result is read as a
signed word, and only the unsigned right shift reads it as an unsigned
one. A byte array keeps of a number what is left modulo 256.

What is written byte by byte with these operators and put together again
with them is the number it was (`combine_four`), although every result on
the way can be negative.
-/

namespace Basis.Bits32

/-- The word of an operand. -/
def word (n : Int) : BitVec 32 := BitVec.ofInt 32 n

/-- `a & b`. -/
def and (a b : Int) : Int := (word a &&& word b).toInt

/-- `a | b`. -/
def or (a b : Int) : Int := (word a ||| word b).toInt

/-- `a << k`, for a distance below 32. -/
def shiftLeft (a : Int) (k : Nat) : Int := (word a <<< k).toInt

/-- `a >> k`: the sign comes in from the left. -/
def shiftRight (a : Int) (k : Nat) : Int := ((word a).sshiftRight k).toInt

/-- `a >>> k`: zeros come in from the left, and the result has no sign. -/
def shiftRightUnsigned (a : Int) (k : Nat) : Int := ((word a >>> k).toNat : Int)

/-- What a byte array keeps of a number. -/
def toByte (n : Int) : UInt8 := UInt8.ofNat (n % 256).toNat

/-! ## Words of results -/

@[simp] theorem word_and (a b : Int) : word (and a b) = word a &&& word b :=
  BitVec.ofInt_toInt

@[simp] theorem word_or (a b : Int) : word (or a b) = word a ||| word b :=
  BitVec.ofInt_toInt

@[simp] theorem word_shiftLeft (a : Int) (k : Nat) : word (shiftLeft a k) = word a <<< k :=
  BitVec.ofInt_toInt

theorem toNat_word_natCast (n : Nat) : (word n).toNat = n % 2 ^ 32 := by
  rw [word, BitVec.ofInt_natCast, BitVec.toNat_ofNat]

theorem toNat_word_byte (b : UInt8) : (word b.toNat).toNat = b.toNat := by
  have hb := b.toNat_lt
  rw [toNat_word_natCast]
  omega

/-- The unsigned shift by nothing reads the word. -/
theorem shiftRightUnsigned_natCast (n k : Nat) :
    shiftRightUnsigned n k = ((n % 2 ^ 32 / 2 ^ k : Nat) : Int) := by
  rw [shiftRightUnsigned, BitVec.toNat_ushiftRight, toNat_word_natCast,
    Nat.shiftRight_eq_div_pow]

/-! ## Bytes of a number -/

/-- The low byte of a word is a number from 0 to 255. -/
theorem and_byte (a : Int) : and a 0xff = (((word a).toNat % 256 : Nat) : Int) := by
  have hnat : (word a &&& word 0xff).toNat = (word a).toNat % 256 := by
    rw [BitVec.toNat_and, show (word 0xff).toNat = 2 ^ 8 - 1 from rfl,
      Nat.and_two_pow_sub_one_eq_mod]
  have hlt : (word a).toNat % 256 < 256 := Nat.mod_lt _ (by decide)
  rw [and, BitVec.toInt_eq_toNat_of_lt (by rw [hnat]; omega), hnat]

theorem toByte_natCast (n : Nat) : toByte n = UInt8.ofNat n := by
  rw [toByte]
  apply UInt8.toNat_inj.mp
  rw [UInt8.toNat_ofNat', UInt8.toNat_ofNat']
  omega

/-- The low byte, stored. -/
theorem toByte_and (n : Nat) : toByte (and n 0xff) = UInt8.ofNat n := by
  rw [and_byte, toByte_natCast, toNat_word_natCast]
  apply UInt8.toNat_inj.mp
  rw [UInt8.toNat_ofNat', UInt8.toNat_ofNat']
  omega

/-- A higher byte of a number of 32 bits, stored. -/
theorem toByte_shiftRightUnsigned {n : Nat} (h : n < 2 ^ 32) (k : Nat) :
    toByte (and (shiftRightUnsigned n k) 0xff) = UInt8.ofNat (n / 2 ^ k) := by
  rw [shiftRightUnsigned_natCast, toByte_and, Nat.mod_eq_of_lt h]

/-- The signed shift is the unsigned one where the sign is clear. -/
theorem toByte_shiftRight {n : Nat} (h : n < 2 ^ 31) (k : Nat) :
    toByte (and (shiftRight n k) 0xff) = UInt8.ofNat (n / 2 ^ k) := by
  have hsmall : n < 2 ^ 32 := Nat.lt_trans h (by decide)
  have hmsb : (word n).msb = false := by
    rw [BitVec.msb_eq_false_iff_two_mul_lt, toNat_word_natCast, Nat.mod_eq_of_lt hsmall]
    omega
  have hword : word (shiftRight n k) = word n >>> k := by
    rw [shiftRight, BitVec.sshiftRight_eq_of_msb_false hmsb]
    exact BitVec.ofInt_toInt
  rw [and_byte, hword, BitVec.toNat_ushiftRight, toNat_word_natCast, Nat.mod_eq_of_lt hsmall,
    toByte_natCast, Nat.shiftRight_eq_div_pow]
  apply UInt8.toNat_inj.mp
  rw [UInt8.toNat_ofNat', UInt8.toNat_ofNat']
  omega

/-! ## Bytes, put together -/

/-- Bytes side by side: an `or` of what does not overlap is a sum. -/
theorem or_shiftLeft {a b : Nat} {k : Nat} (h : a < 2 ^ k) : a ||| b <<< k = a + 2 ^ k * b := by
  rw [Nat.or_comm, ← Nat.shiftLeft_add_eq_or_of_lt h, Nat.shiftLeft_eq]
  ring

/-- **Two bytes are the number of 16 bits they stand for.** -/
theorem combine_two (a b : UInt8) :
    or a.toNat (shiftLeft b.toNat 8) = ((uintLE [a, b] : Nat) : Int) := by
  have ha := a.toNat_lt
  have hb := b.toNat_lt
  have hnat : (word a.toNat ||| word b.toNat <<< 8).toNat = uintLE [a, b] := by
    rw [BitVec.toNat_or, BitVec.toNat_shiftLeft, toNat_word_byte, toNat_word_byte,
      Nat.mod_eq_of_lt (by rw [Nat.shiftLeft_eq]; omega), or_shiftLeft (k := 8) (by omega),
      uintLE_cons, uintLE_cons]
    rfl
  have hlt := uintLE_lt [a, b]
  rw [List.length_cons, List.length_singleton] at hlt
  rw [or, word_shiftLeft, BitVec.toInt_eq_toNat_of_lt (by rw [hnat]; omega), hnat]

/-- A byte moved by three bytes or fewer still fits 32 bits. -/
theorem byte_shiftLeft_lt (b : UInt8) {k : Nat} (hk : k ≤ 24) : b.toNat <<< k < 2 ^ 32 := by
  have hb := b.toNat_lt
  rw [Nat.shiftLeft_eq]
  calc b.toNat * 2 ^ k < 2 ^ 8 * 2 ^ k := Nat.mul_lt_mul_of_pos_right hb (Nat.pow_pos (by decide))
    _ ≤ 2 ^ 8 * 2 ^ 24 := Nat.mul_le_mul_left _ (Nat.pow_le_pow_right (by decide) hk)

/-- Four bytes in their places. -/
theorem or_bytes_four (a b c d : UInt8) :
    a.toNat ||| b.toNat <<< 8 ||| c.toNat <<< 16 ||| d.toNat <<< 24 = uintLE [a, b, c, d] := by
  have ha := a.toNat_lt
  have hb := b.toNat_lt
  have hc := c.toNat_lt
  rw [or_shiftLeft (k := 8) (by omega), or_shiftLeft (k := 16) (by omega),
    or_shiftLeft (k := 24) (by omega), uintLE_cons, uintLE_cons, uintLE_cons, uintLE_cons]
  have hnil : uintLE [] = 0 := rfl
  omega

/-- **Four bytes are the number of 32 bits they stand for**, once the sign
is taken off. -/
theorem combine_four (a b c d : UInt8) :
    shiftRightUnsigned (or (or (or a.toNat (shiftLeft b.toNat 8)) (shiftLeft c.toNat 16))
      (shiftLeft d.toNat 24)) 0 = ((uintLE [a, b, c, d] : Nat) : Int) := by
  have hshift : ∀ (x : UInt8) (k : Nat), k ≤ 24 →
      (word x.toNat <<< k).toNat = x.toNat <<< k := by
    intro x k hk
    rw [BitVec.toNat_shiftLeft, toNat_word_byte, Nat.mod_eq_of_lt (byte_shiftLeft_lt x hk)]
  rw [shiftRightUnsigned, word_or, word_or, word_or, word_shiftLeft, word_shiftLeft,
    word_shiftLeft, BitVec.toNat_ushiftRight, BitVec.toNat_or, BitVec.toNat_or, BitVec.toNat_or,
    hshift b 8 (by omega), hshift c 16 (by omega), hshift d 24 (by omega), toNat_word_byte,
    Nat.shiftRight_zero, or_bytes_four]

end Basis.Bits32
