import CardTable.Basis.Bytes

/-!
# ScriptNum — signed numbers in as few bytes as they need

A script keeps a number as its magnitude, the least significant byte
first, with the sign in the top bit of the last byte. A magnitude whose
top bit is in use takes one byte more for the sign; zero takes no byte.
`decode` reads such bytes, `Minimal` says that the last of them is
needed, and `signed` puts a sign on the bytes of a magnitude.
-/

namespace Basis.ScriptNum

/-- The number the bytes stand for. -/
def decode (bytes : List UInt8) : Int :=
  match bytes.reverse with
  | [] => 0
  | last :: rest =>
      if 128 ≤ last.toNat then -(uintBE ((last - 128) :: rest) : Int)
      else (uintBE (last :: rest) : Int)

/-- The last byte, which comes first here, holds more than a sign, or the
byte in front of it left no room for the sign. -/
def NeedsLast : List UInt8 → Prop
  | [] => True
  | last :: rest => last.toNat % 128 ≠ 0 ∨ ∃ previous ∈ rest.head?, 128 ≤ previous.toNat

instance : DecidablePred NeedsLast
  | [] => inferInstanceAs (Decidable True)
  | last :: rest =>
      inferInstanceAs (Decidable
        (last.toNat % 128 ≠ 0 ∨ ∃ previous ∈ rest.head?, 128 ≤ previous.toNat))

/-- No byte too many. -/
def Minimal (bytes : List UInt8) : Prop := NeedsLast bytes.reverse

instance (bytes : List UInt8) : Decidable (Minimal bytes) :=
  inferInstanceAs (Decidable (NeedsLast bytes.reverse))

/-- A magnitude, the most significant byte first, with a sign. -/
def withSign (negative : Bool) : List UInt8 → List UInt8
  | [] => []
  | last :: rest =>
      if 128 ≤ last.toNat then (if negative then 128 else 0) :: last :: rest
      else (if negative then last + 128 else last) :: rest

/-- A magnitude with a sign. -/
def signed (negative : Bool) (magnitude : List UInt8) : List UInt8 :=
  (withSign negative magnitude.reverse).reverse

/-- The sign takes one byte at most. -/
theorem length_signed_le (negative : Bool) (magnitude : List UInt8) :
    (signed negative magnitude).length ≤ magnitude.length + 1 := by
  rw [signed, List.length_reverse, ← magnitude.length_reverse]
  cases magnitude.reverse with
  | nil => exact Nat.zero_le _
  | cons last rest =>
      rw [withSign]
      split
      · rw [List.length_cons]
      · rw [List.length_cons, List.length_cons]
        exact Nat.le_succ _

/-- The sign bit, set. -/
theorem toNat_add_sign {b : UInt8} (h : b.toNat < 128) : (b + 128).toNat = b.toNat + 128 := by
  rw [UInt8.toNat_add]
  have h128 : (128 : UInt8).toNat = 128 := rfl
  omega

/-- The sign bit, cleared again. -/
theorem add_sign_sub (b : UInt8) : b + 128 - 128 = b := by
  rw [UInt8.sub_eq_add_neg, UInt8.add_assoc, show (128 : UInt8) + -128 = 0 from rfl,
    UInt8.add_zero]

/-- A byte of nothing in front changes no number. -/
theorem uintBE_zero_cons (w : List UInt8) : uintBE (0 :: w) = uintBE w := by
  rw [uintBE_cons]
  simp

/-- **The sign and the magnitude are read back.** -/
theorem decode_signed {magnitude : List UInt8} (h : magnitude ≠ []) (negative : Bool) :
    decode (signed negative magnitude) =
      if negative then -(uintLE magnitude : Int) else (uintLE magnitude : Int) := by
  have hne : magnitude.reverse ≠ [] := by simpa using h
  rw [decode, signed, List.reverse_reverse, uintLE]
  cases hrev : magnitude.reverse with
  | nil => exact absurd hrev hne
  | cons last rest =>
      by_cases htop : 128 ≤ last.toNat
      · -- the sign takes a byte of its own
        rw [withSign, if_pos htop]
        cases negative with
        | true => simp [uintBE_zero_cons]
        | false => simp [uintBE_zero_cons]
      · rw [withSign, if_neg htop]
        cases negative with
        | true =>
            have hsign : 128 ≤ (last + 128).toNat := by
              rw [toNat_add_sign (by omega)]
              omega
            simp only [if_true, if_pos hsign, add_sign_sub]
        | false =>
            have hsign : ¬128 ≤ last.toNat := htop
            simp only [Bool.false_eq_true, if_false, if_neg hsign]

/-- **A magnitude without a byte too many stays without one.** -/
theorem minimal_signed {magnitude : List UInt8}
    (h : ∀ last ∈ magnitude.getLast?, last ≠ 0) (negative : Bool) :
    Minimal (signed negative magnitude) := by
  rw [Minimal, signed, List.reverse_reverse]
  rw [← List.head?_reverse] at h
  cases hrev : magnitude.reverse with
  | nil => trivial
  | cons last rest =>
      rw [hrev] at h
      have hlast : last.toNat ≠ 0 := by
        intro hzero
        exact h last rfl (UInt8.toNat_inj.mp hzero)
      by_cases htop : 128 ≤ last.toNat
      · rw [withSign, if_pos htop]
        exact .inr ⟨last, rfl, htop⟩
      · rw [withSign, if_neg htop]
        left
        cases negative with
        | true =>
            rw [if_pos rfl, toNat_add_sign (by omega)]
            omega
        | false =>
            rw [if_neg (by decide)]
            omega

end Basis.ScriptNum
