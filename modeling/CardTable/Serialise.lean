import CardTable.Basis.Codec
import CardTable.Cards

/-!
# Serialise — what the two state encoders share

`serialise.ts` and `serialise.go` lay a state out field by field in the
same order. Most fields are written as they are; the ones named here are
read from hex text first, and reading can fail. `Ts.Serialise` and
`Go.Serialise` say when it does.

The integer encoders delimit their codes, within the range of the format.
-/

namespace CardTable

open Basis.Codec Cards

/-- The parts of a player that are read from hex. -/
structure PlayerParts where
  playerId : List UInt8
  pubkeyTail : List UInt8
  commitment : List UInt8
  entropy : List UInt8

/-- The parts of a concealed card that are read from hex. -/
structure CardParts where
  commitment : List UInt8
  nonce : List UInt8
  holderTail : List UInt8

/-- The parts of a state that are read from hex, or hold such parts. -/
structure StateParts where
  players : List UInt8
  gameId : List UInt8
  ruleHash : List UInt8
  hiddenRefs : List UInt8
  successorRefs : List UInt8
  combined : List UInt8
  deckHash : List UInt8
  concealed : List UInt8
  prior : List UInt8

/-! ## Integers -/

/-- A byte is the number below 256 it stands for. -/
theorem ofNat_inj {m n : Nat} (h : UInt8.ofNat m = UInt8.ofNat n) : m % 256 = n % 256 := by
  have := congrArg UInt8.toNat h
  simpa using this

theorem delimits_u8 : Delimits (fun n x => n < 256 ∧ x = encodeU8 n) Eq := by
  refine .ofLength 1 ?_ ?_
  · intro n _ hx
    obtain ⟨_, rfl⟩ := hx
    rfl
  · intro m n _ hx hy
    obtain ⟨hm, rfl⟩ := hx
    obtain ⟨hn, h⟩ := hy
    simp only [encodeU8, List.cons.injEq, and_true] at h
    have := ofNat_inj h
    omega

theorem delimits_u16LE : Delimits (fun n x => n < 65536 ∧ x = encodeU16LE n) Eq := by
  refine .ofLength 2 ?_ ?_
  · intro n _ hx
    obtain ⟨_, rfl⟩ := hx
    rfl
  · intro m n _ hx hy
    obtain ⟨hm, rfl⟩ := hx
    obtain ⟨hn, h⟩ := hy
    simp only [encodeU16LE, List.cons.injEq, and_true] at h
    have h0 := ofNat_inj h.1
    have h1 := ofNat_inj h.2
    omega

theorem delimits_u32LE : Delimits (fun n x => n < 4294967296 ∧ x = encodeU32LE n) Eq := by
  refine .ofLength 4 ?_ ?_
  · intro n _ hx
    obtain ⟨_, rfl⟩ := hx
    rfl
  · intro m n _ hx hy
    obtain ⟨hm, rfl⟩ := hx
    obtain ⟨hn, h⟩ := hy
    simp only [encodeU32LE, List.cons.injEq, and_true] at h
    obtain ⟨h0, h1, h2, h3⟩ := h
    have h0 := ofNat_inj h0
    have h1 := ofNat_inj h1
    have h2 := ofNat_inj h2
    have h3 := ofNat_inj h3
    omega

/-- Only the low 32 bits are written. -/
theorem encodeU32LE_mod (n : Nat) : encodeU32LE (n % 4294967296) = encodeU32LE n := by
  have hbyte : ∀ m n, m % 256 = n % 256 → UInt8.ofNat m = UInt8.ofNat n := by
    intro m n h
    apply UInt8.toNat_inj.mp
    simpa using h
  simp only [encodeU32LE, List.cons.injEq, and_true]
  exact ⟨hbyte _ _ (by omega), hbyte _ _ (by omega), hbyte _ _ (by omega), hbyte _ _ (by omega)⟩

theorem delimits_u64LE :
    Delimits (fun n x => n < 18446744073709551616 ∧ x = encodeU64LE n) Eq := by
  intro m n _ _ r s h hx heq
  obtain ⟨hm, rfl⟩ := h
  obtain ⟨hn, rfl⟩ := hx
  -- two halves, of which the low one is written modulo 2^32
  simp only [encodeU64LE, List.append_assoc] at heq
  rw [← encodeU32LE_mod m, ← encodeU32LE_mod n] at heq
  obtain ⟨hlow, heq⟩ := delimits_u32LE ⟨by omega, rfl⟩ ⟨by omega, rfl⟩ heq
  obtain ⟨hhigh, hrest⟩ := delimits_u32LE ⟨by omega, rfl⟩ ⟨by omega, rfl⟩ heq
  exact ⟨by omega, hrest⟩

/-- The numbers with a varint. -/
def IsVarint (n : Nat) (x : List UInt8) : Prop :=
  n < 18446744073709551616 ∧ x = encodeVarint n

/-- The first byte of a varint tells how it goes on. -/
inductive VarintForm (n : Nat) : UInt8 → List UInt8 → Prop where
  | byte : n < 0xfd → VarintForm n (UInt8.ofNat n) []
  | word : 0xfd ≤ n → n < 65536 → VarintForm n 0xfd (encodeU16LE n)
  | long : n < 4294967296 → VarintForm n 0xfe (encodeU32LE n)
  | quad : n < 18446744073709551616 → VarintForm n 0xff (encodeU64LE n)

theorem IsVarint.form {n : Nat} {x : List UInt8} (h : IsVarint n x) :
    ∃ b tail, x = b :: tail ∧ VarintForm n b tail := by
  obtain ⟨hn, rfl⟩ := h
  -- the four widths of the format
  unfold encodeVarint
  by_cases h1 : n < 0xfd
  · rw [if_pos h1]
    exact ⟨_, _, rfl, .byte h1⟩
  · rw [if_neg h1]
    by_cases h2 : n ≤ 0xffff
    · rw [if_pos h2]
      exact ⟨_, _, rfl, .word (by omega) (by omega)⟩
    · rw [if_neg h2]
      by_cases h3 : n ≤ 0xffffffff
      · rw [if_pos h3]
        exact ⟨_, _, rfl, .long (by omega)⟩
      · rw [if_neg h3]
        exact ⟨_, _, rfl, .quad hn⟩

/-- A number below the marks is no mark. -/
theorem ofNat_ne_mark {n k : Nat} (hn : n < 0xfd) (hk : 0xfd ≤ k) (hlt : k < 256) :
    UInt8.ofNat n ≠ UInt8.ofNat k := by
  intro h
  have := ofNat_inj h
  omega

theorem delimits_varint : Delimits IsVarint Eq := by
  intro m n x y r s hx hy heq
  obtain ⟨b, tail, rfl, hform⟩ := hx.form
  obtain ⟨b', tail', rfl, hform'⟩ := hy.form
  obtain ⟨hb, htail⟩ := List.cons.inj heq
  -- equal marks leave equal forms
  cases hform with
  | byte hm =>
      cases hform' with
      | byte hn =>
          have := ofNat_inj hb
          exact ⟨by omega, htail⟩
      | word => exact absurd hb (ofNat_ne_mark hm (k := 0xfd) (by decide) (by decide))
      | long => exact absurd hb (ofNat_ne_mark hm (k := 0xfe) (by decide) (by decide))
      | quad => exact absurd hb (ofNat_ne_mark hm (k := 0xff) (by decide) (by decide))
  | word _ hm =>
      cases hform' with
      | byte hn => exact absurd hb.symm (ofNat_ne_mark hn (k := 0xfd) (by decide) (by decide))
      | word _ hn => exact delimits_u16LE ⟨hm, rfl⟩ ⟨hn, rfl⟩ htail
      | long => exact absurd hb (by decide)
      | quad => exact absurd hb (by decide)
  | long hm =>
      cases hform' with
      | byte hn => exact absurd hb.symm (ofNat_ne_mark hn (k := 0xfe) (by decide) (by decide))
      | word => exact absurd hb (by decide)
      | long hn => exact delimits_u32LE ⟨hm, rfl⟩ ⟨hn, rfl⟩ htail
      | quad => exact absurd hb (by decide)
  | quad hm =>
      cases hform' with
      | byte hn => exact absurd hb.symm (ofNat_ne_mark hn (k := 0xff) (by decide) (by decide))
      | word => exact absurd hb (by decide)
      | long => exact absurd hb (by decide)
      | quad hn => exact delimits_u64LE ⟨hm, rfl⟩ ⟨hn, rfl⟩ htail

end CardTable
