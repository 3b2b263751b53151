/-!
# Sha256 — the SHA-256 digest

The digest on byte strings. A word is a natural number
below `2^32`, and every operation that could leave that range reduces its
result, so that a digest can be computed by evaluation.

What a protocol proof uses of the digest is that it is a function and
that it is 32 bytes long; `sha256` is irreducible so that nothing else is
used by accident.
-/

namespace Basis.Sha256

/-! ## Words -/

def add (x y : Nat) : Nat := (x + y) % 4294967296

def rotr (x n : Nat) : Nat := (x >>> n) ||| ((x <<< (32 - n)) % 4294967296)

def smallSigma0 (x : Nat) : Nat := rotr x 7 ^^^ rotr x 18 ^^^ (x >>> 3)

def smallSigma1 (x : Nat) : Nat := rotr x 17 ^^^ rotr x 19 ^^^ (x >>> 10)

def bigSigma0 (x : Nat) : Nat := rotr x 2 ^^^ rotr x 13 ^^^ rotr x 22

def bigSigma1 (x : Nat) : Nat := rotr x 6 ^^^ rotr x 11 ^^^ rotr x 25

def ch (x y z : Nat) : Nat := (x &&& y) ^^^ ((x ^^^ 4294967295) &&& z)

def maj (x y z : Nat) : Nat := (x &&& y) ^^^ (x &&& z) ^^^ (y &&& z)

/-- The constants of the 64 rounds. -/
def roundConstants : List Nat := [
  0x428a2f98, 0x71374491, 0xb5c0fbcf, 0xe9b5dba5, 0x3956c25b, 0x59f111f1, 0x923f82a4, 0xab1c5ed5,
  0xd807aa98, 0x12835b01, 0x243185be, 0x550c7dc3, 0x72be5d74, 0x80deb1fe, 0x9bdc06a7, 0xc19bf174,
  0xe49b69c1, 0xefbe4786, 0x0fc19dc6, 0x240ca1cc, 0x2de92c6f, 0x4a7484aa, 0x5cb0a9dc, 0x76f988da,
  0x983e5152, 0xa831c66d, 0xb00327c8, 0xbf597fc7, 0xc6e00bf3, 0xd5a79147, 0x06ca6351, 0x14292967,
  0x27b70a85, 0x2e1b2138, 0x4d2c6dfc, 0x53380d13, 0x650a7354, 0x766a0abb, 0x81c2c92e, 0x92722c85,
  0xa2bfe8a1, 0xa81a664b, 0xc24b8b70, 0xc76c51a3, 0xd192e819, 0xd6990624, 0xf40e3585, 0x106aa070,
  0x19a4c116, 0x1e376c08, 0x2748774c, 0x34b0bcb5, 0x391c0cb3, 0x4ed8aa4a, 0x5b9cca4f, 0x682e6ff3,
  0x748f82ee, 0x78a5636f, 0x84c87814, 0x8cc70208, 0x90befffa, 0xa4506ceb, 0xbef9a3f7, 0xc67178f2]

/-- The eight working registers. -/
structure Regs where
  (a b c d e f g h : Nat)

def initialRegs : Regs :=
  ⟨0x6a09e667, 0xbb67ae85, 0x3c6ef372, 0xa54ff53a, 0x510e527f, 0x9b05688c, 0x1f83d9ab, 0x5be0cd19⟩

/-! ## One block -/

/-- The schedule word that follows a window of sixteen. -/
def nextWord (window : List Nat) : Nat :=
  add (add (smallSigma1 (window.getD 14 0)) (window.getD 9 0))
    (add (smallSigma0 (window.getD 1 0)) (window.getD 0 0))

def round (r : Regs) (k w : Nat) : Regs :=
  let t1 := add (add (add r.h (bigSigma1 r.e)) (add (ch r.e r.f r.g) k)) w
  let t2 := add (bigSigma0 r.a) (maj r.a r.b r.c)
  ⟨add t1 t2, r.a, r.b, r.c, add r.d t1, r.e, r.f, r.g⟩

/-- The rounds, with the window of the next sixteen schedule words. -/
def rounds : List Nat → List Nat → Regs → Regs
  | [], _, r => r
  | k :: ks, window, r =>
      rounds ks (window.tail ++ [nextWord window]) (round r k (window.headD 0))

def compress (r : Regs) (block : List Nat) : Regs :=
  let s := rounds roundConstants block r
  ⟨add r.a s.a, add r.b s.b, add r.c s.c, add r.d s.d,
    add r.e s.e, add r.f s.f, add r.g s.g, add r.h s.h⟩

/-! ## Messages -/

/-- The low `k` bytes of a number, most significant first. -/
def bigEndian (n : Nat) : Nat → List Nat
  | 0 => []
  | k + 1 => (n >>> (8 * k)) % 256 :: bigEndian n k

/-- The message, a one bit, zeros, and the length in bits. -/
def pad (message : List Nat) : List Nat :=
  message ++ 0x80 :: (List.replicate ((119 - message.length % 64) % 64) 0 ++
    bigEndian (8 * message.length) 8)

/-- The first `n` blocks of sixteen big-endian words. -/
def blocks : Nat → List Nat → List (List Nat)
  | 0, _ => []
  | n + 1, bytes =>
      ((List.range 16).map fun i =>
        ((bytes.drop (4 * i)).take 4).foldl (fun acc b => acc * 256 + b) 0) ::
      blocks n (bytes.drop 64)

def Regs.words (r : Regs) : List Nat := [r.a, r.b, r.c, r.d, r.e, r.f, r.g, r.h]

/-- **SHA-256** of a byte string. -/
@[irreducible] def sha256 (message : List UInt8) : List UInt8 :=
  let padded := pad (message.map (·.toNat))
  let final := (blocks (padded.length / 64) padded).foldl compress initialRegs
  (final.words.flatMap (bigEndian · 4)).map UInt8.ofNat

theorem length_bigEndian (n k : Nat) : (bigEndian n k).length = k := by
  induction k with
  | zero => rfl
  | succ k ih => simp [bigEndian, ih]

/-- A digest is 32 bytes long. -/
@[simp] theorem length_sha256 (message : List UInt8) : (sha256 message).length = 32 := by
  unfold sha256
  simp [Regs.words, length_bigEndian]

/-- The digest of `"abc"`. -/
example : sha256 [0x61, 0x62, 0x63] =
    [ 0xba, 0x78, 0x16, 0xbf, 0x8f, 0x01, 0xcf, 0xea,
      0x41, 0x41, 0x40, 0xde, 0x5d, 0xae, 0x22, 0x23,
      0xb0, 0x03, 0x61, 0xa3, 0x96, 0x17, 0x7a, 0x9c,
      0xb4, 0x10, 0xff, 0x61, 0xf2, 0x00, 0x15, 0xad ] := by
  decide +kernel

end Basis.Sha256
