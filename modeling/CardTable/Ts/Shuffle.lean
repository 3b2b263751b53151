import CardTable.Basis.Bits32
import CardTable.Basis.Doubles
import CardTable.Ts.Types

/-!
# Ts.Shuffle — the shuffle loop on any bytes

`packages/crypto-cards/src/shuffle.ts`, with the source of the bytes as a
parameter: the class draws them from SHA-256 blocks (`Ts.CryptoCards`),
here they are whatever `next` gives. Words are put together with signed
32-bit operators, and the limit of the rejection loop is a quotient of
doubles. A draw is given a number of rounds, since nothing bounds the
loop.
-/

namespace CardTable.Ts.Shuffle

open Basis Basis.Bits32

section Loop

variable {σ : Type} (next : σ → Js (UInt8 × σ))

/-- `((b0 | (b1 << 8) | (b2 << 16) | (b3 << 24)) >>> 0)` of the next four
bytes. -/
def nextWord (s : σ) : Js (Int × σ) := do
  let (b0, s) ← next s
  let (b1, s) ← next s
  let (b2, s) ← next s
  let (b3, s) ← next s
  pure (shiftRightUnsigned
    (or (or (or b0.toNat (shiftLeft b1.toNat 8)) (shiftLeft b2.toNat 16))
      (shiftLeft b3.toNat 24)) 0, s)

/-- `Math.floor(0x100000000 / bound) * bound`. The product is at most
`2 ^ 32`, which is exact. -/
def limit (bound : Int) : Int := ⌊nearestDouble (0x100000000 / bound)⌋ * bound

/-- `if (value < limit) return value % bound`. -/
def accept (bound value : Int) : Option Int :=
  if value < limit bound then some (value % bound) else none

/-- `for (;;)`. -/
def drawLoop (bound : Int) : Nat → σ → Js (Int × σ)
  | 0, _ => .halt "drawUniform: no value was accepted so far"
  | rounds + 1, s => do
      let (value, s) ← nextWord next s
      match accept bound value with
      | some j => pure (j, s)
      | none => drawLoop bound rounds s

/-- `drawUniform`. -/
def drawUniform (rounds : Nat) (max : Int) (s : σ) : Js (Int × σ) :=
  if max < 0 ∨ 0xffffffff < max then .halt s!"drawUniform: max out of range: {max}"
  else if max = 0 then .ok (0, s)
  else drawLoop next (max + 1) rounds s

/-- Exchange two cards. What is read behind the end of an array is
`undefined`, which is no card. -/
def exchange (deck : List Nat) (i j : Nat) : Js (List Nat) :=
  match deck[i]?, deck[j]? with
  | some tmp, some other => .ok ((deck.set i other).set j tmp)
  | _, _ => .halt "undefined"

/-- `for (let i = deckSize - 1; i >= 1; i--)`. -/
def shuffleLoop (rounds : Nat) : Nat → List Nat → σ → Js (List Nat × σ)
  | 0, deck, s => .ok (deck, s)
  | i + 1, deck, s => do
      let (j, s) ← drawUniform next rounds (i + 1 : Nat) s
      let deck ← exchange deck (i + 1) j.toNat
      shuffleLoop rounds i deck s

/-- The body of `shuffleCanonicalDeck`, for a deck of any size. -/
def shuffle (rounds deckSize : Nat) (s : σ) : Js (List Nat × σ) :=
  shuffleLoop next rounds (deckSize - 1) (List.range deckSize) s

end Loop

end CardTable.Ts.Shuffle
