import CardTable.Go.CryptoCards

/-!
# Go.Shuffle — the shuffle loop on any bytes

`pkg/cryptocards/shuffle.go`, with the source of the bytes as a
parameter. Words are `uint32`, the limit of the rejection loop is a
`uint64`, and the position of a card is cut to 32 bits before a draw is
made for it. A draw is given a number of rounds, since nothing bounds the
loop.
-/

namespace CardTable.Go.Shuffle

open Basis

section Loop

variable {σ : Type} (next : σ → UInt8 × σ)

/-- `b0 | (b1 << 8) | (b2 << 16) | (b3 << 24)` of the next four bytes. -/
def nextWord (s : σ) : UInt32 × σ :=
  let (b0, s) := next s
  let (b1, s) := next s
  let (b2, s) := next s
  let (b3, s) := next s
  (b0.toUInt32 ||| (b1.toUInt32 <<< 8) ||| (b2.toUInt32 <<< 16) ||| (b3.toUInt32 <<< 24), s)

/-- `(uint64(1) << 32) / bound * bound`. -/
def limit (bound : UInt64) : UInt64 := ((1 : UInt64) <<< 32) / bound * bound

/-- `if uint64(value) < limit { return uint32(uint64(value) % bound) }`. -/
def accept (bound : UInt64) (value : UInt32) : Option UInt32 :=
  if value.toUInt64 < limit bound then some (value.toUInt64 % bound).toUInt32 else none

/-- `for`. -/
def drawLoop (bound : UInt64) : Nat → σ → Call String (UInt32 × σ)
  | 0, _ => .halt ()
  | rounds + 1, s =>
      let (value, s) := nextWord next s
      match accept bound value with
      | some j => .ok (j, s)
      | none => drawLoop bound rounds s

/-- `drawUniform`. -/
def drawUniform (rounds : Nat) (max : UInt32) (s : σ) : Call String (UInt32 × σ) :=
  if max = 0 then .ok (0, s) else drawLoop next (max.toUInt64 + 1) rounds s

/-- `deck[i], deck[j] = deck[j], deck[i]`, which panics outside the
slice. -/
def exchange (deck : List Nat) (i j : Nat) : Call String (List Nat) :=
  match deck[i]?, deck[j]? with
  | some a, some b => .ok ((deck.set i b).set j a)
  | _, _ => .halt ()

/-- `for i := deckSize - 1; i >= 1; i--`. -/
def shuffleLoop (rounds : Nat) : Nat → List Nat → σ → Call String (List Nat × σ)
  | 0, deck, s => .ok (deck, s)
  | i + 1, deck, s => do
      let (j, s) ← drawUniform next rounds (UInt32.ofNat (i + 1)) s
      let deck ← exchange deck (i + 1) j.toNat
      shuffleLoop rounds i deck s

/-- The body of `ShuffleCanonicalDeck`, for a deck of any size. -/
def shuffle (rounds deckSize : Nat) (s : σ) : Call String (List Nat × σ) :=
  shuffleLoop next rounds (deckSize - 1) (List.range deckSize) s

end Loop

end CardTable.Go.Shuffle
