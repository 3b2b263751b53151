import CardTable.Protocol
import CardTable.Basis.Hex
import CardTable.Basis.Sampling
import CardTable.Basis.Sha256

/-!
# Cards — commitments and the shuffle

`packages/crypto-cards` and `pkg/cryptocards` compute the same bytes in
two languages; the computations on which they cannot differ are stated
once here. Where they fail, and how, is in `Ts.CryptoCards` and
`Go.CryptoCards`. They differ in one place that matters, the block
counter of the byte stream, so the shuffle takes its byte source as a
parameter.
-/

namespace CardTable.Cards

open Basis.Sha256 Basis.Sampling

/-! ## encode.ts, encode.go -/

def encodeU8 (n : Nat) : List UInt8 := [UInt8.ofNat n]

def encodeU16LE (n : Nat) : List UInt8 := [UInt8.ofNat n, UInt8.ofNat (n / 256)]

/-- The low 32 bits, least significant byte first. -/
def encodeU32LE (n : Nat) : List UInt8 :=
  [UInt8.ofNat n, UInt8.ofNat (n / 256), UInt8.ofNat (n / 65536), UInt8.ofNat (n / 16777216)]

def encodeU64LE (n : Nat) : List UInt8 := encodeU32LE n ++ encodeU32LE (n / 4294967296)

/-- The variable-length integer: 1, 3, 5 or 9 bytes. -/
def encodeVarint (n : Nat) : List UInt8 :=
  if n < 0xfd then encodeU8 n
  else if n ≤ 0xffff then 0xfd :: encodeU16LE n
  else if n ≤ 0xffffffff then 0xfe :: encodeU32LE n
  else 0xff :: encodeU64LE n

/-! ## hash.ts, hash.go -/

def tagEntropyCommitment : Nat := 0x0005
def tagDeckCommitment : Nat := 0x0007
def tagCard : Nat := 0x0008

/-- SHA-256 of the type tag followed by the parts. -/
def domainHash (typeTag : Nat) (parts : List (List UInt8)) : List UInt8 :=
  sha256 (encodeU16LE typeTag ++ parts.flatten)

@[simp] theorem length_domainHash (typeTag : Nat) (parts : List (List UInt8)) :
    (domainHash typeTag parts).length = 32 := length_sha256 _

/-! ## shuffle.ts, shuffle.go -/

/-- The byte-stream generator. `counter` is the number of blocks drawn;
what the two languages make of it beyond `2^32` is theirs. -/
structure Prg where
  seed : List UInt8
  buf : List UInt8
  offset : Nat
  counter : Nat

/-- A generator that has drawn nothing. -/
def newPrg (seed : List UInt8) : Prg := ⟨seed, [], 0, 0⟩

/-- Fill the buffer with a block of the stream. -/
def Prg.refill (p : Prg) (block : Nat) : Prg :=
  { p with
    buf := sha256 (p.seed ++ encodeU32LE block)
    offset := 0
    counter := p.counter + 1 }

/-- The byte under the offset. -/
def Prg.takeByte (p : Prg) : UInt8 × Prg :=
  (p.buf.getD p.offset 0, { p with offset := p.offset + 1 })

section Shuffle

variable (nextByte : Prg → Option (UInt8 × Prg))

/-- Four bytes as a little-endian 32-bit value. -/
def nextValue (p : Prg) : Option (Nat × Prg) := do
  let (b0, p) ← nextByte p
  let (b1, p) ← nextByte p
  let (b2, p) ← nextByte p
  let (b3, p) ← nextByte p
  pure (b0.toNat ||| b1.toNat <<< 8 ||| b2.toNat <<< 16 ||| b3.toNat <<< 24, p)

/-- More values than the stream holds before it repeats: 8 values in each
of its `2^32` blocks. A draw that rejects this many never ends. -/
def streamValues : Nat := 34359738368

/-- An integer in `[0, max]`, by rejection sampling. -/
def drawUniform (max : Nat) (p : Prg) : Option (Nat × Prg) :=
  if max = 0 then some (0, p)
  else
    let bound := max + 1
    let limit := 4294967296 / bound * bound
    (drawUntil (nextValue nextByte) (fun value => decide (value < limit)) streamValues p).map
      fun (value, p) => (value % bound, p)

/-- The loop of `shuffleCanonicalDeck`, without its checks: `none` when
the byte source gives out. -/
def shuffleDeck (combined : List UInt8) (deckSize : Nat) : Option (List Nat) :=
  shuffleWith (drawUniform nextByte) (deckSize - 1) (List.range deckSize) (newPrg combined)

end Shuffle

/-- A source that answers less often gives the same shuffle, where it
gives one. -/
theorem shuffleDeck_mono {next next' : Prg → Option (UInt8 × Prg)} (h : Below next next')
    {combined : List UInt8} {deckSize : Nat} {deck : List Nat}
    (hdeck : shuffleDeck next combined deckSize = some deck) :
    shuffleDeck next' combined deckSize = some deck := by
  have hvalue : Below (nextValue next) (nextValue next') := by
    intro p r hr
    simp only [nextValue, Option.bind_eq_bind, Option.bind_eq_some_iff] at hr ⊢
    obtain ⟨r0, h0, r1, h1, r2, h2, r3, h3, hr⟩ := hr
    exact ⟨r0, h h0, r1, h h1, r2, h h2, r3, h h3, hr⟩
  refine Below.shuffleWith (fun max => ?_) _ _ hdeck
  intro p r hr
  simp only [drawUniform] at hr ⊢
  split
  · rename_i hmax
    simpa [hmax] using hr
  · rename_i hmax
    simp only [hmax, if_false, Option.map_eq_some_iff] at hr ⊢
    obtain ⟨drawn, hdrawn, hr⟩ := hr
    exact ⟨drawn, Below.drawUntil hvalue _ _ hdrawn, hr⟩

/-- A shuffled deck holds the ordinals of the deck. -/
theorem ordinal_lt_of_shuffleDeck {next : Prg → Option (UInt8 × Prg)} {combined : List UInt8}
    {deckSize : Nat} {deck : List Nat} (hsize : 0 < deckSize)
    (h : shuffleDeck next combined deckSize = some deck) : ∀ o ∈ deck, o < deckSize :=
  forall_of_shuffleWith (P := fun o => o < deckSize) hsize h (fun _ ho => List.mem_range.mp ho)

theorem length_of_shuffleDeck {next : Prg → Option (UInt8 × Prg)} {combined : List UInt8}
    {deckSize : Nat} {deck : List Nat} (h : shuffleDeck next combined deckSize = some deck) :
    deck.length = deckSize := by
  simpa using length_of_shuffleWith h

/-- **A shuffled deck is a permutation of the deck.** -/
theorem perm_of_shuffleDeck {next : Prg → Option (UInt8 × Prg)} {combined : List UInt8}
    {deckSize : Nat} {deck : List Nat} (hsize : 0 < deckSize)
    (h : shuffleDeck next combined deckSize = some deck) : deck.Perm (List.range deckSize) := by
  refine perm_of_shuffleWith ?_ h (by rw [List.length_range]; omega)
  intro max p j p' hdraw
  simp only [drawUniform] at hdraw
  split at hdraw
  · cases hdraw
    exact Nat.zero_le _
  · simp only [Option.map_eq_some_iff, Prod.mk.injEq] at hdraw
    obtain ⟨_, _, rfl, _⟩ := hdraw
    exact Nat.le_of_lt_succ (Nat.mod_lt _ (Nat.succ_pos _))

/-! ## entropy.ts, entropy.go, deck.ts, deck.go -/

/-- A player's entropy commitment. -/
def entropyCommitment (entropy playerId gameId : List UInt8) : List UInt8 :=
  domainHash tagEntropyCommitment [entropy, playerId, gameId]

/-- The seed derived from the revealed entropies, by seat. -/
def combinedSeed (entropies : List (List UInt8)) : List UInt8 :=
  domainHash tagDeckCommitment (encodeVarint entropies.length :: entropies)

/-- `"deck-nonce"` and `"card-nonce"` as bytes. -/
def deckNonceLabel : List UInt8 :=
  [0x64, 0x65, 0x63, 0x6b, 0x2d, 0x6e, 0x6f, 0x6e, 0x63, 0x65]
def cardNonceLabel : List UInt8 :=
  [0x63, 0x61, 0x72, 0x64, 0x2d, 0x6e, 0x6f, 0x6e, 0x63, 0x65]

def deriveDeckNonce (combined : List UInt8) : List UInt8 :=
  sha256 (encodeU16LE tagDeckCommitment ++ combined ++ deckNonceLabel)

def deriveCardNonce (combined : List UInt8) (position : Nat) : List UInt8 :=
  sha256 (encodeU16LE tagCard ++ combined ++ cardNonceLabel ++ encodeU32LE position)

/-- One position's commitment, for an ordinal and nonces that passed
their checks. -/
def cardCommitment (ordinal : Nat) (cardNonce deckNonce : List UInt8) : List UInt8 :=
  domainHash tagCard [encodeU8 ordinal, cardNonce, deckNonce]

/-- One position of the committed deck. -/
structure DeckPosition where
  position : Nat
  ordinal : Nat
  cardNonce : List UInt8
  deckNonce : List UInt8
  commitment : List UInt8

/-- The committed deck. -/
structure DeckCommitment where
  combinedEntropy : List UInt8
  shuffleAlgorithmVersion : Nat
  shuffledDeck : List Nat
  perPosition : List DeckPosition
  deckCommitmentHash : List UInt8

/-- A position's row. -/
def deckPosition (combined : List UInt8) (position ordinal : Nat) : DeckPosition :=
  let cardNonce := deriveCardNonce combined position
  let deckNonce := deriveDeckNonce combined
  ⟨position, ordinal, cardNonce, deckNonce, cardCommitment ordinal cardNonce deckNonce⟩

/-- The rows of a shuffled deck from `position` on. -/
def deckPositions (combined : List UInt8) (position : Nat) : List Nat → List DeckPosition
  | [] => []
  | ordinal :: rest =>
      deckPosition combined position ordinal :: deckPositions combined (position + 1) rest

/-- The commitment to a shuffled deck. -/
def commitDeck (combined : List UInt8) (shuffled : List Nat) : DeckCommitment :=
  let perPosition := deckPositions combined 0 shuffled
  ⟨combined, 1, shuffled, perPosition,
    domainHash tagDeckCommitment (encodeU8 1 :: perPosition.map (·.commitment))⟩

theorem length_deckPositions (combined : List UInt8) (position : Nat) (deck : List Nat) :
    (deckPositions combined position deck).length = deck.length := by
  induction deck generalizing position with
  | nil => rfl
  | cons ordinal rest ih => simp [deckPositions, ih]

end CardTable.Cards
