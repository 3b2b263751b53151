import CardTable.Cards
import CardTable.Basis.Outcome

/-!
# Go.CryptoCards — the Go side of the card cryptography

`apps/relay-go/pkg/cryptocards`: what each function checks before it
computes, and the errors it returns. A call ends with a value, with an
error, or not at all: the rejection loop of the shuffle has no exit but
an accepted value.
-/

namespace CardTable.Go

open Basis Basis.Sampling Cards

/-- A Go call that may loop for ever (`halt`). -/
abbrev Call (ε α : Type) := Outcome Unit ε α

/-- `EncodeBytes32`. -/
def encodeBytes32 (b : List UInt8) : Except String (List UInt8) :=
  if b.length ≠ 32 then
    let got := b.length
    .error s!"EncodeBytes32: expected 32 bytes, got {got}"
  else .ok b

theorem encodeBytes32_eq_ok {b : List UInt8} (h : b.length = 32) : encodeBytes32 b = .ok b := by
  simp [encodeBytes32, h]

/-! ## shuffle.go -/

/-- `nextByte`. The counter is a `uint32`: it is read modulo `2^32`, and
the stream starts again when it wraps. -/
def nextByte (p : Prg) : Option (UInt8 × Prg) :=
  if p.buf.length ≤ p.offset then
    some (p.refill (p.counter % 4294967296)).takeByte
  else some p.takeByte

/-- `ShuffleCanonicalDeck`. -/
def shuffleCanonicalDeck (combined : List UInt8) (deckSize : Int) : Call String (List Nat) :=
  if deckSize ≠ 52 ∧ deckSize ≠ 54 then
    .err s!"ShuffleCanonicalDeck: unsupported deckSize {deckSize}"
  else if combined.length ≠ 32 then
    let got := combined.length
    .err s!"sha256CounterPrg: seed must be 32 bytes, got {got}"
  else match shuffleDeck nextByte combined deckSize.toNat with
  | none => .halt ()
  | some deck => .ok deck

/-! ## entropy.go -/

/-- `CommitEntropy`. -/
def commitEntropy (entropy playerId gameId : List UInt8) : Except String (List UInt8) :=
  match encodeBytes32 entropy with
  | .error e => .error s!"CommitEntropy: entropy: {e}"
  | .ok e =>
    match encodeBytes32 playerId with
    | .error e => .error s!"CommitEntropy: playerId: {e}"
    | .ok p =>
      match encodeBytes32 gameId with
      | .error e => .error s!"CommitEntropy: gameId: {e}"
      | .ok g => .ok (entropyCommitment e p g)

/-- `VerifyEntropyReveal`. -/
def verifyEntropyReveal (commitment entropy playerId gameId : List UInt8) : Except String Bool :=
  match commitEntropy entropy playerId gameId with
  | .error e => .error e
  | .ok recomputed => .ok (recomputed == commitment)

/-- The loop of `CombineEntropy` over the entropies from index `i` on. -/
def encodeEntropies (i : Nat) : List (List UInt8) → Except String (List (List UInt8))
  | [] => .ok []
  | e :: rest =>
      match encodeBytes32 e with
      | .error msg => .error s!"CombineEntropy: entropies[{i}]: {msg}"
      | .ok e =>
        match encodeEntropies (i + 1) rest with
        | .error msg => .error msg
        | .ok parts => .ok (e :: parts)

/-- `CombineEntropy`. -/
def combineEntropy (entropies : List (List UInt8)) : Except String (List UInt8) :=
  if entropies.length = 0 then .error "CombineEntropy: empty list"
  else match encodeEntropies 0 entropies with
  | .error msg => .error msg
  | .ok parts => .ok (combinedSeed parts)

/-! ## deck.go -/

/-- `CommitCard`. -/
def commitCard (ordinal : Int) (cardNonce deckNonce : List UInt8) : Except String (List UInt8) :=
  if ordinal < 0 ∨ 53 < ordinal then
    .error s!"CommitCard: ordinal out of 0..53 range: {ordinal}"
  else match encodeBytes32 cardNonce with
  | .error e => .error s!"CommitCard: cardNonce: {e}"
  | .ok cn =>
    match encodeBytes32 deckNonce with
    | .error e => .error s!"CommitCard: deckNonce: {e}"
    | .ok dn => .ok (cardCommitment ordinal.toNat cn dn)

/-- The loop of `BuildDeckCommitment` over the shuffled deck from
position `i` on. -/
def commitPositions (combined : List UInt8) (i : Nat) :
    List Nat → Except String (List DeckPosition)
  | [] => .ok []
  | ordinal :: rest =>
      let cardNonce := deriveCardNonce combined i
      let deckNonce := deriveDeckNonce combined
      match commitCard ordinal cardNonce deckNonce with
      | .error e => .error s!"BuildDeckCommitment: position {i}: {e}"
      | .ok commitment =>
        match commitPositions combined (i + 1) rest with
        | .error e => .error e
        | .ok per => .ok (⟨i, ordinal, cardNonce, deckNonce, commitment⟩ :: per)

/-- `BuildDeckCommitment`. -/
def buildDeckCommitment (combined : List UInt8) (deckSize shuffleAlgorithmVersion : Int) :
    Call String DeckCommitment :=
  if shuffleAlgorithmVersion ≠ 1 then
    .err s!"BuildDeckCommitment: unsupported shuffle algorithm version {shuffleAlgorithmVersion}"
  else match shuffleCanonicalDeck combined deckSize with
  | .halt k => .halt k
  | .err e => .err e
  | .ok shuffled =>
    match commitPositions combined 0 shuffled with
    | .error e => .err e
    | .ok per =>
        .ok ⟨combined, shuffleAlgorithmVersion.toNat, shuffled, per,
          domainHash tagDeckCommitment
            (encodeU8 shuffleAlgorithmVersion.toNat :: per.map (·.commitment))⟩

/-- `VerifyRevealProof`. -/
def verifyRevealProof (expected : List UInt8) (ordinal : Int) (cardNonce deckNonce : List UInt8) :
    Except String Bool :=
  match commitCard ordinal cardNonce deckNonce with
  | .error e => .error e
  | .ok recomputed => .ok (recomputed == expected)

/-! ## What the checks leave -/

theorem commitEntropy_eq_ok {entropy playerId gameId : List UInt8} (he : entropy.length = 32)
    (hp : playerId.length = 32) (hg : gameId.length = 32) :
    commitEntropy entropy playerId gameId = .ok (entropyCommitment entropy playerId gameId) := by
  simp [commitEntropy, encodeBytes32, he, hp, hg]

theorem encodeEntropies_eq_ok {i : Nat} {entropies parts : List (List UInt8)}
    (h : encodeEntropies i entropies = .ok parts) :
    (∀ e ∈ entropies, e.length = 32) ∧ parts = entropies := by
  induction entropies generalizing i parts with
  | nil =>
      cases h
      simp
  | cons e rest ih =>
      simp only [encodeEntropies, encodeBytes32] at h
      by_cases he : e.length = 32
      · simp only [he, ne_eq, not_true_eq_false, if_false] at h
        split at h
        · cases h
        · rename_i hrest
          cases h
          obtain ⟨hall, rfl⟩ := ih hrest
          exact ⟨List.forall_mem_cons.mpr ⟨he, hall⟩, rfl⟩
      · simp [he] at h

/-- `CombineEntropy` combines 32-byte entropies, at least one. -/
theorem combineEntropy_eq_ok {entropies : List (List UInt8)} {combined : List UInt8}
    (h : combineEntropy entropies = .ok combined) :
    entropies ≠ [] ∧ (∀ e ∈ entropies, e.length = 32) ∧ combined = combinedSeed entropies := by
  simp only [combineEntropy] at h
  split at h
  · cases h
  · rename_i hlen
    split at h
    · cases h
    · rename_i hparts
      cases h
      obtain ⟨hall, rfl⟩ := encodeEntropies_eq_ok hparts
      refine ⟨?_, hall, rfl⟩
      intro heq
      subst heq
      exact hlen rfl

theorem commitCard_eq_ok {ordinal : Nat} {cardNonce deckNonce : List UInt8} (ho : ordinal ≤ 53)
    (hc : cardNonce.length = 32) (hd : deckNonce.length = 32) :
    commitCard ordinal cardNonce deckNonce = .ok (cardCommitment ordinal cardNonce deckNonce) := by
  have hrange : ¬((ordinal : Int) < 0 ∨ (53 : Int) < ordinal) := by omega
  rw [commitCard, if_neg hrange]
  simp [encodeBytes32, hc, hd]

/-- The ordinals of a deck all commit. -/
theorem commitPositions_eq_ok {combined : List UInt8} {deck : List Nat} (i : Nat)
    (h : ∀ o ∈ deck, o ≤ 53) :
    commitPositions combined i deck = .ok (deckPositions combined i deck) := by
  induction deck generalizing i with
  | nil => rfl
  | cons o deck ih =>
      simp only [List.forall_mem_cons] at h
      have hcard : commitCard o (deriveCardNonce combined i) (deriveDeckNonce combined) = .ok _ :=
        commitCard_eq_ok h.1 (Sha256.length_sha256 _) (Sha256.length_sha256 _)
      simp only [commitPositions, hcard, ih (i + 1) h.2, deckPositions, deckPosition]

/-- **`BuildDeckCommitment` can fail only before or in the shuffle.** On
a 32-byte seed, a supported deck size and algorithm 1 it commits the
shuffled deck whenever the shuffle ends. -/
theorem buildDeckCommitment_eq_ok_iff {combined : List UInt8} {deckSize version : Int}
    {dc : DeckCommitment} :
    buildDeckCommitment combined deckSize version = .ok dc ↔
      version = 1 ∧ (deckSize = 52 ∨ deckSize = 54) ∧ combined.length = 32 ∧
        ∃ deck, shuffleDeck nextByte combined deckSize.toNat = some deck ∧
          dc = commitDeck combined deck := by
  simp only [buildDeckCommitment, shuffleCanonicalDeck]
  by_cases h1 : version = 1
  · by_cases h2 : deckSize ≠ 52 ∧ deckSize ≠ 54
    · simp [h1, h2]
    · have hsize : deckSize = 52 ∨ deckSize = 54 := by omega
      by_cases h3 : combined.length = 32
      · cases hdeck : shuffleDeck nextByte combined deckSize.toNat with
        | none => simp [h1, h2, h3, hsize]
        | some deck =>
            have hords : ∀ o ∈ deck, o ≤ 53 := by
              intro o ho
              have := ordinal_lt_of_shuffleDeck (by omega) hdeck o ho
              omega
            simp [h1, h2, h3, hsize, commitPositions_eq_ok 0 hords, commitDeck, eq_comm]
      · simp [h1, h2, h3]
  · simp [h1]

end CardTable.Go
