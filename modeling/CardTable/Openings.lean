import CardTable.Domains

/-!
# Openings — what an accepted reveal opens

`verifyRevealProof` hashes the ordinal and the two nonces of a proof and
compares the digest with the commitment of a position. As long as SHA-256
does not collide on what was hashed for the positions and for the proof, a
proof that passes holds the ordinal and the nonces of the position, and
passes nowhere else.
-/

namespace CardTable

open Basis Cards

/-- What is hashed into a card's commitment. -/
def cardPreimage (ordinal : Nat) (cardNonce deckNonce : List UInt8) : List UInt8 :=
  domainPreimage tagCard [encodeU8 ordinal, cardNonce, deckNonce]

theorem cardCommitment_eq (ordinal : Nat) (cardNonce deckNonce : List UInt8) :
    cardCommitment ordinal cardNonce deckNonce =
      Sha256.sha256 (cardPreimage ordinal cardNonce deckNonce) := rfl

/-- A reveal proof, without the position it names: nothing reads that. -/
structure CardProof where
  ordinal : Int
  cardNonce : List UInt8
  deckNonce : List UInt8

def CardProof.preimage (p : CardProof) : List UInt8 :=
  cardPreimage p.ordinal.toNat p.cardNonce p.deckNonce

def Cards.DeckPosition.preimage (row : DeckPosition) : List UInt8 :=
  cardPreimage row.ordinal row.cardNonce row.deckNonce

/-- `buildDeckCommitment` of either language returned this deck. -/
def Builds (combined : List UInt8) (deckSize version : Int) (dc : DeckCommitment) : Prop :=
  Ts.buildDeckCommitment combined deckSize version = .ok dc ∨
    Go.buildDeckCommitment combined deckSize version = .ok dc

/-- `verifyRevealProof` of either language accepts the proof. -/
def Verifies (commitment : List UInt8) (p : CardProof) : Prop :=
  Ts.verifyRevealProof commitment p.ordinal p.cardNonce p.deckNonce = .ok true ∨
    Go.verifyRevealProof commitment p.ordinal p.cardNonce p.deckNonce = .ok true

/-! ## The rows of a deck -/

theorem getElem?_deckPositions (combined : List UInt8) (start : Nat) (deck : List Nat) (i : Nat) :
    (deckPositions combined start deck)[i]? =
      deck[i]?.map (deckPosition combined (start + i)) := by
  induction deck generalizing start i with
  | nil => rfl
  | cons ordinal rest ih =>
      cases i with
      | zero => rfl
      | succ i =>
          rw [deckPositions, List.getElem?_cons_succ, List.getElem?_cons_succ, ih]
          congr 2
          omega

/-- What TypeScript commits to, when it does. -/
theorem Ts.buildDeckCommitment_inv {combined : List UInt8} {deckSize version : Int}
    {dc : DeckCommitment} (h : Ts.buildDeckCommitment combined deckSize version = .ok dc) :
    ∃ deck, shuffleDeck Ts.nextByte combined deckSize.toNat = some deck ∧
      (deckSize = 52 ∨ deckSize = 54) ∧ dc = commitDeck combined deck := by
  simp only [Ts.buildDeckCommitment] at h
  split at h
  · cases h
  rename_i hversion
  obtain ⟨deck, hshuffle, h⟩ := Outcome.bind_eq_ok.mp h
  obtain ⟨per, hper, h⟩ := Outcome.bind_eq_ok.mp h
  simp only [Ts.shuffleCanonicalDeck] at hshuffle
  split at hshuffle
  · cases hshuffle
  rename_i hsize
  split at hshuffle
  · cases hshuffle
  split at hshuffle
  · cases hshuffle
  rename_i hdeck
  cases hshuffle
  have hsize : deckSize = 52 ∨ deckSize = 54 := by omega
  have hords : ∀ o ∈ deck, o ≤ 53 := by
    intro o ho
    have := ordinal_lt_of_shuffleDeck (by omega) hdeck o ho
    omega
  rw [Ts.commitPositions_eq_ok 0 hords] at hper
  cases hper
  obtain rfl : version = 1 := Decidable.not_not.mp hversion
  exact ⟨deck, hdeck, hsize, (Outcome.ok.inj h).symm⟩

/-- **The deck either language builds**: a permutation of the ordinals,
committed row by row. -/
theorem Builds.deck {combined : List UInt8} {deckSize version : Int} {dc : DeckCommitment}
    (h : Builds combined deckSize version dc) :
    ∃ deck, deck.Perm (List.range deckSize.toNat) ∧ (∀ o ∈ deck, o ≤ 53) ∧
      dc = commitDeck combined deck := by
  have hdeck : ∃ (next : Prg → Option (UInt8 × Prg)) (deck : List Nat),
      shuffleDeck next combined deckSize.toNat = some deck ∧
        (deckSize = 52 ∨ deckSize = 54) ∧ dc = commitDeck combined deck := by
    rcases h with hts | hgo
    · exact ⟨_, Ts.buildDeckCommitment_inv hts⟩
    · obtain ⟨_, hsize, _, deck, hshuffle, hdc⟩ := Go.buildDeckCommitment_eq_ok_iff.mp hgo
      exact ⟨_, deck, hshuffle, hsize, hdc⟩
  obtain ⟨next, deck, hshuffle, hsize, hdc⟩ := hdeck
  refine ⟨deck, perm_of_shuffleDeck (by omega) hshuffle, ?_, hdc⟩
  intro o ho
  have := ordinal_lt_of_shuffleDeck (by omega) hshuffle o ho
  omega

/-! ## What an accepted proof passed -/

theorem Ts.encodeBytes32_inv {b c : List UInt8} (h : Ts.encodeBytes32 b = .ok c) :
    b.length = 32 ∧ c = b := by
  simp only [Ts.encodeBytes32] at h
  split at h
  · cases h
  · rename_i hlen
    exact ⟨Decidable.not_not.mp hlen, (Outcome.ok.inj h).symm⟩

theorem Ts.commitCard_inv {ordinal : Int} {cardNonce deckNonce c : List UInt8}
    (h : Ts.commitCard ordinal cardNonce deckNonce = .ok c) :
    (0 ≤ ordinal ∧ ordinal ≤ 53) ∧ cardNonce.length = 32 ∧ deckNonce.length = 32 ∧
      c = cardCommitment ordinal.toNat cardNonce deckNonce := by
  simp only [Ts.commitCard] at h
  split at h
  · cases h
  rename_i hrange
  obtain ⟨cn, hcn, hrest⟩ := Outcome.bind_eq_ok.mp h
  obtain ⟨dn, hdn, hcommit⟩ := Outcome.bind_eq_ok.mp hrest
  obtain ⟨hclen, rfl⟩ := Ts.encodeBytes32_inv hcn
  obtain ⟨hdlen, rfl⟩ := Ts.encodeBytes32_inv hdn
  exact ⟨by omega, hclen, hdlen, (Outcome.ok.inj hcommit).symm⟩

theorem Go.encodeBytes32_inv {b c : List UInt8} (h : Go.encodeBytes32 b = .ok c) :
    b.length = 32 ∧ c = b := by
  simp only [Go.encodeBytes32] at h
  split at h
  · cases h
  · rename_i hlen
    exact ⟨Decidable.not_not.mp hlen, (Except.ok.inj h).symm⟩

theorem Go.commitCard_inv {ordinal : Int} {cardNonce deckNonce c : List UInt8}
    (h : Go.commitCard ordinal cardNonce deckNonce = .ok c) :
    (0 ≤ ordinal ∧ ordinal ≤ 53) ∧ cardNonce.length = 32 ∧ deckNonce.length = 32 ∧
      c = cardCommitment ordinal.toNat cardNonce deckNonce := by
  simp only [Go.commitCard] at h
  split at h
  · cases h
  rename_i hrange
  split at h
  · cases h
  rename_i cn hcn
  split at h
  · cases h
  rename_i dn hdn
  obtain ⟨hclen, rfl⟩ := Go.encodeBytes32_inv hcn
  obtain ⟨hdlen, rfl⟩ := Go.encodeBytes32_inv hdn
  exact ⟨by omega, hclen, hdlen, (Except.ok.inj h).symm⟩

/-- **An accepted proof** is in range and hashes to the commitment. -/
theorem Verifies.checked {commitment : List UInt8} {p : CardProof} (h : Verifies commitment p) :
    (0 ≤ p.ordinal ∧ p.ordinal ≤ 53) ∧ p.cardNonce.length = 32 ∧ p.deckNonce.length = 32 ∧
      Sha256.sha256 p.preimage = commitment := by
  rcases h with hts | hgo
  · obtain ⟨c, hcommit, heq⟩ := Outcome.bind_eq_ok.mp hts
    obtain ⟨hrange, hcn, hdn, rfl⟩ := Ts.commitCard_inv hcommit
    exact ⟨hrange, hcn, hdn, by simpa [CardProof.preimage, cardCommitment_eq] using heq⟩
  · simp only [Go.verifyRevealProof] at hgo
    split at hgo
    · cases hgo
    · rename_i hcommit
      obtain ⟨hrange, hcn, hdn, rfl⟩ := Go.commitCard_inv hcommit
      exact ⟨hrange, hcn, hdn, by simpa [CardProof.preimage, cardCommitment_eq] using hgo⟩

/-- What is hashed for a card tells the card. -/
theorem cardPreimage_inj {o o' : Nat} {cn dn cn' dn' : List UInt8} (ho : o ≤ 53) (ho' : o' ≤ 53)
    (hcn : cn.length = 32) (hdn : dn.length = 32) (hcn' : cn'.length = 32) (hdn' : dn'.length = 32)
    (h : cardPreimage o cn dn = cardPreimage o' cn' dn') : o = o' ∧ cn = cn' ∧ dn = dn' := by
  have huse := preimage_injective (show
    (HashUse.cardCommitment ⟨o, by omega⟩ ⟨cn, hcn⟩ ⟨dn, hdn⟩).preimage =
      (HashUse.cardCommitment ⟨o', by omega⟩ ⟨cn', hcn'⟩ ⟨dn', hdn'⟩).preimage from h)
  simpa using huse

/-- A proof accepted at a position holds what the position holds. -/
theorem Builds.opened {combined : List UInt8} {deckSize version : Int} {dc : DeckCommitment}
    (hbuilt : Builds combined deckSize version dc) {p : CardProof} {i : Nat} {row : DeckPosition}
    (hrow : dc.perPosition[i]? = some row) {hashed : Set (List UInt8)}
    (hinj : Set.InjOn Sha256.sha256 hashed) (hp : p.preimage ∈ hashed) (hr : row.preimage ∈ hashed)
    (haccepts : Verifies row.commitment p) :
    dc.shuffledDeck[i]? = some p.ordinal.toNat ∧ 0 ≤ p.ordinal ∧
      p.cardNonce = deriveCardNonce combined i ∧ p.deckNonce = deriveDeckNonce combined := by
  obtain ⟨deck, -, hords, rfl⟩ := hbuilt.deck
  rw [show (commitDeck combined deck).perPosition = deckPositions combined 0 deck from rfl,
    getElem?_deckPositions, Option.map_eq_some_iff] at hrow
  obtain ⟨o, ho, rfl⟩ := hrow
  obtain ⟨hrange, hcn, hdn, hdigest⟩ := haccepts.checked
  have hpreimage := hinj hp hr hdigest
  obtain ⟨hord, hcard, hnonce⟩ := cardPreimage_inj (by omega)
    (hords o (List.mem_of_getElem? ho)) hcn hdn (Sha256.length_sha256 _)
    (Sha256.length_sha256 _) hpreimage
  rw [Nat.zero_add] at hcard
  exact ⟨hord ▸ ho, hrange.1, hcard, hnonce⟩

/-- **Reveals are binding.** A proof accepted at a position holds the
ordinal and the nonces of that position; it is accepted at one position
only. -/
theorem reveal_binding {combined : List UInt8} {deckSize version : Int} {dc : DeckCommitment}
    (hbuilt : Builds combined deckSize version dc) (p : CardProof) :
    (∀ (i : Nat) (row : DeckPosition), dc.perPosition[i]? = some row →
      Set.InjOn Sha256.sha256 {p.preimage, row.preimage} → Verifies row.commitment p →
      dc.shuffledDeck[i]?.map Int.ofNat = some p.ordinal ∧
        p.cardNonce = deriveCardNonce combined i ∧ p.deckNonce = deriveDeckNonce combined) ∧
    ∀ (i j : Nat) (row row' : DeckPosition), dc.perPosition[i]? = some row →
      dc.perPosition[j]? = some row' →
      Set.InjOn Sha256.sha256 {p.preimage, row.preimage, row'.preimage} →
      Verifies row.commitment p → Verifies row'.commitment p → i = j := by
  constructor
  · intro i row hrow hinj haccepts
    obtain ⟨hord, hnonneg, hcard, hnonce⟩ :=
      hbuilt.opened hrow hinj (.inl rfl) (.inr rfl) haccepts
    refine ⟨?_, hcard, hnonce⟩
    rw [hord]
    simpa using hnonneg
  · intro i j row row' hrow hrow' hinj haccepts haccepts'
    obtain ⟨hi, -⟩ := hbuilt.opened hrow hinj (.inl rfl) (.inr (.inl rfl)) haccepts
    obtain ⟨hj, -⟩ := hbuilt.opened hrow' hinj (.inl rfl) (.inr (.inr rfl)) haccepts'
    -- no ordinal stands twice in the deck
    obtain ⟨deck, hperm, -, rfl⟩ := hbuilt.deck
    have hnodup : deck.Nodup := hperm.nodup_iff.mpr List.nodup_range
    obtain ⟨hlt, -⟩ := List.getElem?_eq_some_iff.mp hi
    exact (List.getElem?_inj hlt hnodup).mp (hi.trans hj.symm)

/-- A combined entropy, and the deck it shuffles. -/
def sampleCombined : List UInt8 := List.replicate 32 7

def sampleShuffled : List Nat :=
  [41, 29, 51, 6, 15, 38, 12, 44, 21, 8, 32, 47, 37, 31, 9, 49, 1, 11, 0, 36, 14, 46, 7, 4, 16, 35,
    2, 34, 39, 48, 26, 50, 20, 25, 45, 40, 33, 13, 17, 23, 3, 43, 24, 22, 30, 42, 10, 18, 28, 19,
    27, 5]

/-- The card at position 3, opened. -/
def sampleProof : CardProof where
  ordinal := 6
  cardNonce := deriveCardNonce sampleCombined 3
  deckNonce := deriveDeckNonce sampleCombined

theorem sample_builds :
    Builds sampleCombined 52 1 (commitDeck sampleCombined sampleShuffled) := by
  refine .inr (Go.buildDeckCommitment_eq_ok_iff.mpr ⟨rfl, .inl rfl, rfl, sampleShuffled, ?_, rfl⟩)
  decide +kernel

theorem sampleProof_accepted :
    Verifies (deckPosition sampleCombined 3 6).commitment sampleProof := by
  refine .inr ?_
  have hopen : Go.commitCard sampleProof.ordinal sampleProof.cardNonce sampleProof.deckNonce =
      .ok (deckPosition sampleCombined 3 6).commitment :=
    Go.commitCard_eq_ok (by decide) (Sha256.length_sha256 _) (Sha256.length_sha256 _)
  rw [Go.verifyRevealProof, hopen]
  simp

theorem reveal_binding_sample :
    sampleShuffled[3]?.map Int.ofNat = some sampleProof.ordinal ∧
      ¬ Verifies (deckPosition sampleCombined 4 15).commitment sampleProof := by
  have hdiffer : Sha256.sha256 sampleProof.preimage ≠
      Sha256.sha256 (deckPosition sampleCombined 4 15).preimage := by
    decide +kernel
  have hinj : Set.InjOn Sha256.sha256 {sampleProof.preimage,
      (deckPosition sampleCombined 3 6).preimage, (deckPosition sampleCombined 4 15).preimage} := by
    intro x hx y hy hxy
    rcases hx with rfl | rfl | rfl <;> rcases hy with rfl | rfl | rfl <;>
      first | rfl | exact absurd hxy hdiffer | exact absurd hxy.symm hdiffer
  constructor
  · have hhere : Set.InjOn Sha256.sha256
        {sampleProof.preimage, (deckPosition sampleCombined 3 6).preimage} :=
      hinj.mono (by grind)
    exact ((reveal_binding sample_builds sampleProof).1 3 _ rfl hhere sampleProof_accepted).1
  · intro haccepts
    have hsame := (reveal_binding sample_builds sampleProof).2 3 4 _ _ rfl rfl hinj
      sampleProof_accepted haccepts
    cases hsame

end CardTable
