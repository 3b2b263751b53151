import CardTable.Go.Reopen
import CardTable.Openings

/-!
# Go.Reveals — the one card a position opens to

Once the last entropy is in, the deck of a session is fixed: the shuffle
of the combined entropy, committed row by row. Here the gate is read from
both sides. What the orchestrator of an honest round sends for a position
(its ordinal and its two nonces) always passes, and as long as SHA-256
does not collide on what was hashed nothing else does.
-/

namespace CardTable.Go.Session

open Basis Cards

variable {gameId : String} {ruleSet : RuleSet} {ruleSetHash : String} {recoveryDeadline : UInt32}
  {s s' : Session} {hist : List ((SignedAction × UInt32) × Session)}

/-- The deck of a session: the combination of the players' entropies in
seat order, and what the shuffle makes of it. -/
structure Dealt (s : Session) (seed : List UInt8) (deck : List Nat) : Prop where
  combined : ∃ (ring : List Contribution) (entropies : List (List UInt8)),
    ring.Perm (contributions s.state) ∧ ring.Pairwise (fun c d => c.seat ≤ d.seat) ∧
    ring.map (fun c => decodeBytes32 c.entropy) = entropies.map some ∧
    combineEntropy entropies = .ok seed
  stored : s.state.combinedEntropy = Hex.encode seed
  built : buildDeckCommitment seed s.ruleSet.deckFormat s.ruleSet.shuffleAlgorithmVersion =
    .ok (commitDeck seed deck)
  shuffled : deck.Perm (List.range s.ruleSet.deckFormat.toNat)

/-- The proof carries the row of its position: the ordinal that lies
there and the nonces derived for it. -/
def OpensRow (reveal : RevealProof) (seed : List UInt8) (deck : List Nat) : Prop :=
  ∃ (i : Nat) (ordinal : Nat), reveal.position = i ∧ deck[i]? = some ordinal ∧
    reveal.revealedCard.ordinal = ordinal ∧
    decodeBytes32 reveal.cardNonce = some (deriveCardNonce seed i) ∧
    decodeBytes32 reveal.deckNonce = some (deriveDeckNonce seed)

theorem dealt_of_deckOf (h : DeckOf s.ruleSet (contributions s.state) s.state.combinedEntropy
    s.state.deckCommitmentHash) : ∃ seed deck, s.Dealt seed deck := by
  obtain ⟨ring, entropies, seed, dc, hperm, hsorted, hdecoded, hseed, hbuilt, hstored, -⟩ := h
  obtain ⟨-, hsize, -, deck, hshuffle, rfl⟩ := buildDeckCommitment_eq_ok_iff.mp hbuilt
  exact ⟨seed, deck, ⟨ring, entropies, hperm, hsorted, hdecoded, hseed⟩, hstored, hbuilt,
    perm_of_shuffleDeck (by omega) hshuffle⟩

theorem allRevealed_of_awaits (h : Tracks gameId ruleSet ruleSetHash recoveryDeadline s)
    (hawaits : AwaitsCard s.state) : AllRevealed s.state.players := by
  apply allRevealed_of_deckPhase h.reveals
  rcases hawaits with h5 | h6 | h9
  · rw [h5]
    rfl
  · rw [h6]
    rfl
  · rw [h9]
    rfl

section Deck

variable {seed : List UInt8} {deck : List Nat}

theorem Dealt.seed_length (h : s.Dealt seed deck) : seed.length = 32 :=
  (buildDeckCommitment_eq_ok_iff.mp h.built).2.2.1

theorem Dealt.ordinal_le (h : s.Dealt seed deck) {ordinal : Nat} (ho : ordinal ∈ deck) :
    ordinal ≤ 53 := by
  obtain ⟨-, hsize, -⟩ := buildDeckCommitment_eq_ok_iff.mp h.built
  have hlt := List.mem_range.mp (h.shuffled.mem_iff.mp ho)
  omega

/-- One stored seed, one deck. -/
theorem Dealt.unique {t : Session} {seed' : List UInt8} {deck' : List Nat} (h : s.Dealt seed deck)
    (h' : t.Dealt seed' deck') (hrules : t.ruleSet = s.ruleSet)
    (hcombined : s.state.combinedEntropy = t.state.combinedEntropy) :
    seed = seed' ∧ deck = deck' := by
  have hencoded : Hex.encode seed = Hex.encode seed' := by
    rw [← h.stored, ← h'.stored, hcombined]
  have hdecoded := congrArg Hex.decode hencoded
  rw [Hex.decode_encode, Hex.decode_encode, Option.some.injEq] at hdecoded
  subst hdecoded
  have hbuilt := h'.built
  rw [hrules, h.built] at hbuilt
  have hshuffled := congrArg DeckCommitment.shuffledDeck (Outcome.ok.inj hbuilt)
  exact ⟨rfl, hshuffled⟩

/-- What the session stores for the deck decodes to its seed. -/
theorem Dealt.decode_stored (h : s.Dealt seed deck) :
    s.state.combinedEntropy ≠ "" ∧ decodeBytes32 s.state.combinedEntropy = some seed := by
  constructor
  · intro hempty
    have hnil := Hex.encode_eq_empty_iff.mp (h.stored.symm.trans hempty)
    have hlen := h.seed_length
    rw [hnil] at hlen
    cases hlen
  · rw [h.stored]
    exact decodeBytes32_eq_some.mpr ⟨Hex.decode_encode _, h.seed_length⟩

/-- A row of the deck opens its own commitment. -/
theorem verifyRevealProof_deckPosition (seed : List UInt8) (i : Nat) {ordinal : Nat}
    (hord : ordinal ≤ 53) :
    verifyRevealProof (deckPosition seed i ordinal).commitment ordinal (deriveCardNonce seed i)
      (deriveDeckNonce seed) = .ok true := by
  have hopen : commitCard ordinal (deriveCardNonce seed i) (deriveDeckNonce seed) =
      .ok (cardCommitment ordinal (deriveCardNonce seed i) (deriveDeckNonce seed)) :=
    commitCard_eq_ok hord (Sha256.length_sha256 _) (Sha256.length_sha256 _)
  rw [verifyRevealProof, hopen]
  simp [deckPosition]

/-- **Completeness of the gate**: the row of a position passes. -/
theorem Dealt.checkCardReveal_of_opensRow (h : s.Dealt seed deck) {a : SignedAction}
    (hrow : OpensRow a.reveal seed deck) : s.checkCardReveal a = .ok () := by
  obtain ⟨i, ordinal, hposition, hlies, hordinal, hcard, hnonce⟩ := hrow
  obtain ⟨hne, hdecode⟩ := h.decode_stored
  have hlisted : (commitDeck seed deck).perPosition[i]? = some (deckPosition seed i ordinal) := by
    show (deckPositions seed 0 deck)[i]? = _
    rw [getElem?_deckPositions, hlies, Nat.zero_add]
    rfl
  have hverified := verifyRevealProof_deckPosition seed i (h.ordinal_le (List.mem_of_getElem? hlies))
  have hnonneg : ¬(i : Int) < 0 := by omega
  simp only [checkCardReveal, if_neg hne, hdecode, h.built, hposition, if_neg hnonneg,
    Int.toNat_natCast, hlisted, hcard, hnonce, hordinal, hverified]

/-- **Soundness of the gate**: what passes is the row of its position,
unless SHA-256 collides on the card it shows. -/
theorem Dealt.opensRow_of_checkCardReveal (h : s.Dealt seed deck) {a : SignedAction}
    (hgate : s.checkCardReveal a = .ok ()) {hashed : Set (List UInt8)}
    (hinj : Set.InjOn Sha256.sha256 hashed)
    (hrows : ∀ i ordinal, deck[i]? = some ordinal →
      cardPreimage ordinal (deriveCardNonce seed i) (deriveDeckNonce seed) ∈ hashed)
    (hshown : ∀ cardNonce deckNonce, decodeBytes32 a.reveal.cardNonce = some cardNonce →
      decodeBytes32 a.reveal.deckNonce = some deckNonce →
      cardPreimage a.reveal.revealedCard.ordinal.toNat cardNonce deckNonce ∈ hashed) :
    OpensRow a.reveal seed deck := by
  obtain ⟨hopens⟩ := opensCard_of_checkCardReveal hgate
  obtain rfl : hopens.combined = seed :=
    Option.some.inj (hopens.combinedHex.symm.trans h.decode_stored.2)
  have hdeck : hopens.deck = commitDeck hopens.combined deck :=
    Outcome.ok.inj (hopens.built.symm.trans h.built)
  have hlisted : (deckPositions hopens.combined 0 deck)[a.reveal.position.toNat]? =
      some hopens.row := by
    have hrow := hopens.listed
    rw [hdeck] at hrow
    exact hrow
  rw [getElem?_deckPositions, Option.map_eq_some_iff, Nat.zero_add] at hlisted
  obtain ⟨ordinal, hlies, hrow⟩ := hlisted
  -- both cards hash to the commitment of the row
  have hdigest : Sha256.sha256 (cardPreimage a.reveal.revealedCard.ordinal.toNat hopens.cardNonce
      hopens.deckNonce) = Sha256.sha256 (cardPreimage ordinal
        (deriveCardNonce hopens.combined a.reveal.position.toNat)
        (deriveDeckNonce hopens.combined)) := by
    rw [← cardCommitment_eq, hopens.opened, ← hrow, ← cardCommitment_eq]
    rfl
  have hsame := hinj (hshown _ _ hopens.cardNonceHex hopens.deckNonceHex) (hrows _ _ hlies) hdigest
  have hordinal := h.ordinal_le (List.mem_of_getElem? hlies)
  have hrange := hopens.ordinal
  have hnonneg := hopens.nonneg
  obtain ⟨hord, hcard, hnonce⟩ := cardPreimage_inj (by omega) hordinal
    (decodeBytes32_eq_some.mp hopens.cardNonceHex).2
    (decodeBytes32_eq_some.mp hopens.deckNonceHex).2 (Sha256.length_sha256 _)
    (Sha256.length_sha256 _) hsame
  exact ⟨a.reveal.position.toNat, ordinal, by omega, hlies, by omega,
    hopens.cardNonceHex.trans (congrArg some hcard),
    hopens.deckNonceHex.trans (congrArg some hnonce)⟩

end Deck

/-! ## Sessions -/

/-- A card shown is put behind those already on the table. -/
theorem visible_of_reveal {a : SignedAction} {height : UInt32}
    (hok : s.submit a height = .ok s') (hkind : a.actionType = .cardReveal) :
    s'.state.visibleCards = s.state.visibleCards ++ [a.reveal.revealedCard] := by
  obtain ⟨_, _, next, final, hnext, hbind, rfl⟩ := submit_eq_ok.mp hok
  obtain ⟨_, haccepts⟩ := accepts_of_applyAction hnext
  obtain ⟨hbare, -⟩ := bindDeck_eq_ok hbind
  have hvisible : final.bare.visibleCards = next.bare.visibleCards := by rw [hbare]
  show final.bare.visibleCards = _
  rw [hvisible]
  cases haccepts with
  | firstCard | secondCard | thirdCard => rfl
  | join hother | tableLock hother | entropyCommit hother | entropyReveal hother
  | dealConcealed hother | bet hother | pass hother | fold hother | settle hother
  | rotate hother | finish hother | tableClose hother | timeout hother | recovery hother =>
      rw [hkind] at hother
      cases hother

/-- A session that awaits a card has its deck. -/
theorem dealt_of_awaits (hrun : Run gameId ruleSet ruleSetHash recoveryDeadline hist s)
    (hawaits : AwaitsCard s.state) : ∃ seed deck, s.Dealt seed deck :=
  dealt_of_deckOf ((backed_of_run hrun).deck (allRevealed_of_awaits (tracks_of_run hrun) hawaits))

/-- The reveal of a row is accepted, whatever the height. -/
theorem Dealt.submit_of_opensRow {seed : List UInt8} {deck : List Nat} (h : s.Dealt seed deck)
    (hrun : Run gameId ruleSet ruleSetHash recoveryDeadline hist s) (hawaits : AwaitsCard s.state)
    {a : SignedAction} (height : UInt32) (hkind : a.actionType = .cardReveal)
    (hgame : a.gameId = gameId) (hfresh : a.actionNonce ∉ s.seenNonces)
    (hrow : OpensRow a.reveal seed deck) :
    ∃ s', s.submit a height = .ok s' ∧
      s'.state.visibleCards = s.state.visibleCards ++ [a.reveal.revealedCard] := by
  have hstate : a.gameId = s.state.gameId := by
    rw [hgame, (fixed_of_run hrun).stateGame]
  obtain ⟨s', hok, -, -⟩ := submit_cardReveal height hawaits hkind hstate hfresh
    (h.checkCardReveal_of_opensRow hrow)
  exact ⟨s', hok, visible_of_reveal hok hkind⟩

/-- **Exactly the committed card opens a position.** In every reachable
session that awaits a card there is one deck, the shuffle of the
combination of everybody's entropies: the reveal of any of its rows is
accepted under a new nonce and shows its card, whatever the height; and
a reveal that is accepted is that of a row, unless SHA-256 collides on
what was hashed for the cards. -/
theorem reveal_accepted_iff_row (hrun : Run gameId ruleSet ruleSetHash recoveryDeadline hist s)
    (hawaits : AwaitsCard s.state) :
    ∃ seed deck, s.Dealt seed deck ∧ ∀ (a : SignedAction) (height : UInt32),
      a.actionType = .cardReveal → a.gameId = gameId → a.actionNonce ∉ s.seenNonces →
      (OpensRow a.reveal seed deck → ∃ s', s.submit a height = .ok s' ∧
        s'.state.visibleCards = s.state.visibleCards ++ [a.reveal.revealedCard]) ∧
      ∀ hashed, Set.InjOn Sha256.sha256 hashed →
        (∀ i ordinal, deck[i]? = some ordinal →
          cardPreimage ordinal (deriveCardNonce seed i) (deriveDeckNonce seed) ∈ hashed) →
        (∀ cardNonce deckNonce, decodeBytes32 a.reveal.cardNonce = some cardNonce →
          decodeBytes32 a.reveal.deckNonce = some deckNonce →
          cardPreimage a.reveal.revealedCard.ordinal.toNat cardNonce deckNonce ∈ hashed) →
        ((∃ s', s.submit a height = .ok s') ↔ OpensRow a.reveal seed deck) := by
  obtain ⟨seed, deck, hdealt⟩ := dealt_of_awaits hrun hawaits
  refine ⟨seed, deck, hdealt, ?_⟩
  intro a height hkind hgame hfresh
  have haccepted : OpensRow a.reveal seed deck → ∃ s', s.submit a height = .ok s' ∧
      s'.state.visibleCards = s.state.visibleCards ++ [a.reveal.revealedCard] :=
    hdealt.submit_of_opensRow hrun hawaits height hkind hgame hfresh
  refine ⟨haccepted, ?_⟩
  intro hashed hinj hrows hshown
  constructor
  · intro h
    obtain ⟨s', hok⟩ := h
    obtain ⟨-, hgate, -⟩ := submit_eq_ok.mp hok
    rw [verifyCrypto, hkind] at hgate
    exact hdealt.opensRow_of_checkCardReveal hgate hinj hrows hshown
  · intro hrow
    obtain ⟨s', hok, -⟩ := haccepted hrow
    exact ⟨s', hok⟩

/-- In the sample game, after the last entropy. -/
theorem reveal_accepted_iff_row_sample :
    ∃ hist s seed deck, Run sampleGame defaultRuleSet zeroHash 244 hist s ∧
      s.Dealt seed deck ∧ ∀ a height, a.actionType = .cardReveal → a.gameId = sampleGame →
        a.actionNonce ∉ s.seenNonces → OpensRow a.reveal seed deck →
        ∃ s', s.submit a height = .ok s' ∧
          s'.state.visibleCards = s.state.visibleCards ++ [a.reveal.revealedCard] := by
  obtain ⟨hist, s, hrun, _, hclass⟩ := sample_run
  obtain ⟨seed, deck, hdealt, hexact⟩ := reveal_accepted_iff_row hrun (.inl hclass)
  exact ⟨hist, s, seed, deck, hrun, hdealt,
    fun a height hkind hgame hfresh => (hexact a height hkind hgame hfresh).1⟩

end CardTable.Go.Session
