import CardTable.Go.Session
import CardTable.Go.Steps

/-!
# Go.Gate — what a call that passed the gate carries

`verifyCrypto` is a chain of decodings and comparisons. Each check that
returned nil is turned here into the values it decoded and the equation
it compared, so that another reader of the same texts can be followed
through the same chain.
-/

namespace CardTable.Go.Session

open Basis Cards

theorem decodeBytes32_eq_some {text : String} {bytes : List UInt8} :
    decodeBytes32 text = some bytes ↔ Hex.decode text = some bytes ∧ bytes.length = 32 := by
  simp only [decodeBytes32]
  cases Hex.decode text with
  | none => simp
  | some b =>
      by_cases hb : b.length = 32
      · simp only [hb, if_true, Option.some.injEq]
        constructor
        · intro heq
          subst heq
          exact ⟨rfl, hb⟩
        · intro hx
          obtain ⟨rfl, _⟩ := hx
          rfl
      · simp only [hb, if_false, Option.some.injEq]
        constructor
        · intro h
          cases h
        · intro hx
          obtain ⟨rfl, h⟩ := hx
          exact absurd h hb

/-- The opening of a commitment: the entropy in `text` is the one the
player of the seat committed to. -/
structure Opens (s : Session) (seat : Int) (text : String) where
  player : PlayerState
  commitment : List UInt8
  entropy : List UInt8
  key : List UInt8
  game : List UInt8
  seated : s.state.players.find? (fun p => p.seat == seat) = some player
  committed : player.entropyCommitmentHash ≠ ""
  commitmentHex : Hex.decode player.entropyCommitmentHash = some commitment
  entropyHex : decodeBytes32 text = some entropy
  keyHex : Hex.decode player.valueSigningPubkey = some key
  keyLong : 32 ≤ key.length
  gameHex : decodeBytes32 s.gameId = some game
  opened : entropyCommitment entropy (key.drop (key.length - 32)) game = commitment

theorem opens_of_checkEntropyReveal {s : Session} {a : SignedAction}
    (h : s.checkEntropyReveal a = .ok ()) :
    ∃ seat, a.actingPlayerSeat = some seat ∧ Nonempty (Opens s seat a.entropy) := by
  -- one `split` for each check of the source, in its order
  simp only [checkEntropyReveal] at h
  split at h
  · cases h
  · rename_i seat hseat
    refine ⟨seat, hseat, ?_⟩
    simp only [storedCommitment] at h
    cases hfind : s.state.players.find? (fun p => p.seat == seat) with
    | none => simp [hfind] at h
    | some p =>
        simp only [hfind] at h
        split at h
        · cases h
        · rename_i hcommitted
          split at h
          · cases h
          · rename_i commitment hcommitment
            split at h
            · cases h
            · rename_i entropy hentropy
              split at h
              · cases h
              · rename_i key hkey
                split at h
                · cases h
                · rename_i hlong
                  split at h
                  · cases h
                  · rename_i game hgame
                    have hlen : (key.drop (key.length - 32)).length = 32 := by
                      rw [List.length_drop]
                      omega
                    rw [verifyEntropyReveal, commitEntropy_eq_ok
                      (decodeBytes32_eq_some.mp hentropy).2 hlen
                      (decodeBytes32_eq_some.mp hgame).2] at h
                    split at h
                    · cases h
                    · cases h
                    · rename_i heq
                      exact ⟨⟨p, commitment, entropy, key, game, hfind, hcommitted, hcommitment,
                        hentropy, hkey, by omega, hgame, by simpa using heq⟩⟩

/-- The opening of a deck position: the card revealed is the one the deck
is committed to there. -/
structure OpensCard (s : Session) (reveal : RevealProof) where
  combined : List UInt8
  deck : DeckCommitment
  row : DeckPosition
  cardNonce : List UInt8
  deckNonce : List UInt8
  combinedHex : decodeBytes32 s.state.combinedEntropy = some combined
  built : buildDeckCommitment combined s.ruleSet.deckFormat
    s.ruleSet.shuffleAlgorithmVersion = .ok deck
  nonneg : 0 ≤ reveal.position
  listed : deck.perPosition[reveal.position.toNat]? = some row
  cardNonceHex : decodeBytes32 reveal.cardNonce = some cardNonce
  deckNonceHex : decodeBytes32 reveal.deckNonce = some deckNonce
  ordinal : 0 ≤ reveal.revealedCard.ordinal ∧ reveal.revealedCard.ordinal ≤ 53
  opened : cardCommitment reveal.revealedCard.ordinal.toNat cardNonce deckNonce = row.commitment

theorem opensCard_of_checkCardReveal {s : Session} {a : SignedAction}
    (h : s.checkCardReveal a = .ok ()) : Nonempty (OpensCard s a.reveal) := by
  -- one `split` for each check of the source, in its order
  simp only [checkCardReveal] at h
  split at h
  · cases h
  · split at h
    · cases h
    · rename_i combined hcombined
      split at h
      · cases h
      · cases h
      · rename_i deck hdeck
        split at h
        · cases h
        · rename_i row hrow
          split at hrow
          · cases hrow
          · rename_i hpos
            split at h
            · cases h
            · rename_i cardNonce hcn
              split at h
              · cases h
              · rename_i deckNonce hdn
                simp only [verifyRevealProof, commitCard,
                  encodeBytes32_eq_ok (decodeBytes32_eq_some.mp hcn).2,
                  encodeBytes32_eq_ok (decodeBytes32_eq_some.mp hdn).2] at h
                by_cases hord : a.reveal.revealedCard.ordinal < 0 ∨
                    53 < a.reveal.revealedCard.ordinal
                · simp [hord] at h
                · simp only [hord, if_false] at h
                  split at h
                  · cases h
                  · cases h
                  · rename_i heq
                    exact ⟨⟨combined, deck, row, cardNonce, deckNonce, hcombined, hdeck,
                      by omega, hrow, hcn, hdn, by omega, by simpa using heq⟩⟩

end CardTable.Go.Session
