import CardTable.Go.Binding
import CardTable.Go.Entropy

/-!
# Go.Reopen — which deck positions a session has opened

Each `CardReveal` is checked against the deck commitment on its own, and
the rotation clears the visible cards, so nothing in a session remembers
which positions were opened. `opened` reads them off the transcript. The
first card is always new; from then on the gate that let a reveal pass
lets it pass again, to the end of the game.
-/

namespace CardTable.Go.Session

open Basis Cards

/-! ## Opened positions -/

/-- The positions the accepted reveals of a transcript name. -/
def positions (transcript : List SignedAction) : List Int :=
  (transcript.filter (fun a => a.actionType = .cardReveal)).map (·.reveal.position)

/-- The positions opened so far, in order. -/
def opened (s : Session) : List Int := positions s.transcript

theorem positions_append (transcript : List SignedAction) (a : SignedAction) :
    positions (transcript ++ [a]) =
      if a.actionType = .cardReveal then positions transcript ++ [a.reveal.position]
      else positions transcript := by
  by_cases hkind : a.actionType = .cardReveal
  · simp [positions, hkind]
  · simp [positions, hkind]

/-- The classes before the first card, and those after it. -/
def beforeCards : StateClass → Bool
  | .s0TableOpen | .s1SeatOpen | .s2TableLocked | .s3EntropyCommitWindow
  | .s4EntropyRevealWindow | .s5DeckCommitted => true
  | _ => false

def afterCards : StateClass → Bool
  | .s6CardRevealFirst | .s7CardRevealSecond | .s8BetDecision | .s9CardRevealThird
  | .s10SettledRound | .s11RotateTurn | .s12TableClose => true
  | _ => false

/-- **Where cards are shown**: at S5, S6 and S9 only, and the step out of
S5 into the later classes is one. -/
theorem Accepts.cards {ruleSet : RuleSet} {height : UInt32} {state state' : RoundState}
    {a : SignedAction} (h : Accepts ruleSet height state a state') :
    (beforeCards state'.stateClass = true →
      beforeCards state.stateClass = true ∧ a.actionType ≠ .cardReveal) ∧
    (afterCards state'.stateClass = true →
      afterCards state.stateClass = true ∨ a.actionType = .cardReveal) ∧
    (a.actionType = .cardReveal → state.stateClass = .s5DeckCommitted ∨
      state.stateClass = .s6CardRevealFirst ∨ state.stateClass = .s9CardRevealThird) := by
  cases h with
  | entropyCommit hkind hclass _ _ hnext =>
      rcases hnext with rfl | rfl
      · simp [hkind, hclass, beforeCards, afterCards, RoundState.advance]
      · simp [hkind, hclass, beforeCards, afterCards, RoundState.advance]
  -- S4 or S5, by whether all have revealed; neither shows a card
  | @entropyReveal _ _ _ players _ hkind hclass _ _ _ hnext =>
      subst hnext
      by_cases hall : players.all (·.entropyRevealed) = true
      · simp [hkind, hclass, hall, beforeCards, afterCards, RoundState.advance]
      · simp [hkind, hclass, hall, beforeCards, afterCards, RoundState.advance]
  | fold hkind hclass =>
      rcases hclass with hclass | hclass
      · simp [hkind, hclass, beforeCards, afterCards, RoundState.advance]
      · simp [hkind, hclass, beforeCards, afterCards, RoundState.advance]
  | recovery hkind => simp [hkind, beforeCards, afterCards]
  | _ hkind hclass => simp [hkind, hclass, beforeCards, afterCards, RoundState.advance]

/-! ## The invariant -/

/-- What a run keeps of its openings: none before the first card, some
after it, and each would pass the gate again. -/
structure Openings (s : Session) : Prop where
  closed : beforeCards s.state.stateClass = true → s.opened = []
  shown : afterCards s.state.stateClass = true → s.opened ≠ []
  again : ∀ a ∈ s.transcript, a.actionType = .cardReveal →
    AllRevealed s.state.players ∧ s.checkCardReveal a = .ok ()

variable {gameId : String} {ruleSet : RuleSet} {ruleSetHash : String} {recoveryDeadline : UInt32}
  {s s' : Session} {call : SignedAction × UInt32}

/-- The gate on a card reads the combined entropy, the rule set and the
reveal. -/
theorem checkCardReveal_congr {a b : SignedAction}
    (hcombined : s'.state.combinedEntropy = s.state.combinedEntropy)
    (hrules : s'.ruleSet = s.ruleSet) (hreveal : b.reveal = a.reveal) :
    s'.checkCardReveal b = s.checkCardReveal a := by
  simp only [checkCardReveal, hcombined, hrules, hreveal]

theorem Openings.submit (h : Openings s) (htracks : Tracks gameId ruleSet ruleSetHash recoveryDeadline s)
    (hok : s.submit call.1 call.2 = .ok s') : Openings s' := by
  obtain ⟨_, hgate, next, final, hnext, hbind, hs'⟩ := submit_eq_ok.mp hok
  obtain ⟨_, haccepts⟩ := accepts_of_applyAction hnext
  obtain ⟨hbefore, hafter, hawaits⟩ := Accepts.cards haccepts
  have hclass : s'.state.stateClass = next.stateClass := by
    have hbare := congrArg RoundState.stateClass (bindDeck_eq_ok hbind).1
    rw [hs']
    exact hbare
  have hopened : s'.opened = positions (s.transcript ++ [call.1]) := by rw [hs', opened]
  have hrules : s'.ruleSet = s.ruleSet := by rw [hs']
  rw [positions_append] at hopened
  refine ⟨?_, ?_, ?_⟩
  · intro hphase
    obtain ⟨hprior, hkind⟩ := hbefore (hclass ▸ hphase)
    rw [hopened, if_neg hkind]
    exact h.closed hprior
  · intro hphase
    rw [hopened]
    by_cases hkind : call.1.actionType = .cardReveal
    · simp [hkind]
    · rw [if_neg hkind]
      exact h.shown ((hafter (hclass ▸ hphase)).resolve_right hkind)
  · intro a ha hkind
    have hmem : a ∈ s.transcript ∨ a = call.1 := by simpa [hs'] using ha
    -- either way the deck was complete before the call, and stays
    have hpassed : AllRevealed s.state.players ∧ s.checkCardReveal a = .ok () := by
      rcases hmem with hmem | rfl
      · exact h.again a hmem hkind
      · refine ⟨?_, ?_⟩
        · have hreveals := htracks.reveals
          rcases hawaits hkind with h5 | h6 | h9
          · simpa [RevealsOf, h5] using hreveals
          · simpa [RevealsOf, h6] using hreveals
          · simpa [RevealsOf, h9] using hreveals
        · rwa [verifyCrypto, hkind] at hgate
    obtain ⟨_, hcombined, _, hall⟩ := frozen_step htracks hpassed.1 hok
    refine ⟨hall, ?_⟩
    rw [checkCardReveal_congr hcombined hrules rfl]
    exact hpassed.2

/-- A card is awaited. -/
def AwaitsCard (state : RoundState) : Prop :=
  state.stateClass = .s5DeckCommitted ∨ state.stateClass = .s6CardRevealFirst ∨
    state.stateClass = .s9CardRevealThird

/-- The engine takes any card that is awaited. -/
theorem applyAction_cardReveal {state : RoundState} {a : SignedAction} (height : UInt32)
    (hawaits : AwaitsCard state) (hkind : a.actionType = .cardReveal)
    (hgame : a.gameId = state.gameId) :
    ∃ next, applyAction state a ruleSet height = .ok next ∧
      (state.stateClass = .s5DeckCommitted → next.stateClass = .s6CardRevealFirst) := by
  rcases hawaits with h5 | h6 | h9
  · simp [applyAction, hgame, hkind, h5, getLegalActions, applyCardReveal, RoundState.advance]
  · simp [applyAction, hgame, hkind, h6, getLegalActions, applyCardReveal]
  · simp [applyAction, hgame, hkind, h9, getLegalActions, applyCardReveal]

/-- A session that awaits a card accepts every reveal that passes the
gate. -/
theorem submit_cardReveal {a : SignedAction} (height : UInt32) (hawaits : AwaitsCard s.state)
    (hkind : a.actionType = .cardReveal) (hgame : a.gameId = s.state.gameId)
    (hfresh : a.actionNonce ∉ s.seenNonces) (hgate : s.checkCardReveal a = .ok ()) :
    ∃ s', s.submit a height = .ok s' ∧ s'.transcript = s.transcript ++ [a] ∧
      (s.state.stateClass = .s5DeckCommitted → s'.state.stateClass = .s6CardRevealFirst) := by
  have hpass : s.verifyCrypto a = .ok () := by
    rw [verifyCrypto, hkind]
    exact hgate
  obtain ⟨next, hnext, hfirst⟩ :=
    @applyAction_cardReveal s.ruleSet _ _ height hawaits hkind hgame
  have hbind : bindDeck s.ruleSet s.state next = .ok next := by
    have hnot : ¬Unbound s.state next := by
      intro h
      obtain ⟨h4, _, _⟩ := h
      simp [AwaitsCard, h4] at hawaits
    rw [bindDeck, if_neg hnot]
  exact ⟨_, submit_eq_ok.mpr ⟨hfresh, hpass, next, next, hnext, hbind, rfl⟩, rfl, hfirst⟩

/-- A row of the deck opens its own commitment. -/
theorem verifyRevealProof_row (seed : List UInt8) {ordinal : Nat} (hord : ordinal ≤ 53) :
    verifyRevealProof (deckPosition seed 0 ordinal).commitment ordinal (deriveCardNonce seed 0)
      (deriveDeckNonce seed) = .ok true := by
  have hopen : commitCard ordinal (deriveCardNonce seed 0) (deriveDeckNonce seed) =
      .ok (cardCommitment ordinal (deriveCardNonce seed 0) (deriveDeckNonce seed)) :=
    commitCard_eq_ok hord (Sha256.length_sha256 _) (Sha256.length_sha256 _)
  rw [verifyRevealProof, hopen]
  simp [deckPosition]

/-- **The first position opens**: a complete deck has one, and its reveal
passes the gate. -/
theorem checkCardReveal_first (hdeck : DeckOf s.ruleSet (contributions s.state)
    s.state.combinedEntropy s.state.deckCommitmentHash) :
    ∃ reveal, ∀ a : SignedAction, a.reveal = reveal → s.checkCardReveal a = .ok () := by
  obtain ⟨_, entropies, seed, dc, _, _, _, hseed, hbuilt, hcombined, _⟩ := hdeck
  obtain ⟨_, hsize, hlen, deck, hshuffle, hdc⟩ := buildDeckCommitment_eq_ok_iff.mp hbuilt
  have hcount := length_of_shuffleDeck hshuffle
  have hords := ordinal_lt_of_shuffleDeck (by omega) hshuffle
  have hne : Hex.encode seed ≠ "" := by
    intro hempty
    rw [Hex.encode_eq_empty_iff.mp hempty] at hlen
    cases hlen
  -- what a reveal carries is the text of 32 bytes, which decodes
  have hdecode : ∀ {b : List UInt8}, b.length = 32 → decodeBytes32 (Hex.encode b) = some b :=
    fun hb => decodeBytes32_eq_some.mpr ⟨Hex.decode_encode _, hb⟩
  cases deck with
  | nil =>
      simp only [List.length_nil] at hcount
      omega
  | cons ordinal rest =>
      have hord : ordinal ≤ 53 := by
        have := hords ordinal (List.mem_cons_self ..)
        omega
      have hlisted : dc.perPosition[0]? = some (deckPosition seed 0 ordinal) := by
        rw [hdc]
        rfl
      have hcard : decodeBytes32 (Hex.encode (deriveCardNonce seed 0)) =
          some (deriveCardNonce seed 0) := hdecode (Sha256.length_sha256 _)
      have hnonce : decodeBytes32 (Hex.encode (deriveDeckNonce seed)) =
          some (deriveDeckNonce seed) := hdecode (Sha256.length_sha256 _)
      refine ⟨⟨0, ⟨"", "", ordinal⟩, Hex.encode (deriveCardNonce seed 0),
        Hex.encode (deriveDeckNonce seed)⟩, ?_⟩
      intro a ha
      simp only [checkCardReveal, ha, hcombined, if_neg hne, hdecode hlen, hbuilt]
      simp [hlisted, hcard, hnonce, verifyRevealProof_row seed hord]

/-- A reveal and nothing else. -/
def revealAction (gameId nonce : String) (reveal : RevealProof) : SignedAction :=
  { bareAction gameId .cardReveal none with actionNonce := nonce, reveal := reveal }

end CardTable.Go.Session
