import CardTable.Ts.Engine
import CardTable.Basis.Run

/-!
# Ts.Steps — what an accepted action does

`Accepts ruleSet height state action state'` has one constructor for
each branch of `applyAction` that returns `ok`, with the branch's guards
and its successor. `accepts_of_applyAction` is the only place where the
handlers are unfolded for their successes; the invariants of runs are
case analyses on `Accepts`.
-/

namespace CardTable.Ts

open Basis

/-- The accepted transitions of `applyAction`. -/
inductive Accepts (ruleSet : RuleSet) (height : SafeNat) (state : RoundState) :
    SignedAction → RoundState → Prop where
  | join {a : JoinAction} {seat : SafeNat} :
      state.stateClass = .s1SeatOpen →
      a.stakeAmount = ruleSet.stakeAmount.val →
      (state.players.length : Int) < ruleSet.playerCountMax →
      (seat.val : Int) = a.actingPlayerSeat.getD state.players.length →
      seat ∉ state.players.map (·.seat) →
      Accepts ruleSet height state (.join a) { state with
        players := state.players ++ [joinedPlayer a seat ruleSet.stakeAmount]
        priorStateHash := some state.stateHash }
  | tableLock {a : SignedActionBase} :
      state.stateClass = .s1SeatOpen →
      ruleSet.playerCountMin ≤ (state.players.length : Int) →
      Accepts ruleSet height state (.tableLock a) (state.advance .s3EntropyCommitWindow)
  | entropyCommit {a : EntropyCommitAction} {seat : Int} {idx : Nat} {p : PlayerState}
      {next : StateClass} :
      state.stateClass = .s3EntropyCommitWindow →
      findSeat state.players seat = some (idx, p) →
      next = .s3EntropyCommitWindow ∨ next = .s4EntropyRevealWindow →
      Accepts ruleSet height state (.entropyCommit a) { state.advance next with
        players := state.players.set idx { p with
          entropyCommitted := true
          entropyCommitmentHash := some a.commitmentHash } }
  | entropyReveal {a : EntropyRevealAction} {seat : Int} {idx : Nat} {p : PlayerState}
      {next : StateClass} :
      state.stateClass = .s4EntropyRevealWindow →
      findSeat state.players seat = some (idx, p) →
      next = .s4EntropyRevealWindow ∨ next = .s5DeckCommitted →
      Accepts ruleSet height state (.entropyReveal a) { state.advance next with
        players := state.players.set idx { p with
          entropyRevealed := true
          entropyValue := some a.entropy
          participationStatus := .active } }
  | firstCard {a : CardRevealAction} :
      state.stateClass = .s5DeckCommitted →
      Accepts ruleSet height state (.cardReveal a) { state.advance .s6CardRevealFirst with
        visibleCards := state.visibleCards ++ [a.reveal.revealedCard] }
  | secondCard {a : CardRevealAction} :
      state.stateClass = .s6CardRevealFirst →
      Accepts ruleSet height state (.cardReveal a) { state.advance .s8BetDecision with
        visibleCards := state.visibleCards ++ [a.reveal.revealedCard]
        actingPlayerSeat := state.actingPlayerSeat.or (state.players.head?.map (·.seat)) }
  | thirdCard {a : CardRevealAction} :
      state.stateClass = .s9CardRevealThird →
      Accepts ruleSet height state (.cardReveal a) { state.advance .s10SettledRound with
        visibleCards := state.visibleCards ++ [a.reveal.revealedCard] }
  | dealConcealed {a : DealConcealedAction} :
      state.stateClass = .s5DeckCommitted →
      Accepts ruleSet height state (.dealConcealed a) { state with
        concealedDeck := some a.concealedCards
        priorStateHash := some state.stateHash }
  | bet {a : BetAction} {pot : SafeNat} :
      state.stateClass = .s8BetDecision →
      ruleSet.minBet.val ≤ a.betAmount → a.betAmount ≤ ruleSet.maxBet.val →
      (pot.val : Int) = state.potValue.val + a.betAmount →
      Accepts ruleSet height state (.betAction a)
        { state.advance .s9CardRevealThird with potValue := pot }
  | pass {a : SignedActionBase} :
      state.stateClass = .s8BetDecision →
      Accepts ruleSet height state (.pass a) (state.advance .s11RotateTurn)
  | fold {a : SignedActionBase} {seat : Int} {deck : List ConcealedCard} {idx : Nat}
      {p : PlayerState} :
      state.stateClass = .s8BetDecision ∨ state.stateClass = .s7CardRevealSecond →
      a.actingPlayerSeat = some seat →
      state.concealedDeck = some deck →
      findSeat state.players seat = some (idx, p) →
      Accepts ruleSet height state (.fold a) { state.advance .s11RotateTurn with
        players := state.players.set idx { p with participationStatus := .folded }
        concealedDeck := some (deck.map (surrender p.valueSigningPubkey)) }
  | settle {a : SignedActionBase} {acting : SafeNat} {cls : ClassifyResult}
      {transfer : ValueTransfer} {pot : SafeNat} {players : List PlayerState} :
      state.stateClass = .s10SettledRound →
      state.visibleCards.length = 3 →
      state.actingPlayerSeat = some acting →
      classifyInBetweenRound state.visibleCards = .ok cls →
      transfer = computeValueTransfer cls.outcome state.potValue ruleSet.settlementRules →
      (pot.val : Int) = state.potValue.val + transfer.potDelta →
      settlePlayers acting transfer.playerDelta state.players = .ok players →
      Accepts ruleSet height state (.settle a)
        { state.advance .s11RotateTurn with potValue := pot, players := players }
  | rotate {a : SignedActionBase} {firstSeat nextSeat round : SafeNat} {rest : List SafeNat} :
      state.stateClass = .s11RotateTurn →
      sortedSeats state.players = firstSeat :: rest →
      nextSeat = seatAfter (firstSeat :: rest) firstSeat state.actingPlayerSeat →
      ¬(state.actingPlayerSeat ≠ none ∧ nextSeat = firstSeat) →
      (round.val : Int) = state.roundNumber.val + 1 →
      Accepts ruleSet height state (.rotateTurn a) { state.advance .s6CardRevealFirst with
        roundNumber := round
        actingPlayerSeat := some nextSeat
        visibleCards := [] }
  | finish {a : SignedActionBase} {firstSeat : SafeNat} {rest : List SafeNat} :
      state.stateClass = .s11RotateTurn →
      sortedSeats state.players = firstSeat :: rest →
      state.actingPlayerSeat ≠ none →
      seatAfter (firstSeat :: rest) firstSeat state.actingPlayerSeat = firstSeat →
      Accepts ruleSet height state (.rotateTurn a) (state.advance .s12TableClose)
  | tableClose {a : SignedActionBase} :
      state.stateClass = .s12TableClose →
      Accepts ruleSet height state (.tableClose a)
        { state with allowedActions := [], priorStateHash := some state.stateHash }
  | timeout {a : TimeoutAction} :
      state.stateClass = .s8BetDecision →
      Accepts ruleSet height state (.timeout a) (state.advance .s11RotateTurn)
  | recovery {a : RecoveryAction} {deadline : SafeNat} :
      state.recoveryDeadlineBlockHeight = some deadline →
      deadline.val ≤ height.val →
      Accepts ruleSet height state (.recovery a) { state with
        stateClass := .recovered
        allowedActions := []
        priorStateHash := some state.stateHash }

variable {ruleSet : RuleSet} {height : SafeNat} {state state' : RoundState}

/-! ## One lemma for each handler -/

private theorem accepts_join {a : JoinAction} (h : applyJoin state a ruleSet = .ok state') :
    Accepts ruleSet height state (.join a) state' := by
  unfold applyJoin at h
  split at h
  · cases h
  · rename_i hclass
    split at h
    · cases h
    · rename_i hstake
      split at h
      · cases h
      · rename_i hfull
        obtain ⟨seat, hseat, h⟩ := Outcome.bind_eq_ok.mp h
        split at h
        · cases h
        · rename_i hfree
          cases h
          refine .join (Decidable.not_not.mp hclass) (Decidable.not_not.mp hstake) (by omega)
            (asSafeNat_eq_ok.mp hseat) ?_
          simpa [List.any_eq_true, List.mem_map] using hfree

private theorem accepts_tableLock {a : SignedActionBase}
    (h : applyTableLock state ruleSet = .ok state') :
    Accepts ruleSet height state (.tableLock a) state' := by
  unfold applyTableLock at h
  split at h
  · cases h
  · rename_i hclass
    split at h
    · cases h
    · rename_i hmin
      cases h
      exact .tableLock (Decidable.not_not.mp hclass) (by omega)

/-- What an accepted commitment does: the first of its seat. -/
theorem applyEntropyCommit_eq_ok {a : EntropyCommitAction}
    (h : applyEntropyCommit state a = .ok state') :
    state.stateClass = .s3EntropyCommitWindow ∧ ∃ seat idx p players,
      findSeat state.players seat = some (idx, p) ∧ p.entropyCommitted = false ∧
      players = state.players.set idx { p with
        entropyCommitted := true, entropyCommitmentHash := some a.commitmentHash } ∧
      state' = { state.advance (if players.all (·.entropyCommitted)
        then .s4EntropyRevealWindow else .s3EntropyCommitWindow) with players := players } := by
  unfold applyEntropyCommit at h
  split at h
  · cases h
  · rename_i hclass
    split at h
    · cases h
    · split at h
      · cases h
      · rename_i hfind
        split at h
        · cases h
        · rename_i hfresh
          cases h
          exact ⟨Decidable.not_not.mp hclass, _, _, _, _, hfind, by simpa using hfresh, rfl, rfl⟩

/-- What an accepted reveal does: the first of its seat. -/
theorem applyEntropyReveal_eq_ok {a : EntropyRevealAction}
    (h : applyEntropyReveal state a = .ok state') :
    state.stateClass = .s4EntropyRevealWindow ∧ ∃ seat idx p players,
      findSeat state.players seat = some (idx, p) ∧ p.entropyRevealed = false ∧
      players = state.players.set idx { p with
        entropyRevealed := true, entropyValue := some a.entropy
        participationStatus := .active } ∧
      state' = { state.advance (if players.all (·.entropyRevealed)
        then .s5DeckCommitted else .s4EntropyRevealWindow) with players := players } := by
  unfold applyEntropyReveal at h
  split at h
  · cases h
  · rename_i hclass
    split at h
    · cases h
    · split at h
      · cases h
      · rename_i hfind
        split at h
        · cases h
        · split at h
          · cases h
          · rename_i hfresh
            cases h
            exact ⟨Decidable.not_not.mp hclass, _, _, _, _, hfind, by simpa using hfresh, rfl, rfl⟩

private theorem accepts_entropyCommit {a : EntropyCommitAction}
    (h : applyEntropyCommit state a = .ok state') :
    Accepts ruleSet height state (.entropyCommit a) state' := by
  obtain ⟨hclass, seat, idx, p, players, hfind, -, rfl, rfl⟩ := applyEntropyCommit_eq_ok h
  refine .entropyCommit hclass hfind ?_
  split
  · exact .inr rfl
  · exact .inl rfl

private theorem accepts_entropyReveal {a : EntropyRevealAction}
    (h : applyEntropyReveal state a = .ok state') :
    Accepts ruleSet height state (.entropyReveal a) state' := by
  obtain ⟨hclass, seat, idx, p, players, hfind, -, rfl, rfl⟩ := applyEntropyReveal_eq_ok h
  refine .entropyReveal hclass hfind ?_
  split
  · exact .inr rfl
  · exact .inl rfl

private theorem accepts_cardReveal {a : CardRevealAction}
    (h : applyCardReveal state a = .ok state') :
    Accepts ruleSet height state (.cardReveal a) state' := by
  unfold applyCardReveal at h
  split at h
  · rename_i hclass
    cases h
    exact .firstCard hclass
  · rename_i hclass
    cases h
    have : Accepts ruleSet height state (.cardReveal a) _ := .secondCard hclass
    cases hacting : state.actingPlayerSeat with
    | none => simpa [hacting] using this
    | some seat => simpa [hacting] using this
  · rename_i hclass
    cases h
    exact .thirdCard hclass
  · cases h

private theorem accepts_dealConcealed {a : DealConcealedAction}
    (h : applyDealConcealed state a ruleSet = .ok state') :
    Accepts ruleSet height state (.dealConcealed a) state' := by
  unfold applyDealConcealed at h
  split at h
  · cases h
  · rename_i hclass
    split at h
    · cases h
    · split at h
      · cases h
      · split at h
        · cases h
        · cases h
          exact .dealConcealed (Decidable.not_not.mp hclass)

/-- `addToPot` gives the exact sum or throws. -/
theorem addToPot_cases (pot : SafeNat) (delta : Int) :
    (∃ next, addToPot pot delta = .ok next ∧ (next.val : Int) = pot.val + delta) ∨
      (∃ k, addToPot pot delta = .halt k ∧
        (pot.val + delta < 0 ∨ (maxSafeInteger : Int) < pot.val + delta)) := by
  simp only [addToPot]
  split
  · rename_i hunsafe
    have hnone := SafeNat.not_safe_or_neg_iff.mp (.inl hunsafe)
    rw [SafeNat.ofInt?_toDouble] at hnone
    exact .inr ⟨_, rfl, SafeNat.ofInt?_eq_none.mp hnone⟩
  · exact asSafeNat_toDouble_cases _ _

private theorem accepts_bet {a : BetAction} (h : applyBet state a ruleSet = .ok state') :
    Accepts ruleSet height state (.betAction a) state' := by
  unfold applyBet at h
  split at h
  · cases h
  · rename_i hclass
    split at h
    · cases h
    · rename_i hrange
      obtain ⟨pot, hpot, h⟩ := Outcome.bind_eq_ok.mp h
      cases h
      refine .bet (Decidable.not_not.mp hclass) (by omega) (by omega) ?_
      rcases addToPot_cases state.potValue a.betAmount with ⟨next, hnext, hsum⟩ | ⟨k, hk, _⟩
      · rw [hnext] at hpot
        cases hpot
        exact hsum
      · rw [hk] at hpot
        cases hpot

private theorem accepts_pass {a : SignedActionBase} (h : applyPass state = .ok state') :
    Accepts ruleSet height state (.pass a) state' := by
  unfold applyPass at h
  split at h
  · cases h
  · rename_i hclass
    cases h
    exact .pass (Decidable.not_not.mp hclass)

private theorem accepts_fold {a : SignedActionBase} (h : applyFold state a = .ok state') :
    Accepts ruleSet height state (.fold a) state' := by
  unfold applyFold at h
  split at h
  · cases h
  · rename_i hclass
    split at h
    · cases h
    · rename_i seat hseat
      split at h
      · cases h
      · rename_i deck hdeck
        split at h
        · cases h
        · rename_i hfind
          simp only at h
          split at h
          · cases h
          · cases h
            refine .fold ?_ hseat hdeck hfind
            rcases Decidable.not_and_iff_not_or_not.mp hclass with h8 | h7
            · exact .inl (Decidable.not_not.mp h8)
            · exact .inr (Decidable.not_not.mp h7)

private theorem accepts_settle {a : SignedActionBase}
    (h : applySettle state ruleSet = .ok state') :
    Accepts ruleSet height state (.settle a) state' := by
  unfold applySettle at h
  split at h
  · cases h
  · rename_i hclass
    split at h
    · cases h
    · rename_i hshown
      split at h
      · cases h
      · rename_i acting hacting
        obtain ⟨cls, hcls, h⟩ := Outcome.bind_eq_ok.mp h
        simp only at h
        split at h
        · cases h
        · rename_i hsafe
          obtain ⟨players, hplayers, h⟩ := Outcome.bind_eq_ok.mp h
          obtain ⟨pot, hpot, h⟩ := Outcome.bind_eq_ok.mp h
          cases h
          refine .settle (Decidable.not_not.mp hclass) (Decidable.not_not.mp hshown) hacting hcls
            rfl ?_ hplayers
          rw [asSatoshis, asSafeNat_eq_ok, ← SafeNat.ofInt?_eq_some,
            SafeNat.ofInt?_toDouble] at hpot
          exact SafeNat.ofInt?_eq_some.mp hpot

private theorem accepts_rotateTurn {a : SignedActionBase}
    (h : applyRotateTurn state = .ok state') :
    Accepts ruleSet height state (.rotateTurn a) state' := by
  unfold applyRotateTurn at h
  split at h
  · cases h
  · rename_i hclass
    have hclass := Decidable.not_not.mp hclass
    simp only at h
    split at h
    · cases h
    · rename_i firstSeat rest hseats
      rw [hseats] at h
      split at h
      · rename_i hwrap
        cases h
        exact .finish hclass hseats hwrap.1 hwrap.2
      · rename_i hwrap
        obtain ⟨round, hround, h⟩ := Outcome.bind_eq_ok.mp h
        cases h
        rw [asRoundNumber, asSafeNat_eq_ok, ← SafeNat.ofInt?_eq_some,
          SafeNat.ofInt?_toDouble] at hround
        exact .rotate hclass hseats rfl hwrap (SafeNat.ofInt?_eq_some.mp hround)

private theorem accepts_tableClose {a : SignedActionBase}
    (h : applyTableClose state = .ok state') :
    Accepts ruleSet height state (.tableClose a) state' := by
  unfold applyTableClose at h
  split at h
  · cases h
  · rename_i hclass
    cases h
    exact .tableClose (Decidable.not_not.mp hclass)

private theorem accepts_timeout {a : TimeoutAction}
    (h : applyTimeout state height = .ok state') :
    Accepts ruleSet height state (.timeout a) state' := by
  unfold applyTimeout at h
  split at h
  · cases h
  · rename_i hclass
    split at h
    · cases h
    · split at h
      · cases h
      · cases h
        exact .timeout (Decidable.not_not.mp hclass)

private theorem accepts_recovery {a : RecoveryAction}
    (h : applyRecovery state height = .ok state') :
    Accepts ruleSet height state (.recovery a) state' := by
  unfold applyRecovery at h
  split at h
  · cases h
  · rename_i deadline hdeadline
    split at h
    · cases h
    · cases h
      exact .recovery hdeadline (by omega)

/-- **Inversion of `applyAction`**: an accepted action is one of the
transitions above, and belongs to the state's game. -/
theorem accepts_of_applyAction {action : SignedAction}
    (h : applyAction state action ruleSet height = .ok state') :
    action.base.gameId = state.gameId ∧ Accepts ruleSet height state action state' := by
  unfold applyAction at h
  split at h
  · cases h
  · rename_i hgame
    refine ⟨Decidable.not_not.mp hgame, ?_⟩
    split at h
    · cases h
    · cases action with
      | join a => exact accepts_join h
      | tableLock a => exact accepts_tableLock h
      | entropyCommit a => exact accepts_entropyCommit h
      | entropyReveal a => exact accepts_entropyReveal h
      | cardReveal a => exact accepts_cardReveal h
      | dealConcealed a => exact accepts_dealConcealed h
      | betAction a => exact accepts_bet h
      | pass a => exact accepts_pass h
      | fold a => exact accepts_fold h
      | settle a => exact accepts_settle h
      | rotateTurn a => exact accepts_rotateTurn h
      | tableClose a => exact accepts_tableClose h
      | timeout a => exact accepts_timeout h
      | recovery a => exact accepts_recovery h

/-- No action touches the deck commitment or the recovery deadline. -/
theorem Accepts.keepsDeck {action : SignedAction} (h : Accepts ruleSet height state action state') :
    state'.combinedEntropy = state.combinedEntropy ∧
      state'.recoveryDeadlineBlockHeight = state.recoveryDeadlineBlockHeight := by
  cases h with
  | _ => exact ⟨rfl, rfl⟩

/-- No action touches the game or a deadline. -/
theorem Accepts.keepsIdentity {action : SignedAction}
    (h : Accepts ruleSet height state action state') :
    state'.gameId = state.gameId ∧
      state'.recoveryDeadlineBlockHeight = state.recoveryDeadlineBlockHeight ∧
      state'.decisionDeadlineBlockHeight = state.decisionDeadlineBlockHeight := by
  cases h with
  | _ => exact ⟨rfl, rfl, rfl⟩

end CardTable.Ts
