import CardTable.Go.Engine
import CardTable.Basis.Run

/-!
# Go.Steps — what an accepted action does

The counterpart of `Ts.Steps`: one constructor of `Accepts` for each
branch of `applyAction` that returns without an error. A Go action is one
record for every variant, so each constructor says which type it is of.
-/

namespace CardTable.Go

/-- The accepted transitions of `applyAction`. -/
inductive Accepts (ruleSet : RuleSet) (height : UInt32) (state : RoundState)
    (a : SignedAction) : RoundState → Prop where
  | join {seat : Int} :
      a.actionType = .join →
      state.stateClass = .s1SeatOpen →
      a.stakeAmount = ruleSet.stakeAmount →
      (state.players.length : Int) < ruleSet.playerCountMax →
      seat = a.actingPlayerSeat.getD state.players.length →
      seat ∉ state.players.map (·.seat) →
      Accepts ruleSet height state a { state with
        players := state.players ++ [joinedPlayer a seat]
        priorStateHash := some state.stateHash }
  | tableLock :
      a.actionType = .tableLock →
      state.stateClass = .s1SeatOpen →
      ruleSet.playerCountMin ≤ (state.players.length : Int) →
      Accepts ruleSet height state a (state.advance .s3EntropyCommitWindow)
  | entropyCommit {seat : Int} {idx : Nat} {p : PlayerState} {next : StateClass} :
      a.actionType = .entropyCommit →
      state.stateClass = .s3EntropyCommitWindow →
      a.actingPlayerSeat = some seat →
      findSeat state.players seat = some (idx, p) →
      next = .s3EntropyCommitWindow ∨ next = .s4EntropyRevealWindow →
      Accepts ruleSet height state a { state.advance next with
        players := state.players.set idx { p with
          entropyCommitted := true
          entropyCommitmentHash := a.commitmentHash } }
  | entropyReveal {seat : Int} {idx : Nat} {p : PlayerState} {players : List PlayerState}
      {next : StateClass} :
      a.actionType = .entropyReveal →
      state.stateClass = .s4EntropyRevealWindow →
      a.actingPlayerSeat = some seat →
      findSeat state.players seat = some (idx, p) →
      players = state.players.set idx { p with
        entropyRevealed := true
        entropyValue := a.entropy
        participationStatus := .active } →
      next = (if players.all (·.entropyRevealed)
        then .s5DeckCommitted else .s4EntropyRevealWindow) →
      Accepts ruleSet height state a { state.advance next with players := players }
  | firstCard :
      a.actionType = .cardReveal →
      state.stateClass = .s5DeckCommitted →
      Accepts ruleSet height state a { state.advance .s6CardRevealFirst with
        visibleCards := state.visibleCards ++ [a.reveal.revealedCard] }
  | secondCard :
      a.actionType = .cardReveal →
      state.stateClass = .s6CardRevealFirst →
      Accepts ruleSet height state a { state.advance .s8BetDecision with
        visibleCards := state.visibleCards ++ [a.reveal.revealedCard]
        actingPlayerSeat := state.actingPlayerSeat.or (state.players.head?.map (·.seat)) }
  | thirdCard :
      a.actionType = .cardReveal →
      state.stateClass = .s9CardRevealThird →
      Accepts ruleSet height state a { state.advance .s10SettledRound with
        visibleCards := state.visibleCards ++ [a.reveal.revealedCard] }
  | dealConcealed :
      a.actionType = .dealConcealed →
      state.stateClass = .s5DeckCommitted →
      sliceLen state.concealedDeck = 0 →
      (a.concealedCards.length : Int) = ruleSet.deckFormat →
      checkPositions ruleSet.deckFormat [] a.concealedCards = none →
      Accepts ruleSet height state a { state with
        concealedDeck := some a.concealedCards
        priorStateHash := some state.stateHash }
  | bet :
      a.actionType = .betAction →
      state.stateClass = .s8BetDecision →
      ruleSet.minBet ≤ a.betAmount → a.betAmount ≤ ruleSet.maxBet →
      Accepts ruleSet height state a
        { state.advance .s9CardRevealThird with potValue := state.potValue + a.betAmount }
  | pass :
      a.actionType = .pass →
      state.stateClass = .s8BetDecision →
      Accepts ruleSet height state a (state.advance .s11RotateTurn)
  | fold {seat : Int} {idx : Nat} {p : PlayerState} :
      a.actionType = .fold →
      state.stateClass = .s8BetDecision ∨ state.stateClass = .s7CardRevealSecond →
      a.actingPlayerSeat = some seat →
      findSeat state.players seat = some (idx, p) →
      0 < sliceLen state.concealedDeck →
      Accepts ruleSet height state a { state.advance .s11RotateTurn with
        players := state.players.set idx { p with participationStatus := .folded }
        concealedDeck := some ((state.concealedDeck.getD []).map (surrender p.valueSigningPubkey)) }
  | settle {acting : Int} {cls : ClassifyResult} {transfer : ValueTransfer}
      {players : List PlayerState} :
      a.actionType = .settle →
      state.stateClass = .s10SettledRound →
      state.visibleCards.length = 3 →
      state.actingPlayerSeat = some acting →
      classifyInBetweenRound state.visibleCards = .ok cls →
      transfer = computeValueTransfer cls.outcome state.potValue ruleSet.settlementRules →
      ¬state.potValue.toInt64 + transfer.potDelta < 0 →
      settlePlayers acting transfer.playerDelta state.players = .ok players →
      Accepts ruleSet height state a { state.advance .s11RotateTurn with
        potValue := (state.potValue.toInt64 + transfer.potDelta).toUInt64
        players := players }
  | rotate {firstSeat nextSeat : Int} {rest : List Int} :
      a.actionType = .rotateTurn →
      state.stateClass = .s11RotateTurn →
      sortSeats (state.players.map (·.seat)) = firstSeat :: rest →
      nextSeat = seatAfter (firstSeat :: rest) firstSeat state.actingPlayerSeat →
      ¬(state.actingPlayerSeat ≠ none ∧ nextSeat = firstSeat) →
      Accepts ruleSet height state a { state.advance .s6CardRevealFirst with
        roundNumber := state.roundNumber + 1
        actingPlayerSeat := some nextSeat
        visibleCards := [] }
  | finish {firstSeat : Int} {rest : List Int} :
      a.actionType = .rotateTurn →
      state.stateClass = .s11RotateTurn →
      sortSeats (state.players.map (·.seat)) = firstSeat :: rest →
      state.actingPlayerSeat ≠ none →
      seatAfter (firstSeat :: rest) firstSeat state.actingPlayerSeat = firstSeat →
      Accepts ruleSet height state a (state.advance .s12TableClose)
  | tableClose :
      a.actionType = .tableClose →
      state.stateClass = .s12TableClose →
      Accepts ruleSet height state a
        { state with allowedActions := [], priorStateHash := some state.stateHash }
  | timeout {deadline : UInt32} :
      a.actionType = .timeout →
      state.stateClass = .s8BetDecision →
      state.decisionDeadlineBlockHeight = some deadline →
      Accepts ruleSet height state a (state.advance .s11RotateTurn)
  | recovery {deadline : UInt32} :
      a.actionType = .recovery →
      state.recoveryDeadlineBlockHeight = some deadline →
      ¬height < deadline →
      Accepts ruleSet height state a { state with
        stateClass := .recovered
        allowedActions := []
        priorStateHash := some state.stateHash }

variable {ruleSet : RuleSet} {height : UInt32} {state state' : RoundState} {a : SignedAction}

/-! ## One lemma for each handler -/

private theorem accepts_join (hkind : a.actionType = .join)
    (h : applyJoin state a ruleSet = .ok state') : Accepts ruleSet height state a state' := by
  simp only [applyJoin] at h
  split at h
  · cases h
  · rename_i hclass
    split at h
    · cases h
    · rename_i hstake
      split at h
      · cases h
      · rename_i hfull
        split at h
        · cases h
        · rename_i hfree
          cases h
          refine .join hkind (Decidable.not_not.mp hclass) (Decidable.not_not.mp hstake)
            (by omega) rfl ?_
          simpa [List.any_eq_true, List.mem_map] using hfree

private theorem accepts_tableLock (hkind : a.actionType = .tableLock)
    (h : applyTableLock state ruleSet = .ok state') : Accepts ruleSet height state a state' := by
  simp only [applyTableLock] at h
  split at h
  · cases h
  · rename_i hclass
    split at h
    · cases h
    · rename_i hmin
      cases h
      exact .tableLock hkind (Decidable.not_not.mp hclass) (by omega)

/-- What an accepted commitment does: the first of its seat. -/
theorem applyEntropyCommit_eq_ok (h : applyEntropyCommit state a = .ok state') :
    state.stateClass = .s3EntropyCommitWindow ∧ ∃ seat idx p players,
      a.actingPlayerSeat = some seat ∧ findSeat state.players seat = some (idx, p) ∧
      p.entropyCommitted = false ∧
      players = state.players.set idx { p with
        entropyCommitted := true, entropyCommitmentHash := a.commitmentHash } ∧
      state' = { state.advance (if players.all (·.entropyCommitted)
        then .s4EntropyRevealWindow else .s3EntropyCommitWindow) with players := players } := by
  unfold applyEntropyCommit at h
  split at h
  · cases h
  · rename_i hclass
    split at h
    · cases h
    · rename_i hseat
      split at h
      · cases h
      · rename_i hfind
        split at h
        · cases h
        · rename_i hfresh
          cases h
          exact ⟨Decidable.not_not.mp hclass, _, _, _, _, hseat, hfind, by simpa using hfresh,
            rfl, rfl⟩

/-- What an accepted reveal does: the first of its seat. -/
theorem applyEntropyReveal_eq_ok (h : applyEntropyReveal state a = .ok state') :
    state.stateClass = .s4EntropyRevealWindow ∧ ∃ seat idx p players,
      a.actingPlayerSeat = some seat ∧ findSeat state.players seat = some (idx, p) ∧
      p.entropyRevealed = false ∧
      players = state.players.set idx { p with
        entropyRevealed := true, entropyValue := a.entropy, participationStatus := .active } ∧
      state' = { state.advance (if players.all (·.entropyRevealed)
        then .s5DeckCommitted else .s4EntropyRevealWindow) with players := players } := by
  unfold applyEntropyReveal at h
  split at h
  · cases h
  · rename_i hclass
    split at h
    · cases h
    · rename_i hseat
      split at h
      · cases h
      · rename_i hfind
        split at h
        · cases h
        · split at h
          · cases h
          · rename_i hfresh
            cases h
            exact ⟨Decidable.not_not.mp hclass, _, _, _, _, hseat, hfind, by simpa using hfresh,
              rfl, rfl⟩

private theorem accepts_entropyCommit (hkind : a.actionType = .entropyCommit)
    (h : applyEntropyCommit state a = .ok state') : Accepts ruleSet height state a state' := by
  obtain ⟨hclass, seat, idx, p, players, hseat, hfind, -, rfl, rfl⟩ := applyEntropyCommit_eq_ok h
  refine .entropyCommit hkind hclass hseat hfind ?_
  split
  · exact .inr rfl
  · exact .inl rfl

private theorem accepts_entropyReveal (hkind : a.actionType = .entropyReveal)
    (h : applyEntropyReveal state a = .ok state') : Accepts ruleSet height state a state' := by
  obtain ⟨hclass, seat, idx, p, players, hseat, hfind, -, hset, rfl⟩ := applyEntropyReveal_eq_ok h
  exact .entropyReveal hkind hclass hseat hfind hset rfl

private theorem accepts_cardReveal (hkind : a.actionType = .cardReveal)
    (h : applyCardReveal state a = .ok state') : Accepts ruleSet height state a state' := by
  simp only [applyCardReveal] at h
  split at h
  · rename_i hclass
    cases h
    exact .firstCard hkind hclass
  · rename_i hclass
    cases h
    have : Accepts ruleSet height state a _ := .secondCard hkind hclass
    cases hacting : state.actingPlayerSeat with
    | none => simpa [hacting] using this
    | some seat => simpa [hacting] using this
  · rename_i hclass
    cases h
    exact .thirdCard hkind hclass
  · cases h

private theorem accepts_dealConcealed (hkind : a.actionType = .dealConcealed)
    (h : applyDealConcealed state a ruleSet = .ok state') :
    Accepts ruleSet height state a state' := by
  simp only [applyDealConcealed] at h
  split at h
  · cases h
  · rename_i hclass
    split at h
    · cases h
    · rename_i hdealt
      split at h
      · cases h
      · rename_i hcount
        split at h
        · cases h
        · rename_i hpositions
          cases h
          exact .dealConcealed hkind (Decidable.not_not.mp hclass) (by omega)
            (Decidable.not_not.mp hcount) hpositions

private theorem accepts_bet (hkind : a.actionType = .betAction)
    (h : applyBet state a ruleSet = .ok state') : Accepts ruleSet height state a state' := by
  simp only [applyBet, addToPot] at h
  split at h
  · cases h
  · rename_i hclass
    split at h
    · cases h
    · rename_i hrange
      rw [not_or, UInt64.not_lt, UInt64.not_lt] at hrange
      split at h
      · cases h
      · rename_i pot hpot
        split at hpot
        · cases hpot
        · cases hpot
          cases h
          exact .bet hkind (Decidable.not_not.mp hclass) hrange.1 hrange.2

private theorem accepts_pass (hkind : a.actionType = .pass)
    (h : applyPass state = .ok state') : Accepts ruleSet height state a state' := by
  simp only [applyPass] at h
  split at h
  · cases h
  · rename_i hclass
    cases h
    exact .pass hkind (Decidable.not_not.mp hclass)

private theorem accepts_fold (hkind : a.actionType = .fold)
    (h : applyFold state a = .ok state') : Accepts ruleSet height state a state' := by
  simp only [applyFold] at h
  split at h
  · cases h
  · rename_i hclass
    split at h
    · cases h
    · rename_i hseat
      split at h
      · cases h
      · rename_i hdeck
        split at h
        · cases h
        · rename_i hfind
          split at h
          · cases h
          · cases h
            refine .fold hkind ?_ hseat hfind (by omega)
            rcases Decidable.not_and_iff_not_or_not.mp hclass with h8 | h7
            · exact .inl (Decidable.not_not.mp h8)
            · exact .inr (Decidable.not_not.mp h7)

private theorem accepts_settle (hkind : a.actionType = .settle)
    (h : applySettle state ruleSet = .ok state') : Accepts ruleSet height state a state' := by
  simp only [applySettle] at h
  split at h
  · cases h
  · rename_i hclass
    split at h
    · cases h
    · rename_i hshown
      split at h
      · cases h
      · rename_i acting hacting
        split at h
        · cases h
        · rename_i cls hcls
          split at h
          · cases h
          · rename_i hpot
            split at h
            · cases h
            · rename_i players hplayers
              cases h
              exact .settle hkind (Decidable.not_not.mp hclass) (Decidable.not_not.mp hshown)
                hacting hcls rfl hpot hplayers

private theorem accepts_rotateTurn (hkind : a.actionType = .rotateTurn)
    (h : applyRotateTurn state = .ok state') : Accepts ruleSet height state a state' := by
  simp only [applyRotateTurn] at h
  split at h
  · cases h
  · rename_i hclass
    have hclass := Decidable.not_not.mp hclass
    split at h
    · cases h
    · rename_i firstSeat rest hseats
      rw [hseats] at h
      split at h
      · rename_i hwrap
        cases h
        exact .finish hkind hclass hseats hwrap.1 hwrap.2
      · rename_i hwrap
        cases h
        exact .rotate hkind hclass hseats rfl hwrap

private theorem accepts_tableClose (hkind : a.actionType = .tableClose)
    (h : applyTableClose state = .ok state') : Accepts ruleSet height state a state' := by
  simp only [applyTableClose] at h
  split at h
  · cases h
  · rename_i hclass
    cases h
    exact .tableClose hkind (Decidable.not_not.mp hclass)

private theorem accepts_timeout (hkind : a.actionType = .timeout)
    (h : applyTimeout state height = .ok state') : Accepts ruleSet height state a state' := by
  simp only [applyTimeout] at h
  split at h
  · cases h
  · rename_i hclass
    split at h
    · cases h
    · rename_i hdeadline
      split at h
      · cases h
      · cases h
        exact .timeout hkind (Decidable.not_not.mp hclass) hdeadline

private theorem accepts_recovery (hkind : a.actionType = .recovery)
    (h : applyRecovery state height = .ok state') : Accepts ruleSet height state a state' := by
  simp only [applyRecovery] at h
  split at h
  · cases h
  · rename_i hdeadline
    split at h
    · cases h
    · rename_i hmature
      cases h
      exact .recovery hkind hdeadline hmature

/-- **Inversion of `applyAction`**: an accepted action is one of the
transitions above, and belongs to the state's game. -/
theorem accepts_of_applyAction (h : applyAction state a ruleSet height = .ok state') :
    a.gameId = state.gameId ∧ Accepts ruleSet height state a state' := by
  simp only [applyAction] at h
  split at h
  · cases h
  · rename_i hgame
    refine ⟨Decidable.not_not.mp hgame, ?_⟩
    split at h
    · cases h
    · split at h
      · rename_i hkind; exact accepts_join hkind h
      · rename_i hkind; exact accepts_tableLock hkind h
      · rename_i hkind; exact accepts_entropyCommit hkind h
      · rename_i hkind; exact accepts_entropyReveal hkind h
      · rename_i hkind; exact accepts_cardReveal hkind h
      · rename_i hkind; exact accepts_dealConcealed hkind h
      · rename_i hkind; exact accepts_bet hkind h
      · rename_i hkind; exact accepts_pass hkind h
      · rename_i hkind; exact accepts_fold hkind h
      · rename_i hkind; exact accepts_settle hkind h
      · rename_i hkind; exact accepts_rotateTurn hkind h
      · rename_i hkind; exact accepts_tableClose hkind h
      · rename_i hkind; exact accepts_timeout hkind h
      · rename_i hkind; exact accepts_recovery hkind h

/-! ## Frames -/

theorem findSeat_getElem? {players : List PlayerState} {seat : Int} {idx : Nat}
    {p : PlayerState} (h : findSeat players seat = some (idx, p)) : players[idx]? = some p := by
  simp only [findSeat] at h
  split at h
  · cases h
  · rw [Option.map_eq_some_iff] at h
    obtain ⟨q, hq, hpair⟩ := h
    cases hpair
    exact hq

theorem findSeat_mem {players : List PlayerState} {seat : Int} {idx : Nat}
    {p : PlayerState} (h : findSeat players seat = some (idx, p)) : p ∈ players :=
  List.mem_of_getElem? (findSeat_getElem? h)

theorem findSeat_seat {players : List PlayerState} {seat : Int} {idx : Nat} {p : PlayerState}
    (h : findSeat players seat = some (idx, p)) : p.seat = seat := by
  simp only [findSeat] at h
  split at h
  · cases h
  · rename_i i hidx
    rw [Option.map_eq_some_iff] at h
    obtain ⟨q, hq, hpair⟩ := h
    cases hpair
    obtain ⟨hlt, hsat, _⟩ := List.findIdx?_eq_some_iff_getElem.mp hidx
    rw [List.getElem?_eq_getElem hlt] at hq
    cases hq
    simpa using hsat

/-- The settlement loop changes nothing of a player but the stake. -/
theorem settlePlayers_map {β : Type} {f : PlayerState → β}
    (hf : ∀ (p : PlayerState) (n : UInt64), f { p with stakeAtRisk := n } = f p)
    {acting : Int} {delta : Int64} {players out : List PlayerState}
    (h : settlePlayers acting delta players = .ok out) : out.map f = players.map f := by
  induction players generalizing out with
  | nil =>
      cases h
      rfl
  | cons p rest ih =>
      simp only [settlePlayers] at h
      split at h
      · split at h
        · cases h
        · rename_i hrest
          cases h
          rw [List.map_cons, List.map_cons, ih hrest]
      · split at h
        · cases h
        · split at h
          · cases h
          · rename_i hrest
            cases h
            rw [List.map_cons, List.map_cons, ih hrest, hf]

/-- No action touches the deck commitment. -/
theorem Accepts.keepsDeck {ruleSet : RuleSet} {height : UInt32} {state state' : RoundState}
    {a : SignedAction} (h : Accepts ruleSet height state a state') :
    state'.combinedEntropy = state.combinedEntropy ∧
      state'.deckCommitmentHash = state.deckCommitmentHash := by
  cases h with
  | _ => exact ⟨rfl, rfl⟩

/-- No action touches the game or a deadline. -/
theorem Accepts.keepsIdentity {ruleSet : RuleSet} {height : UInt32} {state state' : RoundState}
    {a : SignedAction} (h : Accepts ruleSet height state a state') :
    state'.gameId = state.gameId ∧
      state'.recoveryDeadlineBlockHeight = state.recoveryDeadlineBlockHeight ∧
      state'.decisionDeadlineBlockHeight = state.decisionDeadlineBlockHeight := by
  cases h with
  | _ => exact ⟨rfl, rfl, rfl⟩

/-- A `Recovery` that was accepted was due. -/
theorem Accepts.due (h : Accepts ruleSet height state a state') (hkind : a.actionType = .recovery) :
    ∀ deadline, state.recoveryDeadlineBlockHeight = some deadline → ¬height < deadline := by
  cases h with
  | recovery _ hdeadline hdue =>
      intro deadline hd
      rw [hdeadline] at hd
      cases hd
      exact hdue
  | _ hkind' =>
      rw [hkind] at hkind'
      cases hkind'

/-! ## What the engine reads -/

/-- `b` says the same as `a` in every field the engine reads of an action
of that type. -/
def SameToEngine (a b : SignedAction) : Prop :=
  b.gameId = a.gameId ∧ b.actionType = a.actionType ∧
    match a.actionType with
    | .join => b.actingPlayerSeat = a.actingPlayerSeat ∧ b.playerPubkey = a.playerPubkey ∧
        b.stakeAmount = a.stakeAmount
    | .entropyCommit => b.actingPlayerSeat = a.actingPlayerSeat ∧
        b.commitmentHash = a.commitmentHash
    | .entropyReveal => b.actingPlayerSeat = a.actingPlayerSeat ∧ b.entropy = a.entropy
    | .cardReveal => b.reveal.revealedCard = a.reveal.revealedCard
    | .dealConcealed => b.concealedCards = a.concealedCards
    | .betAction => b.betAmount = a.betAmount
    | .fold => b.actingPlayerSeat = a.actingPlayerSeat
    | _ => True

/-- The engine does the same with both. -/
theorem applyAction_same {a b : SignedAction} (h : SameToEngine a b) :
    applyAction state b ruleSet height = applyAction state a ruleSet height := by
  obtain ⟨hgame, hkind, hread⟩ := h
  simp only [applyAction, hgame, hkind]
  split
  · rfl
  · split
    · rfl
    · cases hk : a.actionType with
      | join =>
          simp only [hk] at hread
          obtain ⟨hseat, hkey, hstake⟩ := hread
          simp only [applyJoin, joinedPlayer, hseat, hkey, hstake]
      | entropyCommit =>
          simp only [hk] at hread
          obtain ⟨hseat, hhash⟩ := hread
          simp only [applyEntropyCommit, hseat, hhash]
      | entropyReveal =>
          simp only [hk] at hread
          obtain ⟨hseat, hentropy⟩ := hread
          simp only [applyEntropyReveal, hseat, hentropy]
      | cardReveal =>
          simp only [hk] at hread
          simp only [applyCardReveal, hread]
      | dealConcealed =>
          simp only [hk] at hread
          simp only [applyDealConcealed, hread]
      | betAction =>
          simp only [hk] at hread
          simp only [applyBet, hread]
      | fold =>
          simp only [hk] at hread
          simp only [applyFold, hread]
      | _ => rfl

/-- Only a `Recovery` and a `Timeout` are judged by their height, and
without a decision deadline no `Timeout` passes. -/
theorem applyAction_height {height' : UInt32} (hdecision : state.decisionDeadlineBlockHeight = none)
    (hrecovery : a.actionType = .recovery → ∀ deadline,
      state.recoveryDeadlineBlockHeight = some deadline → ¬height' < deadline)
    (h : applyAction state a ruleSet height = .ok state') :
    applyAction state a ruleSet height' = .ok state' := by
  simp only [applyAction] at h ⊢
  split at h
  · cases h
  · rename_i hgame
    split at h
    · cases h
    · rename_i hlegal
      rw [if_neg hgame, if_neg hlegal]
      cases hk : a.actionType with
      | timeout =>
          simp only [hk, applyTimeout, hdecision] at h
          split at h
          · cases h
          · cases h
      | recovery =>
          simp only [hk, applyRecovery] at h ⊢
          split at h
          · cases h
          · rename_i deadline hdeadline
            rw [if_neg (hrecovery hk deadline hdeadline)]
            split at h
            · cases h
            · exact h
      | _ => simpa only [hk] using h

end CardTable.Go
