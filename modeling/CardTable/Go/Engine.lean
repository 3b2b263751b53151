import CardTable.Go.Types

/-!
# Go.Engine — the Go state engine

`apps/relay-go/pkg/engine`: `pot.go`, `penalties.go`, `engine.go` and
`replay.go`. Every function returns either a value or a typed error.
`cloneState` and `cloneSeats` copy slices so that the successor shares no
memory with its source; on values they are the identity and do not
appear.
-/

namespace CardTable.Go

/-! ## pot.go -/

/-- Add `delta` satoshis to the pot. The sum is a `uint64` and has
wrapped before it is compared with `math.MaxInt64`. -/
def addToPot (pot delta : UInt64) : Except String UInt64 :=
  let next := pot + delta
  if 9223372036854775807 < next then .error s!"AddToPot: pot overflow ({pot} + {delta})"
  else .ok next

/-! ## penalties.go -/

/-- The outcome class for an In-Between round. -/
def classifyInBetweenRound (visible : List RevealedCard) : Except String ClassifyResult :=
  match visible with
  | [v0, v1, v2] =>
      let a := v0.ordinal.tmod 13
      let b := v1.ordinal.tmod 13
      if a = b then .ok ⟨.equalPenalty, false⟩
      else
        let diff := if a - b < 0 then -(a - b) else a - b
        if diff = 1 then .ok ⟨.consecutivePenalty, false⟩
        else
          let c := v2.ordinal.tmod 13
          let low := if b < a then b else a
          let high := if b < a then a else b
          if low < c ∧ c < high then .ok ⟨.win, true⟩ else .ok ⟨.loss, true⟩
  | _ =>
      let got := visible.length
      .error s!"ClassifyInBetweenRound: expected 3 visible cards, got {got}"

/-- The signed delta of the active player's balance and of the pot. -/
structure ValueTransfer where
  playerDelta : Int64
  potDelta : Int64
  deriving DecidableEq

/-- The deltas for an outcome, a bet and the rules, in `int64`
arithmetic: the conversion of the bet and the product both wrap. -/
def computeValueTransfer (outcome : SettlementOutcome) (bet : UInt64)
    (rules : SettlementRules) : ValueTransfer :=
  match outcome with
  | .win =>
      let win := bet.toInt64 * rules.inBetweenWinMultiplier
      ⟨win, -win⟩
  | .loss =>
      let loss := bet.toInt64 * rules.inBetweenLossMultiplier
      ⟨-loss, loss⟩
  | .pass => ⟨0, 0⟩
  | .consecutivePenalty =>
      let p := rules.consecutiveCardsPenalty.toInt64
      ⟨-p, p⟩
  | .equalPenalty =>
      let p := rules.equalCardsPenalty.toInt64
      ⟨-p, p⟩

/-! ## engine.go -/

/-- 64 zeros. -/
def zeroHash : String :=
  "0000000000000000000000000000000000000000000000000000000000000000"

/-- The fresh starting state of a session. -/
def initialState (gameId ruleSetHash : String) (recoveryDeadline : UInt32) : RoundState where
  stateClass := .s1SeatOpen
  gameId := gameId
  ruleSetHash := ruleSetHash
  roundNumber := 0
  actingPlayerSeat := none
  players := []
  potValue := 0
  visibleCards := []
  hiddenCommitmentRefs := []
  allowedActions := [.join, .tableLock]
  decisionDeadlineBlockHeight := none
  recoveryDeadlineBlockHeight := some recoveryDeadline
  successorTemplateHashes := []
  combinedEntropy := ""
  deckCommitmentHash := ""
  concealedDeck := none
  priorStateHash := none
  stateHash := zeroHash

/-- The three fields every class-changing handler writes the same way. -/
def RoundState.advance (state : RoundState) (next : StateClass) : RoundState :=
  { state with
    stateClass := next
    allowedActions := getLegalActions next
    priorStateHash := some state.stateHash }

/-- `findSeat`, with the player found. -/
def findSeat (players : List PlayerState) (s : Int) : Option (Nat × PlayerState) :=
  match players.findIdx? (fun p => p.seat == s) with
  | none => none
  | some idx => players[idx]?.map fun p => (idx, p)

/-- The player `applyJoin` seats. -/
def joinedPlayer (action : SignedAction) (seat : Int) : PlayerState where
  seat := seat
  playerId := action.playerPubkey
  valueSigningPubkey := action.playerPubkey
  participationStatus := .joined
  stakeAtRisk := action.stakeAmount
  stakeOutpoint := ""
  entropyCommitted := false
  entropyCommitmentHash := ""
  entropyRevealed := false
  entropyValue := ""
  concealedCardRefs := []
  defaultPreferences := []

def applyJoin (state : RoundState) (action : SignedAction) (ruleSet : RuleSet) :
    Except ProtocolError RoundState :=
  if state.stateClass ≠ .s1SeatOpen then
    .error ⟨.invalidActionForState, "Join outside S1"⟩
  else if action.stakeAmount ≠ ruleSet.stakeAmount then
    let want := ruleSet.stakeAmount
    let got := action.stakeAmount
    .error ⟨.invalidStakeAmount, s!"expected {want}, got {got}"⟩
  else if ruleSet.playerCountMax ≤ (state.players.length : Int) then
    let most := ruleSet.playerCountMax
    .error ⟨.tableFull, s!"max {most} seats"⟩
  else
    let seat := action.actingPlayerSeat.getD state.players.length
    if state.players.any (fun p => p.seat == seat) then
      .error ⟨.playerAlreadySeated, s!"seat {seat} taken"⟩
    else
      .ok { state with
        players := state.players ++ [joinedPlayer action seat]
        priorStateHash := some state.stateHash }

def applyTableLock (state : RoundState) (ruleSet : RuleSet) :
    Except ProtocolError RoundState :=
  if state.stateClass ≠ .s1SeatOpen then
    .error ⟨.invalidActionForState, "TableLock outside S1"⟩
  else if (state.players.length : Int) < ruleSet.playerCountMin then
    let need := ruleSet.playerCountMin
    let seated := state.players.length
    .error ⟨.tableNotLockable, s!"need {need} seats, have {seated}"⟩
  else .ok (state.advance .s3EntropyCommitWindow)

def applyEntropyCommit (state : RoundState) (action : SignedAction) :
    Except ProtocolError RoundState :=
  if state.stateClass ≠ .s3EntropyCommitWindow then
    .error ⟨.invalidActionForState, "EntropyCommit outside S3"⟩
  else match action.actingPlayerSeat with
  | none => .error ⟨.seatOutOfRange, "EntropyCommit requires acting_player_seat"⟩
  | some seat =>
    match findSeat state.players seat with
    | none => .error ⟨.playerNotSeated, s!"seat {seat}"⟩
    | some (idx, existing) =>
      if existing.entropyCommitted then
        .error ⟨.invalidStateTransition, "seat already committed"⟩
      else
        let players := state.players.set idx { existing with
          entropyCommitted := true
          entropyCommitmentHash := action.commitmentHash }
        let nextClass := if players.all (·.entropyCommitted)
          then .s4EntropyRevealWindow else .s3EntropyCommitWindow
        .ok { state.advance nextClass with players := players }

def applyEntropyReveal (state : RoundState) (action : SignedAction) :
    Except ProtocolError RoundState :=
  if state.stateClass ≠ .s4EntropyRevealWindow then
    .error ⟨.invalidActionForState, "EntropyReveal outside S4"⟩
  else match action.actingPlayerSeat with
  | none => .error ⟨.seatOutOfRange, "EntropyReveal requires acting_player_seat"⟩
  | some seat =>
    match findSeat state.players seat with
    | none => .error ⟨.playerNotSeated, s!"seat {seat}"⟩
    | some (idx, existing) =>
      if existing.entropyCommitted = false then
        .error ⟨.invalidStateTransition, "seat must commit before reveal"⟩
      else if existing.entropyRevealed then
        .error ⟨.invalidStateTransition, "seat already revealed"⟩
      else
        let players := state.players.set idx { existing with
          entropyRevealed := true
          entropyValue := action.entropy
          participationStatus := .active }
        let nextClass := if players.all (·.entropyRevealed)
          then .s5DeckCommitted else .s4EntropyRevealWindow
        .ok { state.advance nextClass with players := players }

/-- S5 → S6 (first card), S6 → S8 (second card), S9 → S10 (third card). -/
def applyCardReveal (state : RoundState) (action : SignedAction) :
    Except ProtocolError RoundState :=
  let shown (finalClass : StateClass) (acting : Option Int) : Except ProtocolError RoundState :=
    .ok { state.advance finalClass with
      visibleCards := state.visibleCards ++ [action.reveal.revealedCard]
      actingPlayerSeat := acting }
  match state.stateClass with
  | .s5DeckCommitted => shown .s6CardRevealFirst state.actingPlayerSeat
  | .s6CardRevealFirst =>
      shown .s8BetDecision
        (match state.actingPlayerSeat with
          | some seat => some seat
          | none => state.players.head?.map (·.seat))
  | .s9CardRevealThird => shown .s10SettledRound state.actingPlayerSeat
  | sc => .error ⟨.invalidActionForState, s!"CardReveal at {sc}"⟩

/-- The length of a slice: 0 when it is nil. -/
def sliceLen (s : Option (List ConcealedCard)) : Nat := (s.getD []).length

def applyDealConcealed (state : RoundState) (action : SignedAction) (ruleSet : RuleSet) :
    Except ProtocolError RoundState :=
  if state.stateClass ≠ .s5DeckCommitted then
    let got := state.stateClass
    .error ⟨.invalidActionForState, s!"DealConcealed outside S5 (got {got})"⟩
  else if 0 < sliceLen state.concealedDeck then
    .error ⟨.invalidStateTransition, "concealed deck already dealt"⟩
  else if (action.concealedCards.length : Int) ≠ ruleSet.deckFormat then
    let want := ruleSet.deckFormat
    let got := action.concealedCards.length
    .error ⟨.invalidStateTransition, s!"DealConcealed: expected {want} cards, got {got}"⟩
  else match checkPositions ruleSet.deckFormat [] action.concealedCards with
  | some e => .error e
  | none =>
      .ok { state with
        concealedDeck := some action.concealedCards
        priorStateHash := some state.stateHash }

def applyBet (state : RoundState) (action : SignedAction) (ruleSet : RuleSet) :
    Except ProtocolError RoundState :=
  if state.stateClass ≠ .s8BetDecision then
    .error ⟨.invalidActionForState, "BetAction outside S8"⟩
  else if action.betAmount < ruleSet.minBet ∨ ruleSet.maxBet < action.betAmount then
    let bet := action.betAmount
    let least := ruleSet.minBet
    let most := ruleSet.maxBet
    .error ⟨.invalidBetAmount, s!"bet {bet} not in [{least}, {most}]"⟩
  else match addToPot state.potValue action.betAmount with
  | .error msg => .error ⟨.invalidStateTransition, msg⟩
  | .ok pot => .ok { state.advance .s9CardRevealThird with potValue := pot }

def applyPass (state : RoundState) : Except ProtocolError RoundState :=
  if state.stateClass ≠ .s8BetDecision then
    .error ⟨.invalidActionForState, "Pass outside S8"⟩
  else .ok (state.advance .s11RotateTurn)

/-- Every card the acting player holds in `ASSIGNED_CONCEALED` becomes
`SURRENDERED`; at least one must. -/
def applyFold (state : RoundState) (action : SignedAction) : Except ProtocolError RoundState :=
  if state.stateClass ≠ .s8BetDecision ∧ state.stateClass ≠ .s7CardRevealSecond then
    let got := state.stateClass
    .error ⟨.invalidActionForState, s!"Fold outside S7/S8 (got {got})"⟩
  else match action.actingPlayerSeat with
  | none => .error ⟨.seatOutOfRange, "Fold requires acting_player_seat"⟩
  | some seat =>
    if sliceLen state.concealedDeck = 0 then
      .error ⟨.invalidActionForState, "Fold requires concealed_deck (extended model)"⟩
    else match findSeat state.players seat with
    | none => .error ⟨.playerNotSeated, s!"seat {seat}"⟩
    | some (idx, player) =>
      let deck := state.concealedDeck.getD []
      let holder := player.valueSigningPubkey
      if deck.any (isHeldConcealed holder) = false then
        .error ⟨.invalidActionForState, "Fold: player holds no ASSIGNED_CONCEALED cards"⟩
      else
        .ok { state.advance .s11RotateTurn with
          players := state.players.set idx { player with participationStatus := .folded }
          concealedDeck := some (deck.map (surrender holder)) }

/-- The player loop of `applySettle`: every player on the acting seat
gets `playerDelta` in `int64` arithmetic; a negative balance rejects. -/
def settlePlayers (acting : Int) (playerDelta : Int64) :
    List PlayerState → Except ProtocolError (List PlayerState)
  | [] => .ok []
  | p :: rest =>
      if p.seat ≠ acting then
        match settlePlayers acting playerDelta rest with
        | .error e => .error e
        | .ok players => .ok (p :: players)
      else
        let nextBal := p.stakeAtRisk.toInt64 + playerDelta
        if nextBal < 0 then
          .error ⟨.invalidStateTransition, "settlement produces negative balance"⟩
        else match settlePlayers acting playerDelta rest with
          | .error e => .error e
          | .ok players => .ok ({ p with stakeAtRisk := nextBal.toUInt64 } :: players)

/-- The bet is read back from the pot: `bet := state.PotValue`. -/
def applySettle (state : RoundState) (ruleSet : RuleSet) : Except ProtocolError RoundState :=
  if state.stateClass ≠ .s10SettledRound then
    .error ⟨.invalidActionForState, "Settle outside S10"⟩
  else if state.visibleCards.length ≠ 3 then
    let got := state.visibleCards.length
    .error ⟨.invalidStateTransition, s!"settle requires 3 visible cards, have {got}"⟩
  else match state.actingPlayerSeat with
  | none => .error ⟨.seatOutOfRange, "settle requires an acting_player_seat"⟩
  | some acting =>
    match classifyInBetweenRound state.visibleCards with
    | .error msg => .error ⟨.invalidStateTransition, msg⟩
    | .ok cls =>
      let bet := state.potValue
      let vt := computeValueTransfer cls.outcome bet ruleSet.settlementRules
      let newPot := state.potValue.toInt64 + vt.potDelta
      if newPot < 0 then
        .error ⟨.invalidStateTransition, "settlement produces negative pot"⟩
      else match settlePlayers acting vt.playerDelta state.players with
        | .error e => .error e
        | .ok players =>
            .ok { state.advance .s11RotateTurn with
              potValue := newPot.toUInt64
              players := players }

/-- The inner loop of `sortSeats` on the part already sorted, largest
seat first: `x` moves left past every larger seat. -/
def sinkSeat : List Int → Int → List Int
  | [], x => [x]
  | y :: ys, x => if x < y then y :: sinkSeat ys x else x :: y :: ys

/-- `sortSeats`: insertion sort. -/
def sortSeats (s : List Int) : List Int := (s.foldl sinkSeat []).reverse

/-- Find the next seat after the acting one. When it is the first seat
again the table closes, otherwise a new round begins at S6. -/
def applyRotateTurn (state : RoundState) : Except ProtocolError RoundState :=
  if state.stateClass ≠ .s11RotateTurn then
    .error ⟨.invalidActionForState, "RotateTurn outside S11"⟩
  else
    let seats := sortSeats (state.players.map (·.seat))
    match seats with
    | [] => .error ⟨.tableNotLockable, "no players to rotate"⟩
    | firstSeat :: _ =>
      let nextSeat := seatAfter seats firstSeat state.actingPlayerSeat
      if state.actingPlayerSeat ≠ none ∧ nextSeat = firstSeat then
        .ok (state.advance .s12TableClose)
      else
        .ok { state.advance .s6CardRevealFirst with
          roundNumber := state.roundNumber + 1
          actingPlayerSeat := some nextSeat
          visibleCards := [] }

def applyTableClose (state : RoundState) : Except ProtocolError RoundState :=
  if state.stateClass ≠ .s12TableClose then
    .error ⟨.invalidActionForState, "TableClose outside S12"⟩
  else .ok { state with allowedActions := [], priorStateHash := some state.stateHash }

def applyTimeout (state : RoundState) (currentHeight : UInt32) :
    Except ProtocolError RoundState :=
  if state.stateClass ≠ .s8BetDecision then
    .error ⟨.invalidActionForState, "Timeout only legal at S8 in v1"⟩
  else match state.decisionDeadlineBlockHeight with
  | none => .error ⟨.timeoutNotMature, "no decision deadline"⟩
  | some deadline =>
      if currentHeight < deadline then
        .error ⟨.timeoutNotMature, s!"current={currentHeight}, deadline={deadline}"⟩
      else .ok (state.advance .s11RotateTurn)

def applyRecovery (state : RoundState) (currentHeight : UInt32) :
    Except ProtocolError RoundState :=
  match state.recoveryDeadlineBlockHeight with
  | none => .error ⟨.recoveryNotMature, "no recovery deadline"⟩
  | some deadline =>
      if currentHeight < deadline then
        .error ⟨.recoveryNotMature, s!"current={currentHeight}, recovery={deadline}"⟩
      else
        .ok { state with
          stateClass := .recovered
          allowedActions := []
          priorStateHash := some state.stateHash }

/-- `ApplyAction`, the canonical pure transition function. -/
def applyAction (state : RoundState) (action : SignedAction) (ruleSet : RuleSet)
    (currentHeight : UInt32) : Except ProtocolError RoundState :=
  if action.gameId ≠ state.gameId then
    .error ⟨.staleState, "action.game_id mismatch"⟩
  -- Recovery bypasses the per-state list; only its deadline gates it
  else if action.actionType ≠ .recovery ∧
      action.actionType ∉ getLegalActions state.stateClass then
    let kind := action.actionType
    let sc := state.stateClass
    .error ⟨.invalidActionForState, s!"{kind} not legal at {sc}"⟩
  else match action.actionType with
  | .join => applyJoin state action ruleSet
  | .tableLock => applyTableLock state ruleSet
  | .entropyCommit => applyEntropyCommit state action
  | .entropyReveal => applyEntropyReveal state action
  | .cardReveal => applyCardReveal state action
  | .dealConcealed => applyDealConcealed state action ruleSet
  | .betAction => applyBet state action ruleSet
  | .pass => applyPass state
  | .fold => applyFold state action
  | .settle => applySettle state ruleSet
  | .rotateTurn => applyRotateTurn state
  | .tableClose => applyTableClose state
  | .timeout => applyTimeout state currentHeight
  | .recovery => applyRecovery state currentHeight

/-! ## replay.go -/

/-- The loop of `Replay`: stop at the first rejected action, with its
index. -/
def replayFrom (ruleSet : RuleSet) (state : RoundState) (i : Int) :
    List (SignedAction × UInt32) → RoundState × Int × Option ProtocolError
  | [] => (state, i, none)
  | (a, height) :: rest =>
      match applyAction state a ruleSet height with
      | .error e => (state, i, some e)
      | .ok next => replayFrom ruleSet next (i + 1) rest

/-- `Replay`: the final state, or the state before the first rejected
action with its index and error. -/
def replay (initial : RoundState) (ruleSet : RuleSet) (actions : List SignedAction)
    (heights : List UInt32) : RoundState × Int × Option ProtocolError :=
  if actions.length ≠ heights.length then
    (initial, -1, some ⟨.invalidStateTransition, "Replay: actions/heights length mismatch"⟩)
  else replayFrom ruleSet initial 0 (actions.zip heights)

end CardTable.Go
