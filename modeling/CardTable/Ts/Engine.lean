import CardTable.Ts.Types
import Mathlib.Data.List.Sort

/-!
# Ts.Engine — the TypeScript state engine

`packages/state-engine/src`: `pot.ts`, `penalties.ts` and `engine.ts`.
`applyAction` is a pure function of the state, the action, the rule set
and the height. Its `err(...)` results are `.err`; an exception that
escapes it is `.halt`.
-/

namespace CardTable.Ts

open Basis

/-! ## pot.ts -/

/-- Add `delta` satoshis to the pot. Throws on overflow into the
unsafe-integer range. -/
def addToPot (pot : SafeNat) (delta : Int) : Js SafeNat :=
  let old := pot.val
  let next := toDouble (old + delta)
  if isSafeInteger next = false then .halt s!"addToPot: pot overflow ({old} + {delta})"
  else asSatoshis next

/-! ## penalties.ts -/

/-- Compute the settlement outcome class for an In-Between round. `%` on
numbers takes the sign of the dividend. -/
def classifyInBetweenRound (visibleCards : List RevealedCard) : Js ClassifyResult :=
  match visibleCards with
  | [a, b, c] =>
      let aOrd := a.ordinal.tmod 13
      let bOrd := b.ordinal.tmod 13
      if aOrd = bOrd then .ok ⟨.equalPenalty, false⟩
      else if (aOrd - bOrd).natAbs = 1 then .ok ⟨.consecutivePenalty, false⟩
      else
        let cOrd := c.ordinal.tmod 13
        let low := min aOrd bOrd
        let high := max aOrd bOrd
        if low < cOrd ∧ cOrd < high then .ok ⟨.win, true⟩ else .ok ⟨.loss, true⟩
  | _ =>
      let got := visibleCards.length
      .halt s!"classifyInBetweenRound: expected exactly 3 visible cards, got {got}"

/-- The signed change of the acting player's balance and of the pot. -/
structure ValueTransfer where
  playerDelta : Int
  potDelta : Int
  deriving DecidableEq, Repr

/-- The value transfer for an outcome class, a bet and the rules. A
product of doubles is rounded; a negation is exact. -/
def computeValueTransfer (outcome : SettlementOutcome) (bet : SafeNat)
    (rules : SettlementRules) : ValueTransfer :=
  match outcome with
  | .win =>
      let win := toDouble (bet.val * rules.inBetweenWinMultiplier)
      ⟨win, -win⟩
  | .loss =>
      let loss := toDouble (bet.val * rules.inBetweenLossMultiplier)
      ⟨-loss, loss⟩
  | .pass => ⟨0, 0⟩
  | .consecutivePenalty =>
      let p := rules.consecutiveCardsPenalty.val
      ⟨-p, p⟩
  | .equalPenalty =>
      let p := rules.equalCardsPenalty.val
      ⟨-p, p⟩

/-! ## engine.ts -/

/-- 64 zeros. -/
def zeroHash : String :=
  "0000000000000000000000000000000000000000000000000000000000000000"

/-- The fresh initial state of a session. -/
def initialState (gameId ruleSetHash : String) (recoveryDeadline : SafeNat) : RoundState where
  stateClass := .s1SeatOpen
  gameId := gameId
  ruleSetHash := ruleSetHash
  roundNumber := ⟨0, by decide⟩
  actingPlayerSeat := none
  players := []
  potValue := ⟨0, by decide⟩
  visibleCards := []
  hiddenCommitmentRefs := []
  allowedActions := [.join, .tableLock]
  decisionDeadlineBlockHeight := none
  recoveryDeadlineBlockHeight := some recoveryDeadline
  successorTemplateHashes := []
  combinedEntropy := none
  deckCommitmentHash := none
  concealedDeck := none
  priorStateHash := none
  stateHash := zeroHash

/-- `{...state, state_class, allowed_actions, prior_state_hash}`: the part
of a successor every class-changing handler writes the same way. -/
def RoundState.advance (state : RoundState) (next : StateClass) : RoundState :=
  { state with
    stateClass := next
    allowedActions := getLegalActions next
    priorStateHash := some state.stateHash }

/-- `players.findIndex((p) => p.seat === seat)` with the player found. -/
def findSeat (players : List PlayerState) (seat : Int) : Option (Nat × PlayerState) :=
  match players.findIdx? (fun p => (p.seat.val : Int) == seat) with
  | none => none
  | some idx => players[idx]?.map fun p => (idx, p)

/-- The player `applyJoin` seats. The stake is `action.stake_amount`,
which the handler has found equal to the rule set's. -/
def joinedPlayer (action : JoinAction) (seat stake : SafeNat) : PlayerState where
  seat := seat
  playerId := action.playerPubkey
  valueSigningPubkey := action.playerPubkey
  participationStatus := .joined
  stakeAtRisk := stake
  stakeOutpoint := none
  entropyCommitted := false
  entropyCommitmentHash := none
  entropyRevealed := false
  entropyValue := none
  concealedCardRefs := []
  defaultPreferences := []

def applyJoin (state : RoundState) (action : JoinAction) (ruleSet : RuleSet) :
    Js RoundState :=
  if state.stateClass ≠ .s1SeatOpen then
    .err ⟨.invalidActionForState, "Join outside S1"⟩
  else if action.stakeAmount ≠ ruleSet.stakeAmount.val then
    let want := ruleSet.stakeAmount.val
    let got := action.stakeAmount
    .err ⟨.invalidStakeAmount, s!"expected {want}, got {got}"⟩
  else if ruleSet.playerCountMax ≤ (state.players.length : Int) then
    let most := ruleSet.playerCountMax
    .err ⟨.tableFull, s!"max {most} seats"⟩
  else do
    let seat ← asSeat (action.actingPlayerSeat.getD state.players.length)
    if state.players.any (fun p => p.seat == seat) then
      let taken := seat.val
      .err ⟨.playerAlreadySeated, s!"seat {taken} taken"⟩
    else
      .ok { state with
        players := state.players ++ [joinedPlayer action seat ruleSet.stakeAmount]
        priorStateHash := some state.stateHash }

def applyTableLock (state : RoundState) (ruleSet : RuleSet) : Js RoundState :=
  if state.stateClass ≠ .s1SeatOpen then
    .err ⟨.invalidActionForState, "TableLock outside S1"⟩
  else if (state.players.length : Int) < ruleSet.playerCountMin then
    let need := ruleSet.playerCountMin
    let seated := state.players.length
    .err ⟨.tableNotLockable, s!"need {need} seats, have {seated}"⟩
  else .ok (state.advance .s3EntropyCommitWindow)

def applyEntropyCommit (state : RoundState) (action : EntropyCommitAction) : Js RoundState :=
  if state.stateClass ≠ .s3EntropyCommitWindow then
    .err ⟨.invalidActionForState, "EntropyCommit outside S3"⟩
  else match action.actingPlayerSeat with
  | none => .err ⟨.seatOutOfRange, "EntropyCommit requires acting_player_seat"⟩
  | some seat =>
    match findSeat state.players seat with
    | none => .err ⟨.playerNotSeated, s!"seat {seat}"⟩
    | some (idx, existing) =>
      if existing.entropyCommitted then
        .err ⟨.invalidStateTransition, "seat already committed"⟩
      else
        let players := state.players.set idx { existing with
          entropyCommitted := true
          entropyCommitmentHash := some action.commitmentHash }
        -- the reveal window opens only when every seat has committed
        let nextClass := if players.all (·.entropyCommitted)
          then .s4EntropyRevealWindow else .s3EntropyCommitWindow
        .ok { state.advance nextClass with players := players }

def applyEntropyReveal (state : RoundState) (action : EntropyRevealAction) : Js RoundState :=
  if state.stateClass ≠ .s4EntropyRevealWindow then
    .err ⟨.invalidActionForState, "EntropyReveal outside S4"⟩
  else match action.actingPlayerSeat with
  | none => .err ⟨.seatOutOfRange, "EntropyReveal requires acting_player_seat"⟩
  | some seat =>
    match findSeat state.players seat with
    | none => .err ⟨.playerNotSeated, s!"seat {seat}"⟩
    | some (idx, existing) =>
      if existing.entropyCommitted = false then
        .err ⟨.invalidStateTransition, "seat must commit before reveal"⟩
      else if existing.entropyRevealed then
        .err ⟨.invalidStateTransition, "seat already revealed"⟩
      else
        let players := state.players.set idx { existing with
          entropyRevealed := true
          entropyValue := some action.entropy
          participationStatus := .active }
        let nextClass := if players.all (·.entropyRevealed)
          then .s5DeckCommitted else .s4EntropyRevealWindow
        .ok { state.advance nextClass with players := players }

/-- S5 → S6 (first card), S6 → S8 (second card: S7 is passed through at
once, and the acting seat falls to the first player of the list when
there is none), S9 → S10 (third card). -/
def applyCardReveal (state : RoundState) (action : CardRevealAction) : Js RoundState :=
  let shown (finalClass : StateClass) (acting : Option SafeNat) : Js RoundState :=
    .ok { state.advance finalClass with
      visibleCards := state.visibleCards ++ [action.reveal.revealedCard]
      actingPlayerSeat := acting }
  match state.stateClass with
  | .s5DeckCommitted => shown .s6CardRevealFirst state.actingPlayerSeat
  | .s6CardRevealFirst =>
      shown .s8BetDecision
        (match state.actingPlayerSeat with
          | some seat => some seat
          | none => state.players.head?.map (·.seat))
  | .s9CardRevealThird => shown .s10SettledRound state.actingPlayerSeat
  | sc => .err ⟨.invalidActionForState, s!"CardReveal at {sc}"⟩

def applyDealConcealed (state : RoundState) (action : DealConcealedAction)
    (ruleSet : RuleSet) : Js RoundState :=
  if state.stateClass ≠ .s5DeckCommitted then
    let got := state.stateClass
    .err ⟨.invalidActionForState, s!"DealConcealed outside S5 (got {got})"⟩
  else if state.concealedDeck ≠ none then
    .err ⟨.invalidStateTransition, "concealed deck already dealt"⟩
  else if (action.concealedCards.length : Int) ≠ ruleSet.deckFormat then
    let want := ruleSet.deckFormat
    let got := action.concealedCards.length
    .err ⟨.invalidStateTransition, s!"DealConcealed: expected {want} cards, got {got}"⟩
  else match checkPositions ruleSet.deckFormat [] action.concealedCards with
  | some e => .err e
  | none =>
      .ok { state with
        concealedDeck := some action.concealedCards
        priorStateHash := some state.stateHash }

def applyBet (state : RoundState) (action : BetAction) (ruleSet : RuleSet) : Js RoundState :=
  if state.stateClass ≠ .s8BetDecision then
    .err ⟨.invalidActionForState, "BetAction outside S8"⟩
  else if action.betAmount < ruleSet.minBet.val ∨ ruleSet.maxBet.val < action.betAmount then
    let bet := action.betAmount
    let least := ruleSet.minBet.val
    let most := ruleSet.maxBet.val
    .err ⟨.invalidBetAmount, s!"bet {bet} not in [{least}, {most}]"⟩
  else do
    let pot ← addToPot state.potValue action.betAmount
    .ok { state.advance .s9CardRevealThird with potValue := pot }

def applyPass (state : RoundState) : Js RoundState :=
  if state.stateClass ≠ .s8BetDecision then
    .err ⟨.invalidActionForState, "Pass outside S8"⟩
  else .ok (state.advance .s11RotateTurn)

/-- Every card the acting player holds in `ASSIGNED_CONCEALED` becomes
`SURRENDERED`; at least one must. -/
def applyFold (state : RoundState) (action : SignedActionBase) : Js RoundState :=
  if state.stateClass ≠ .s8BetDecision ∧ state.stateClass ≠ .s7CardRevealSecond then
    let got := state.stateClass
    .err ⟨.invalidActionForState, s!"Fold outside S7/S8 (got {got})"⟩
  else match action.actingPlayerSeat with
  | none => .err ⟨.seatOutOfRange, "Fold requires acting_player_seat"⟩
  | some seat =>
    match state.concealedDeck with
    | none => .err ⟨.invalidActionForState, "Fold requires concealed_deck (extended model)"⟩
    | some deck =>
      match findSeat state.players seat with
      | none => .err ⟨.playerNotSeated, s!"seat {seat}"⟩
      | some (seatIdx, player) =>
        let holderPubkey := player.valueSigningPubkey
        if deck.any (isHeldConcealed holderPubkey) = false then
          .err ⟨.invalidActionForState, "Fold: player holds no ASSIGNED_CONCEALED cards"⟩
        else
          .ok { state.advance .s11RotateTurn with
            players := state.players.set seatIdx { player with participationStatus := .folded }
            concealedDeck := some (deck.map (surrender holderPubkey)) }

/-- The `players.map` of `applySettle`: every player on the acting seat
gets `playerDelta`; a balance that is not a non-negative safe integer
throws. -/
def settlePlayers (acting : SafeNat) (playerDelta : Int) :
    List PlayerState → Js (List PlayerState)
  | [] => .ok []
  | p :: rest =>
      if p.seat ≠ acting then do
        let players ← settlePlayers acting playerDelta rest
        .ok (p :: players)
      else
        let next := toDouble (p.stakeAtRisk.val + playerDelta)
        if isSafeInteger next = false ∨ next < 0 then
          .halt "settlement produces negative balance"
        else do
          let stake ← asSatoshis next
          let players ← settlePlayers acting playerDelta rest
          .ok ({ p with stakeAtRisk := stake } :: players)

/-- The bet is read back from the pot: `const bet = state.pot_value`. -/
def applySettle (state : RoundState) (ruleSet : RuleSet) : Js RoundState :=
  if state.stateClass ≠ .s10SettledRound then
    .err ⟨.invalidActionForState, "Settle outside S10"⟩
  else if state.visibleCards.length ≠ 3 then
    let got := state.visibleCards.length
    .err ⟨.invalidStateTransition, s!"settle requires 3 visible cards, have {got}"⟩
  else match state.actingPlayerSeat with
  | none => .err ⟨.seatOutOfRange, "settle requires an acting_player_seat"⟩
  | some acting => do
    let bet := state.potValue
    let classification ← classifyInBetweenRound state.visibleCards
    let transfer := computeValueTransfer classification.outcome bet ruleSet.settlementRules
    let newPotRaw := toDouble (state.potValue.val + transfer.potDelta)
    if isSafeInteger newPotRaw = false ∨ newPotRaw < 0 then
      .err ⟨.invalidStateTransition, "settlement produces negative pot"⟩
    else do
      let players ← settlePlayers acting transfer.playerDelta state.players
      let pot ← asSatoshis newPotRaw
      .ok { state.advance .s11RotateTurn with potValue := pot, players := players }

/-- `players.map((p) => p.seat).sort((a, b) => a - b)`. The sort is stable,
so which algorithm does it cannot be seen. -/
def sortedSeats (players : List PlayerState) : List SafeNat :=
  (players.map (·.seat)).insertionSort (fun a b => a.val ≤ b.val)

/-- Find the next seat after the acting one. When it is the first seat
again the table closes, otherwise a new round begins at S6. -/
def applyRotateTurn (state : RoundState) : Js RoundState :=
  if state.stateClass ≠ .s11RotateTurn then
    .err ⟨.invalidActionForState, "RotateTurn outside S11"⟩
  else
    let seats := sortedSeats state.players
    match seats with
    | [] => .err ⟨.tableNotLockable, "no players to rotate"⟩
    | firstSeat :: _ =>
      let nextSeat := seatAfter seats firstSeat state.actingPlayerSeat
      if state.actingPlayerSeat ≠ none ∧ nextSeat = firstSeat then
        .ok (state.advance .s12TableClose)
      else do
        let round ← asRoundNumber (toDouble (state.roundNumber.val + 1))
        .ok { state.advance .s6CardRevealFirst with
          roundNumber := round
          actingPlayerSeat := some nextSeat
          visibleCards := [] }

def applyTableClose (state : RoundState) : Js RoundState :=
  if state.stateClass ≠ .s12TableClose then
    .err ⟨.invalidActionForState, "TableClose outside S12"⟩
  else .ok { state with allowedActions := [], priorStateHash := some state.stateHash }

def applyTimeout (state : RoundState) (currentHeight : SafeNat) : Js RoundState :=
  if state.stateClass ≠ .s8BetDecision then
    .err ⟨.invalidActionForState, "Timeout only legal at S8 in v1"⟩
  else match state.decisionDeadlineBlockHeight with
  | none => .err ⟨.timeoutNotMature, "no decision deadline"⟩
  | some deadline =>
      if currentHeight.val < deadline.val then
        let current := currentHeight.val
        let due := deadline.val
        .err ⟨.timeoutNotMature, s!"current={current}, deadline={due}"⟩
      else .ok (state.advance .s11RotateTurn)

def applyRecovery (state : RoundState) (currentHeight : SafeNat) : Js RoundState :=
  match state.recoveryDeadlineBlockHeight with
  | none => .err ⟨.recoveryNotMature, "no recovery deadline"⟩
  | some deadline =>
      if currentHeight.val < deadline.val then
        let current := currentHeight.val
        let due := deadline.val
        .err ⟨.recoveryNotMature, s!"current={current}, recovery={due}"⟩
      else
        .ok { state with
          stateClass := .recovered
          allowedActions := []
          priorStateHash := some state.stateHash }

/-- Apply a signed action to a state, producing the successor state. -/
def applyAction (state : RoundState) (action : SignedAction) (ruleSet : RuleSet)
    (currentHeight : SafeNat) : Js RoundState :=
  if action.base.gameId ≠ state.gameId then
    .err ⟨.staleState, "action.game_id mismatch"⟩
  -- Recovery bypasses the per-state list; only its deadline gates it
  else if action.actionType ≠ .recovery ∧
      action.actionType ∉ getLegalActions state.stateClass then
    let kind := action.actionType
    let sc := state.stateClass
    .err ⟨.invalidActionForState, s!"{kind} not legal at {sc}"⟩
  else match action with
  | .join a => applyJoin state a ruleSet
  | .tableLock _ => applyTableLock state ruleSet
  | .entropyCommit a => applyEntropyCommit state a
  | .entropyReveal a => applyEntropyReveal state a
  | .cardReveal a => applyCardReveal state a
  | .dealConcealed a => applyDealConcealed state a ruleSet
  | .betAction a => applyBet state a ruleSet
  | .pass _ => applyPass state
  | .fold a => applyFold state a
  | .settle _ => applySettle state ruleSet
  | .rotateTurn _ => applyRotateTurn state
  | .tableClose _ => applyTableClose state
  | .timeout _ => applyTimeout state currentHeight
  | .recovery _ => applyRecovery state currentHeight

end CardTable.Ts
