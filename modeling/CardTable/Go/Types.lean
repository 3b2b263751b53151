import CardTable.Protocol

/-!
# Go.Types — the Go protocol types

`apps/relay-go/pkg/types`. `Satoshis` is `uint64` and `BlockHeight` is
`uint32`; both wrap and are Lean's fixed-width types. The multipliers of
a rule set enter `int64` products and are `Int64`. The other Go `int`s
(seats, positions, ordinals, counts, the round number) are only compared
or incremented by one and are `Int`.

A nil pointer or nil slice is `none`; where a nil slice and an empty one
are never told apart the field is a plain list. An absent string is `""`.
-/

namespace CardTable.Go

/-- `SettlementRules`. -/
structure SettlementRules where
  inBetweenWinMultiplier : Int64
  inBetweenLossMultiplier : Int64
  consecutiveCardsPenalty : UInt64
  equalCardsPenalty : UInt64
  deriving DecidableEq

/-- The fields of `RuleSet` the engine and the session read. -/
structure RuleSet where
  playerCountMin : Int
  playerCountMax : Int
  stakeAmount : UInt64
  minBet : UInt64
  maxBet : UInt64
  deckFormat : Int
  shuffleAlgorithmVersion : Int
  settlementRules : SettlementRules
  deriving DecidableEq

/-- `PlayerState`. -/
structure PlayerState where
  seat : Int
  playerId : String
  valueSigningPubkey : String
  participationStatus : ParticipationStatus
  stakeAtRisk : UInt64
  stakeOutpoint : String
  entropyCommitted : Bool
  entropyCommitmentHash : String
  entropyRevealed : Bool
  entropyValue : String
  concealedCardRefs : List String
  defaultPreferences : List (String × String)
  deriving DecidableEq

/-- `RoundState`. -/
structure RoundState where
  stateClass : StateClass
  gameId : String
  ruleSetHash : String
  roundNumber : Int
  actingPlayerSeat : Option Int
  players : List PlayerState
  potValue : UInt64
  visibleCards : List RevealedCard
  hiddenCommitmentRefs : List String
  allowedActions : List ActionType
  decisionDeadlineBlockHeight : Option UInt32
  recoveryDeadlineBlockHeight : Option UInt32
  successorTemplateHashes : List String
  combinedEntropy : String
  deckCommitmentHash : String
  concealedDeck : Option (List ConcealedCard)
  priorStateHash : Option String
  stateHash : String
  deriving DecidableEq

/-- `SignedAction`: one record for every variant, the fields a variant
does not use at their zero values. -/
structure SignedAction where
  gameId : String
  roundNumber : Int
  referencedStateHash : String
  actionType : ActionType
  actionNonce : String
  actingPlayerSeat : Option Int
  authorisingSignature : String
  successorStateCommitment : String
  playerPubkey : String
  stakeAmount : UInt64
  commitmentHash : String
  entropy : String
  reveal : RevealProof
  betAmount : UInt64
  concealedCards : List ConcealedCard
  defaultConsequence : String
  silencedSeat : Option Int
  recoveryTrigger : String
  deriving DecidableEq

/-- An action with no fields set but its game, its type and its seat. -/
def bareAction (gameId : String) (kind : ActionType) (seat : Option Int) : SignedAction where
  gameId := gameId
  roundNumber := 0
  referencedStateHash := ""
  actionType := kind
  actionNonce := ""
  actingPlayerSeat := seat
  authorisingSignature := ""
  successorStateCommitment := ""
  playerPubkey := ""
  stakeAmount := 0
  commitmentHash := ""
  entropy := ""
  reveal := ⟨0, ⟨"", "", 0⟩, "", ""⟩
  betAmount := 0
  concealedCards := []
  defaultConsequence := ""
  silencedSeat := none
  recoveryTrigger := ""

end CardTable.Go
