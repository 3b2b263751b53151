import Mathlib.Data.List.Perm.Subperm

/-!
# Protocol — the vocabulary both implementations share

State classes, action types, error codes and card records are written
twice in the repository, in `packages/protocol-types` and in
`apps/relay-go/pkg/types`, with the same members and the same wire
strings; they are stated once here. What the two languages hold
differently (player and round states, actions, rule sets) is in
`Ts.Types` and `Go.Types`.

Hashes, keys, nonces and the other identifiers stay `String`s, as in the
source: neither engine looks inside them.
-/

namespace CardTable

/-- `state_class`: the nodes of the state machine. -/
inductive StateClass where
  | s0TableOpen
  | s1SeatOpen
  | s2TableLocked
  | s3EntropyCommitWindow
  | s4EntropyRevealWindow
  | s5DeckCommitted
  | s6CardRevealFirst
  | s7CardRevealSecond
  | s8BetDecision
  | s9CardRevealThird
  | s10SettledRound
  | s11RotateTurn
  | s12TableClose
  | recovered
  deriving DecidableEq, Repr

/-- The wire string of a state class. -/
def StateClass.wire : StateClass → String
  | .s0TableOpen => "S0_TABLE_OPEN"
  | .s1SeatOpen => "S1_SEAT_OPEN"
  | .s2TableLocked => "S2_TABLE_LOCKED"
  | .s3EntropyCommitWindow => "S3_ENTROPY_COMMIT_WINDOW"
  | .s4EntropyRevealWindow => "S4_ENTROPY_REVEAL_WINDOW"
  | .s5DeckCommitted => "S5_DECK_COMMITTED"
  | .s6CardRevealFirst => "S6_CARD_REVEAL_FIRST"
  | .s7CardRevealSecond => "S7_CARD_REVEAL_SECOND"
  | .s8BetDecision => "S8_BET_DECISION"
  | .s9CardRevealThird => "S9_CARD_REVEAL_THIRD"
  | .s10SettledRound => "S10_SETTLED_ROUND"
  | .s11RotateTurn => "S11_ROTATE_TURN"
  | .s12TableClose => "S12_TABLE_CLOSE"
  | .recovered => "RECOVERED"

instance : ToString StateClass := ⟨StateClass.wire⟩

/-- `action_type`: the discriminant of a signed action. -/
inductive ActionType where
  | join
  | entropyCommit
  | entropyReveal
  | cardReveal
  | dealConcealed
  | betAction
  | pass
  | fold
  | settle
  | rotateTurn
  | tableLock
  | tableClose
  | timeout
  | recovery
  deriving DecidableEq, Repr

/-- The wire string of an action type. -/
def ActionType.wire : ActionType → String
  | .join => "Join"
  | .entropyCommit => "EntropyCommit"
  | .entropyReveal => "EntropyReveal"
  | .cardReveal => "CardReveal"
  | .dealConcealed => "DealConcealed"
  | .betAction => "BetAction"
  | .pass => "Pass"
  | .fold => "Fold"
  | .settle => "Settle"
  | .rotateTurn => "RotateTurn"
  | .tableLock => "TableLock"
  | .tableClose => "TableClose"
  | .timeout => "Timeout"
  | .recovery => "Recovery"

instance : ToString ActionType := ⟨ActionType.wire⟩

/-- The rejection codes the gate and the engines emit. -/
inductive ErrorCode where
  | invalidStakeAmount
  | invalidRevealProof
  | invalidSignature
  | invalidStateTransition
  | invalidActionForState
  | invalidBetAmount
  | staleState
  | timeoutNotMature
  | recoveryNotMature
  | playerNotSeated
  | playerAlreadySeated
  | tableFull
  | tableNotLockable
  | seatOutOfRange
  | serialisationError
  deriving DecidableEq, Repr

/-- A typed rejection: the code is the conformance surface, the context
is advisory text. -/
structure ProtocolError where
  code : ErrorCode
  context : String
  deriving DecidableEq, Repr

/-- A player's lifecycle within one session. -/
inductive ParticipationStatus where
  | invited
  | joined
  | ready
  | active
  | folded
  | settled
  | disconnected
  | timedOut
  | forfeited
  deriving DecidableEq, Repr

/-- The wire string of a participation status. -/
def ParticipationStatus.wire : ParticipationStatus → String
  | .invited => "invited"
  | .joined => "joined"
  | .ready => "ready"
  | .active => "active"
  | .folded => "folded"
  | .settled => "settled"
  | .disconnected => "disconnected"
  | .timedOut => "timed_out"
  | .forfeited => "forfeited"

/-- The resolution class of one round. -/
inductive SettlementOutcome where
  | win
  | loss
  | pass
  | consecutivePenalty
  | equalPenalty
  deriving DecidableEq, Repr

/-- `classifyInBetweenRound`'s answer. -/
structure ClassifyResult where
  outcome : SettlementOutcome
  thirdCardChecked : Bool
  deriving DecidableEq, Repr

/-! ## Cards -/

/-- A face-up card. Nothing ties the three fields together: the record
arrives inside an action and is stored as it came. -/
structure RevealedCard where
  rank : String
  suit : String
  ordinal : Int
  deriving DecidableEq, Repr

/-- One deck position's commitment. -/
structure CardCommitment where
  position : Int
  cardCommitment : String
  cardNonce : String
  deriving DecidableEq, Repr

/-- One row of the concealed deck. -/
structure ConcealedCard where
  cardCommitment : CardCommitment
  ciphertext : String
  custodyOutpoint : String
  holderPubkey : String
  lifecycleState : String
  deriving DecidableEq, Repr

/-- Opens a deck position. -/
structure RevealProof where
  position : Int
  revealedCard : RevealedCard
  cardNonce : String
  deckNonce : String
  deriving DecidableEq, Repr

/-! ## The tables both engines carry -/

/-- `getLegalActions`: the action types a state class admits. `Recovery`
is in no list; the engines let it past this table. -/
def getLegalActions : StateClass → List ActionType
  | .s0TableOpen => []
  | .s1SeatOpen => [.join, .tableLock]
  | .s2TableLocked => [.entropyCommit]
  | .s3EntropyCommitWindow => [.entropyCommit]
  | .s4EntropyRevealWindow => [.entropyReveal]
  | .s5DeckCommitted => [.cardReveal, .dealConcealed]
  | .s6CardRevealFirst => [.cardReveal]
  | .s7CardRevealSecond => [.betAction, .pass, .timeout, .fold]
  | .s8BetDecision => [.betAction, .pass, .timeout, .fold]
  | .s9CardRevealThird => [.cardReveal]
  | .s10SettledRound => [.settle]
  | .s11RotateTurn => [.rotateTurn]
  | .s12TableClose => [.tableClose]
  | .recovered => []

/-- The seat after the acting one in the sorted list, round to the first.
`indexOf` answers -1 for a seat that is not there, and -1 + 1 is 0. -/
def seatAfter {α : Type} [BEq α] (seats : List α) (firstSeat : α) : Option α → α
  | none => firstSeat
  | some acting =>
      let after := match seats.idxOf? acting with
        | some i => i + 1
        | none => 0
      seats.getD (after % seats.length) firstSeat

/-- The position loop of `applyDealConcealed`: the first card whose
position is out of range or already seen rejects the deal. -/
def checkPositions (deckFormat : Int) : List Int → List ConcealedCard → Option ProtocolError
  | _, [] => none
  | seen, c :: rest =>
      let p := c.cardCommitment.position
      if p < 0 ∨ deckFormat ≤ p then
        some ⟨.invalidStateTransition,
          s!"DealConcealed: position {p} out of [0, {deckFormat})"⟩
      else if p ∈ seen then
        some ⟨.invalidStateTransition, s!"DealConcealed: duplicate position {p}"⟩
      else checkPositions deckFormat (p :: seen) rest

/-- Whatever is wrong with a position, the code is the same. -/
theorem checkPositions_code {deckFormat : Int} {seen : List Int} {cards : List ConcealedCard}
    {e : ProtocolError} (h : checkPositions deckFormat seen cards = some e) :
    e.code = .invalidStateTransition := by
  induction cards generalizing seen with
  | nil => cases h
  | cons c rest ih =>
      simp only [checkPositions] at h
      split at h
      · cases h
        rfl
      · split at h
        · cases h
          rfl
        · exact ih h

/-- The positions of a deal are positions of the deck. -/
theorem position_of_checkPositions {deckFormat : Int} {seen : List Int}
    {cards : List ConcealedCard} (h : checkPositions deckFormat seen cards = none) :
    ∀ c ∈ cards, 0 ≤ c.cardCommitment.position ∧ c.cardCommitment.position < deckFormat := by
  induction cards generalizing seen with
  | nil => simp
  | cons c rest ih =>
      simp only [checkPositions] at h
      split at h
      · cases h
      · rename_i hrange
        split at h
        · cases h
        · intro d hd
          rcases List.mem_cons.mp hd with rfl | hd
          · omega
          · exact ih h d hd

/-- No position is dealt twice. -/
theorem nodup_of_checkPositions {deckFormat : Int} {seen : List Int}
    {cards : List ConcealedCard} (h : checkPositions deckFormat seen cards = none) :
    (cards.map (·.cardCommitment.position)).Nodup ∧
      ∀ c ∈ cards, c.cardCommitment.position ∉ seen := by
  induction cards generalizing seen with
  | nil => simp
  | cons c rest ih =>
      simp only [checkPositions] at h
      split at h
      · cases h
      · split at h
        · cases h
        · rename_i hfresh
          obtain ⟨hnodup, hrest⟩ := ih h
          constructor
          · rw [List.map_cons, List.nodup_cons]
            refine ⟨?_, hnodup⟩
            intro hmem
            obtain ⟨d, hd, heq⟩ := List.mem_map.mp hmem
            exact hrest d hd (heq ▸ List.mem_cons_self)
          · intro d hd
            rcases List.mem_cons.mp hd with rfl | hd
            · exact hfresh
            · exact fun hseen => hrest d hd (List.mem_cons_of_mem _ hseen)

/-- **A complete deal is a permutation of the positions**: as many cards
as there are positions, each on a position of its own. -/
theorem perm_of_checkPositions {deckFormat : Int} {cards : List ConcealedCard}
    (h : checkPositions deckFormat [] cards = none) (hlen : (cards.length : Int) = deckFormat) :
    (cards.map (·.cardCommitment.position)).Perm
      ((List.range deckFormat.toNat).map Int.ofNat) := by
  have hsub : cards.map (·.cardCommitment.position) ⊆
      (List.range deckFormat.toNat).map Int.ofNat := by
    intro p hp
    obtain ⟨c, hc, rfl⟩ := List.mem_map.mp hp
    obtain ⟨hpos, hlt⟩ := position_of_checkPositions h c hc
    exact List.mem_map.mpr ⟨c.cardCommitment.position.toNat, List.mem_range.mpr (by omega),
      Int.toNat_of_nonneg hpos⟩
  have hcount : ((List.range deckFormat.toNat).map Int.ofNat).length ≤
      (cards.map (·.cardCommitment.position)).length := by
    rw [List.length_map, List.length_map, List.length_range]
    omega
  exact ((nodup_of_checkPositions h).1.subperm hsub).perm_of_length_le hcount

/-- A card `applyFold` surrenders: held by `holder` and still concealed. -/
def isHeldConcealed (holder : String) (card : ConcealedCard) : Bool :=
  card.holderPubkey == holder && card.lifecycleState == "ASSIGNED_CONCEALED"

/-- The card after the fold loop has passed it. -/
def surrender (holder : String) (card : ConcealedCard) : ConcealedCard :=
  if isHeldConcealed holder card then { card with lifecycleState := "SURRENDERED" } else card

end CardTable
