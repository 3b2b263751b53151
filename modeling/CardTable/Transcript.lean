import CardTable.Agreement

/-!
# Transcript — a recorded action as TypeScript reads it

The relay hands its transcript out as JSON: `json.Marshal` with the tags
of `pkg/types`, read back by `JSON.parse`. Every number becomes the
nearest double, and a field tagged `omitempty` is not there when it is
zero. `toTs` is the whole trip; the engines then do the same with both
ends of it wherever the numbers they read survive it.
-/

namespace CardTable

open Basis
open Ts (uint64 uint32 InRange)

/-! ## The trip -/

/-- A card as `JSON.parse` reads it. -/
def RevealedCard.parsed (card : RevealedCard) : RevealedCard :=
  { card with ordinal := toDouble card.ordinal }

def RevealProof.parsed (reveal : RevealProof) : RevealProof :=
  { reveal with
    position := toDouble reveal.position
    revealedCard := reveal.revealedCard.parsed }

def ConcealedCard.parsed (card : ConcealedCard) : ConcealedCard :=
  { card with
    cardCommitment :=
      { card.cardCommitment with position := toDouble card.cardCommitment.position } }

namespace Go.SignedAction

/-- The fields every variant has. -/
def toBase (a : SignedAction) : Ts.SignedActionBase where
  gameId := a.gameId
  roundNumber := toDouble a.roundNumber
  referencedStateHash := a.referencedStateHash
  actionNonce := a.actionNonce
  actingPlayerSeat := a.actingPlayerSeat.map toDouble
  authorisingSignature := a.authorisingSignature
  successorStateCommitment := a.successorStateCommitment

/-- The action `JSON.parse` gives back; `none` when `omitempty` left out
a key, a number or a list that the variant must have. A text that is
missing is read like the empty one: it fails the same tests, or nobody
reads it. -/
def toTs (a : SignedAction) : Option Ts.SignedAction :=
  match a.actionType with
  | .join =>
      if a.playerPubkey = "" ∨ a.stakeAmount = 0 then none
      else some (.join { a.toBase with
        playerPubkey := a.playerPubkey, stakeAmount := toDouble a.stakeAmount.toNat })
  | .entropyCommit =>
      some (.entropyCommit { a.toBase with commitmentHash := a.commitmentHash })
  | .entropyReveal => some (.entropyReveal { a.toBase with entropy := a.entropy })
  | .cardReveal => some (.cardReveal { a.toBase with reveal := a.reveal.parsed })
  | .dealConcealed =>
      if a.concealedCards = [] then none
      else some (.dealConcealed { a.toBase with
        concealedCards := a.concealedCards.map ConcealedCard.parsed })
  | .betAction =>
      if a.betAmount = 0 then none
      else some (.betAction { a.toBase with betAmount := toDouble a.betAmount.toNat })
  | .pass => some (.pass a.toBase)
  | .fold => some (.fold a.toBase)
  | .settle => some (.settle a.toBase)
  | .rotateTurn => some (.rotateTurn a.toBase)
  | .tableLock => some (.tableLock a.toBase)
  | .tableClose => some (.tableClose a.toBase)
  | .timeout =>
      a.silencedSeat.map fun seat => .timeout { a.toBase with
        defaultConsequence := a.defaultConsequence, silencedSeat := toDouble seat }
  | .recovery => some (.recovery { a.toBase with recoveryTrigger := a.recoveryTrigger })

end Go.SignedAction

theorem toNat_le_maxSafeInteger (height : UInt32) : height.toNat ≤ maxSafeInteger := by
  have := height.toNat_lt
  simp only [maxSafeInteger]
  omega

/-- A recorded height as TypeScript holds it. -/
def blockHeight (height : UInt32) : SafeNat :=
  ⟨height.toNat, toNat_le_maxSafeInteger height⟩

theorem blockHeight_lt (height : UInt32) : (blockHeight height).val < 2 ^ 32 := height.toNat_lt

@[simp] theorem uint32_blockHeight (height : UInt32) : uint32 (blockHeight height) = height := by
  rw [uint32, blockHeight, UInt32.ofNat_toNat]

/-! ## What survives it -/

theorem toDouble_of_inRange {n : Int} (h : InRange n) : toDouble n = n := by
  obtain ⟨h0, hmax⟩ := h
  exact toDouble_eq_self (by omega) hmax

theorem RevealedCard.parsed_eq {card : RevealedCard} (h : InRange card.ordinal) :
    card.parsed = card := by
  rw [parsed, toDouble_of_inRange h]

theorem ConcealedCard.parsed_eq {card : ConcealedCard} (h : InRange card.cardCommitment.position) :
    card.parsed = card := by
  rw [parsed, toDouble_of_inRange h]

/-- An amount of a state, in an action and back. -/
theorem amount_toDouble {n : UInt64} (h : (n.toNat : Int) ≤ maxSafeInteger) :
    InRange (toDouble n.toNat) ∧ UInt64.ofNat (toDouble n.toNat).toNat = n := by
  have hin : InRange (n.toNat : Int) := ⟨by omega, h⟩
  rw [toDouble_of_inRange hin]
  exact ⟨hin, by simp⟩

/-- A seat somebody sits on is one both languages know. -/
theorem seat_toDouble {players : List Ts.PlayerState} {seat : Int} {idx : Nat} {p : Go.PlayerState}
    (h : Go.findSeat (players.map Ts.PlayerState.toGo) seat = some (idx, p)) :
    toDouble seat = seat := by
  obtain ⟨q, _, rfl⟩ := List.mem_map.mp (Go.findSeat_mem h)
  have hseat : (q.seat.val : Int) = seat := Go.findSeat_seat h
  have hle := q.seat.isLe
  exact toDouble_of_inRange ⟨by omega, by omega⟩

end CardTable
