import CardTable.Protocol
import CardTable.Basis.Outcome
import CardTable.Basis.SafeInt

/-!
# Ts.Types — the TypeScript protocol types

`packages/protocol-types/src`. TypeScript numbers are doubles, so the
branded integers of a *state* or a *rule set* (`Satoshis`, `Seat`,
`RoundNumber`, `BlockHeight`) are `SafeNat`s: each is stored only after
its constructor checked it. The numbers of an *action* come straight
from `JSON.parse` and are plain integers, checked by the handlers or not
at all. `null` is `none`.
-/

namespace CardTable.Ts

open Basis

/-- A TypeScript call: a value, an `err(...)` result, or a thrown
`Error` with its message. -/
abbrev Js := Outcome String ProtocolError

/-! ## Branded integers -/

/-- The constructors `asSeat`, `asSatoshis`, `asRoundNumber`: they differ
in the name their message carries. -/
def asSafeNat (name : String) (n : Int) : Js SafeNat :=
  match SafeNat.ofInt? n with
  | some s => .ok s
  | none => .halt s!"{name}: expected non-negative safe integer, got {n}"

def asSeat (n : Int) : Js SafeNat := asSafeNat "asSeat" n

def asSatoshis (n : Int) : Js SafeNat := asSafeNat "asSatoshis" n

def asRoundNumber (n : Int) : Js SafeNat := asSafeNat "asRoundNumber" n

theorem asSafeNat_eq_ok {name : String} {n : Int} {s : SafeNat} :
    asSafeNat name n = .ok s ↔ (s.val : Int) = n := by
  rw [← SafeNat.ofInt?_eq_some, asSafeNat]
  cases SafeNat.ofInt? n with
  | none => simp
  | some t => simp

/-- A constructor gives the number back or throws. After a rounded
operation what counts is the exact result. -/
theorem asSafeNat_toDouble_cases (name : String) (n : Int) :
    (∃ s, asSafeNat name (toDouble n) = .ok s ∧ (s.val : Int) = n) ∨
      (∃ k, asSafeNat name (toDouble n) = .halt k ∧ (n < 0 ∨ (maxSafeInteger : Int) < n)) := by
  have hround := SafeNat.ofInt?_toDouble n
  cases h : SafeNat.ofInt? n with
  | some s =>
      rw [h] at hround
      exact .inl ⟨s, by rw [asSafeNat, hround], SafeNat.ofInt?_eq_some.mp h⟩
  | none =>
      rw [h] at hround
      exact .inr ⟨_, by rw [asSafeNat, hround], SafeNat.ofInt?_eq_none.mp h⟩

/-! ## Numbers nobody checked yet -/

/-- A number as `Number.isInteger` sees it: an integer, or by its text a
fraction, an infinity or `NaN`. -/
inductive JsNumber where
  | integer (n : Int)
  | other (shown : String)
  deriving DecidableEq, Repr

namespace JsNumber

def text : JsNumber → String
  | integer n => toString n
  | other shown => shown

/-- The integer a number is. -/
def value : JsNumber → Int
  | integer n => n
  | other _ => 0

/-- An integer in a range. -/
def Within (low high : Int) : JsNumber → Prop
  | integer n => low ≤ n ∧ n ≤ high
  | other _ => False

instance (low high : Int) (v : JsNumber) : Decidable (v.Within low high) :=
  match v with
  | integer n => inferInstanceAs (Decidable (low ≤ n ∧ n ≤ high))
  | other _ => inferInstanceAs (Decidable False)

theorem Within.integer {low high : Int} {v : JsNumber} (h : v.Within low high) :
    v = .integer v.value ∧ low ≤ v.value ∧ v.value ≤ high := by
  cases v with
  | integer n => exact ⟨rfl, h⟩
  | other shown => exact h.elim

end JsNumber

/-! ## Rule sets -/

/-- `SettlementRules`. Multipliers are integers of either sign. -/
structure SettlementRules where
  inBetweenWinMultiplier : Int
  inBetweenLossMultiplier : Int
  consecutiveCardsPenalty : SafeNat
  equalCardsPenalty : SafeNat
  deriving DecidableEq, Repr

/-- The fields of `RuleSet` the state engine and the crypto gate read. -/
structure RuleSet where
  playerCountMin : Int
  playerCountMax : Int
  stakeAmount : SafeNat
  minBet : SafeNat
  maxBet : SafeNat
  deckFormat : Int
  shuffleAlgorithmVersion : Int
  settlementRules : SettlementRules
  deriving DecidableEq, Repr

/-! ## States -/

/-- `PlayerState`. -/
structure PlayerState where
  seat : SafeNat
  playerId : String
  valueSigningPubkey : String
  participationStatus : ParticipationStatus
  stakeAtRisk : SafeNat
  stakeOutpoint : Option String
  entropyCommitted : Bool
  entropyCommitmentHash : Option String
  entropyRevealed : Bool
  entropyValue : Option String
  concealedCardRefs : List String
  defaultPreferences : List (String × String)
  deriving DecidableEq, Repr

/-- `RoundState`. -/
structure RoundState where
  stateClass : StateClass
  gameId : String
  ruleSetHash : String
  roundNumber : SafeNat
  actingPlayerSeat : Option SafeNat
  players : List PlayerState
  potValue : SafeNat
  visibleCards : List RevealedCard
  hiddenCommitmentRefs : List String
  allowedActions : List ActionType
  decisionDeadlineBlockHeight : Option SafeNat
  recoveryDeadlineBlockHeight : Option SafeNat
  successorTemplateHashes : List String
  combinedEntropy : Option String
  deckCommitmentHash : Option String
  concealedDeck : Option (List ConcealedCard)
  priorStateHash : Option String
  stateHash : String
  deriving DecidableEq, Repr

/-! ## Actions -/

/-- `SignedActionBase`, without the discriminant. -/
structure SignedActionBase where
  gameId : String
  roundNumber : Int
  referencedStateHash : String
  actionNonce : String
  actingPlayerSeat : Option Int
  authorisingSignature : String
  successorStateCommitment : String
  deriving DecidableEq, Repr

structure JoinAction extends SignedActionBase where
  playerPubkey : String
  stakeAmount : Int
  deriving DecidableEq, Repr

structure EntropyCommitAction extends SignedActionBase where
  commitmentHash : String
  deriving DecidableEq, Repr

structure EntropyRevealAction extends SignedActionBase where
  entropy : String
  deriving DecidableEq, Repr

structure CardRevealAction extends SignedActionBase where
  reveal : RevealProof
  deriving DecidableEq, Repr

structure DealConcealedAction extends SignedActionBase where
  concealedCards : List ConcealedCard
  deriving DecidableEq, Repr

structure BetAction extends SignedActionBase where
  betAmount : Int
  deriving DecidableEq, Repr

structure TimeoutAction extends SignedActionBase where
  defaultConsequence : String
  silencedSeat : Int
  deriving DecidableEq, Repr

structure RecoveryAction extends SignedActionBase where
  recoveryTrigger : String
  deriving DecidableEq, Repr

/-- The discriminated union over every action type. -/
inductive SignedAction where
  | join (a : JoinAction)
  | entropyCommit (a : EntropyCommitAction)
  | entropyReveal (a : EntropyRevealAction)
  | cardReveal (a : CardRevealAction)
  | dealConcealed (a : DealConcealedAction)
  | betAction (a : BetAction)
  | pass (a : SignedActionBase)
  | fold (a : SignedActionBase)
  | settle (a : SignedActionBase)
  | rotateTurn (a : SignedActionBase)
  | tableLock (a : SignedActionBase)
  | tableClose (a : SignedActionBase)
  | timeout (a : TimeoutAction)
  | recovery (a : RecoveryAction)
  deriving DecidableEq, Repr

namespace SignedAction

/-- The fields every action has. -/
def base : SignedAction → SignedActionBase
  | .join a => a.toSignedActionBase
  | .entropyCommit a => a.toSignedActionBase
  | .entropyReveal a => a.toSignedActionBase
  | .cardReveal a => a.toSignedActionBase
  | .dealConcealed a => a.toSignedActionBase
  | .betAction a => a.toSignedActionBase
  | .timeout a => a.toSignedActionBase
  | .recovery a => a.toSignedActionBase
  | .pass a | .fold a | .settle a | .rotateTurn a | .tableLock a | .tableClose a => a

/-- `action_type`. -/
def actionType : SignedAction → ActionType
  | .join _ => .join
  | .entropyCommit _ => .entropyCommit
  | .entropyReveal _ => .entropyReveal
  | .cardReveal _ => .cardReveal
  | .dealConcealed _ => .dealConcealed
  | .betAction _ => .betAction
  | .pass _ => .pass
  | .fold _ => .fold
  | .settle _ => .settle
  | .rotateTurn _ => .rotateTurn
  | .tableLock _ => .tableLock
  | .tableClose _ => .tableClose
  | .timeout _ => .timeout
  | .recovery _ => .recovery

end SignedAction

end CardTable.Ts
