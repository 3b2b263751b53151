import CardTable.Ts.CryptoCards
import CardTable.Ts.Engine

/-!
# Ts.Verify — the audit harness

`packages/state-engine/src/verify.ts` and `replay.ts`. `verifyAndApply`
checks commitments and reveals before it calls the engine, and binds the
deck at the S4 to S5 transition; `replayWithVerification` folds it over a
transcript. A promise that rejects is an exception that escapes.
-/

namespace CardTable.Ts

open Basis Cards

/-! ## verify.ts -/

/-- The check on an `EntropyCommit`: the shape of the commitment. -/
def checkEntropyCommit (action : EntropyCommitAction) : Js Unit :=
  if isHex64 action.commitmentHash = false then
    .err ⟨.invalidSignature, "commitment_hash must be 64-char hex"⟩
  else .ok ()

/-- The check on an `EntropyReveal`: the entropy must hash back to the
commitment stored for the seat. -/
def checkEntropyReveal (state : RoundState) (action : EntropyRevealAction) : Js Unit :=
  match action.actingPlayerSeat with
  | none => .err ⟨.seatOutOfRange, "EntropyReveal requires acting_player_seat"⟩
  | some seat =>
    match state.players.find? (fun p => (p.seat.val : Int) == seat) with
    | none => .err ⟨.playerNotSeated, s!"seat {seat}"⟩
    | some player =>
      match player.entropyCommitmentHash with
      | none => .err ⟨.invalidStateTransition, "no prior commitment for this seat"⟩
      | some stored =>
        if isHex64 action.entropy = false then
          .err ⟨.invalidRevealProof, "entropy must be 64-char hex"⟩
        else do
          let commitmentBytes ← fromHex stored
          let entropyBytes ← fromHex action.entropy
          let pubkeyBytes ← fromHex player.valueSigningPubkey
          if pubkeyBytes.length < 32 then
            .err ⟨.serialisationError, "player pubkey shorter than 32 bytes"⟩
          else do
            let gameIdBytes ← fromHex state.gameId
            if gameIdBytes.length ≠ 32 then
              .err ⟨.serialisationError, "game_id is not 32 bytes"⟩
            else do
              let recomputed ← commitEntropy entropyBytes
                (pubkeyBytes.drop (pubkeyBytes.length - 32)) gameIdBytes
              if recomputed == commitmentBytes then .ok ()
              else .err ⟨.invalidRevealProof, "entropy does not match prior commitment"⟩

/-- The check on a `CardReveal`: the card must open the position of the
committed deck. -/
def checkCardReveal (state : RoundState) (action : CardRevealAction) (ruleSet : RuleSet) :
    Js Unit :=
  match state.combinedEntropy with
  | none => .err ⟨.invalidStateTransition, "no combined entropy yet"⟩
  | some combinedEntropy => do
      let combined ← fromHex combinedEntropy
      let dc ← buildDeckCommitment combined ruleSet.deckFormat ruleSet.shuffleAlgorithmVersion
      let position := action.reveal.position
      match (if position < 0 then none else dc.perPosition[position.toNat]?) with
      | none => .err ⟨.invalidRevealProof, s!"position {position} out of range"⟩
      | some row => do
          let cardNonce ← fromHex action.reveal.cardNonce
          let deckNonce ← fromHex action.reveal.deckNonce
          let proofOk ← verifyRevealProof row.commitment action.reveal.revealedCard.ordinal
            cardNonce deckNonce
          if proofOk then .ok ()
          else .err ⟨.invalidRevealProof, "card reveal does not match deck commitment"⟩

/-- The checks before the engine is called. -/
def verify (state : RoundState) (action : SignedAction) (ruleSet : RuleSet) : Js Unit :=
  match action with
  | .entropyCommit a => checkEntropyCommit a
  | .entropyReveal a => checkEntropyReveal state a
  | .cardReveal a => checkCardReveal state a ruleSet
  | _ => .ok ()

/-- `[...state.players].sort((a, b) => a.seat - b.seat)`. -/
def seatSorted (players : List PlayerState) : List PlayerState :=
  players.insertionSort (fun a b => a.seat.val ≤ b.seat.val)

/-- The loop that collects the entropies of the sorted players; `none`
when one has not revealed. -/
def collectEntropies : List PlayerState → Js (Option (List (List UInt8)))
  | [] => .ok (some [])
  | p :: rest =>
      match p.entropyValue with
      | none => .ok none
      | some value => do
          let e ← fromHex value
          let entropies ← collectEntropies rest
          pure (entropies.map (e :: ·))

/-- `materialiseDeckCommitment`. -/
def materialiseDeckCommitment (state : RoundState) (ruleSet : RuleSet) : Js RoundState := do
  match ← collectEntropies (seatSorted state.players) with
  | none => pure state
  | some entropies =>
      let combined ← combineEntropy entropies
      let dc ← buildDeckCommitment combined ruleSet.deckFormat ruleSet.shuffleAlgorithmVersion
      let combinedEntropy ← asHash256 (Hex.encode combined)
      let deckCommitmentHash ← asHash256 (Hex.encode dc.deckCommitmentHash)
      pure { state with
        combinedEntropy := some combinedEntropy
        deckCommitmentHash := some deckCommitmentHash }

/-- The S4 to S5 transition has just been taken and the deck is not yet
bound. -/
def Unbound (prior next : RoundState) : Prop :=
  prior.stateClass = .s4EntropyRevealWindow ∧ next.stateClass = .s5DeckCommitted ∧
    next.combinedEntropy = none

instance (prior next : RoundState) : Decidable (Unbound prior next) :=
  inferInstanceAs (Decidable (_ ∧ _ ∧ _))

/-- What `verifyAndApply` does with the engine's successor. -/
def bindDeck (prior next : RoundState) (ruleSet : RuleSet) : Js RoundState :=
  if Unbound prior next then materialiseDeckCommitment next ruleSet else .ok next

/-- `verifyAndApply`. -/
def verifyAndApply (state : RoundState) (action : SignedAction) (ruleSet : RuleSet)
    (currentHeight : SafeNat) : Js RoundState := do
  verify state action ruleSet
  let next ← applyAction state action ruleSet currentHeight
  bindDeck state next ruleSet

/-! ## replay.ts -/

/-- The loop of `replayWithVerification` from action `i` on. A missing
height is replaced by the last one. -/
def replayFrom (ruleSet : RuleSet) (heights : List SafeNat) (state : RoundState) (i : Nat) :
    List SignedAction → Js RoundState
  | [] => .ok state
  | action :: rest =>
      match heights[i]?.or heights.getLast? with
      | none =>
          .err ⟨.serialisationError,
            s!"replayWithVerification: no block height for action {i}"⟩
      | some height =>
        match verifyAndApply state action ruleSet height with
        | .ok next => replayFrom ruleSet heights next (i + 1) rest
        | .err e =>
            let kind := action.actionType
            let context := e.context
            .err ⟨e.code, s!"replayWithVerification: action {i} ({kind}) rejected: {context}"⟩
        | .halt k => .halt k

/-- `replayWithVerification`. -/
def replayWithVerification (gameId ruleSetHash : String) (ruleSet : RuleSet)
    (recoveryDeadline : SafeNat) (actions : List SignedAction) (blockHeights : List SafeNat) :
    Js RoundState :=
  replayFrom ruleSet blockHeights (initialState gameId ruleSetHash recoveryDeadline) 0 actions

end CardTable.Ts
