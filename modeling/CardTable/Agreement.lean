import CardTable.Ts.Refine
import CardTable.Go.Refine

/-!
# Agreement — the two engines side by side

`toGo` carries a TypeScript value to the Go value that stands for it: a
safe integer to the machine integer of the same value, `null` to the
empty string or to nil. Handler by handler the two engines are compared
through it. They differ in five places, all of them about numbers or
slices the other language does not have, and `Diverges` collects them.
-/

namespace CardTable

open Basis

/-! ## Carrying values over -/

namespace Ts

/-- Satoshis as a `uint64`. -/
def uint64 (n : SafeNat) : UInt64 := UInt64.ofNat n.val

/-- A block height as a `uint32`. -/
def uint32 (n : SafeNat) : UInt32 := UInt32.ofNat n.val

def SettlementRules.toGo (rules : SettlementRules) : Go.SettlementRules where
  inBetweenWinMultiplier := Int64.ofInt rules.inBetweenWinMultiplier
  inBetweenLossMultiplier := Int64.ofInt rules.inBetweenLossMultiplier
  consecutiveCardsPenalty := uint64 rules.consecutiveCardsPenalty
  equalCardsPenalty := uint64 rules.equalCardsPenalty

def RuleSet.toGo (ruleSet : RuleSet) : Go.RuleSet where
  playerCountMin := ruleSet.playerCountMin
  playerCountMax := ruleSet.playerCountMax
  stakeAmount := uint64 ruleSet.stakeAmount
  minBet := uint64 ruleSet.minBet
  maxBet := uint64 ruleSet.maxBet
  deckFormat := ruleSet.deckFormat
  shuffleAlgorithmVersion := ruleSet.shuffleAlgorithmVersion
  settlementRules := ruleSet.settlementRules.toGo

def PlayerState.toGo (p : PlayerState) : Go.PlayerState where
  seat := p.seat.val
  playerId := p.playerId
  valueSigningPubkey := p.valueSigningPubkey
  participationStatus := p.participationStatus
  stakeAtRisk := uint64 p.stakeAtRisk
  stakeOutpoint := p.stakeOutpoint.getD ""
  entropyCommitted := p.entropyCommitted
  entropyCommitmentHash := p.entropyCommitmentHash.getD ""
  entropyRevealed := p.entropyRevealed
  entropyValue := p.entropyValue.getD ""
  concealedCardRefs := p.concealedCardRefs
  defaultPreferences := p.defaultPreferences

def RoundState.toGo (state : RoundState) : Go.RoundState where
  stateClass := state.stateClass
  gameId := state.gameId
  ruleSetHash := state.ruleSetHash
  roundNumber := state.roundNumber.val
  actingPlayerSeat := state.actingPlayerSeat.map (fun seat => (seat.val : Int))
  players := state.players.map PlayerState.toGo
  potValue := uint64 state.potValue
  visibleCards := state.visibleCards
  hiddenCommitmentRefs := state.hiddenCommitmentRefs
  allowedActions := state.allowedActions
  decisionDeadlineBlockHeight := state.decisionDeadlineBlockHeight.map uint32
  recoveryDeadlineBlockHeight := state.recoveryDeadlineBlockHeight.map uint32
  successorTemplateHashes := state.successorTemplateHashes
  combinedEntropy := state.combinedEntropy.getD ""
  deckCommitmentHash := state.deckCommitmentHash.getD ""
  concealedDeck := state.concealedDeck
  priorStateHash := state.priorStateHash
  stateHash := state.stateHash

/-- The common fields of an action, the others at their zero values. -/
def SignedActionBase.toGo (a : SignedActionBase) (kind : ActionType) : Go.SignedAction where
  gameId := a.gameId
  roundNumber := a.roundNumber
  referencedStateHash := a.referencedStateHash
  actionType := kind
  actionNonce := a.actionNonce
  actingPlayerSeat := a.actingPlayerSeat
  authorisingSignature := a.authorisingSignature
  successorStateCommitment := a.successorStateCommitment
  playerPubkey := ""
  stakeAmount := 0
  commitmentHash := ""
  entropy := ""
  reveal := ⟨0, ⟨"", "", 0⟩, "", ""⟩
  betAmount := 0
  concealedCards := []
  defaultConsequence := ""
  silencedSeat := none
  recoveryTrigger := ""

def SignedAction.toGo (action : SignedAction) : Go.SignedAction :=
  let base := action.base.toGo action.actionType
  match action with
  | .join a =>
      { base with
        playerPubkey := a.playerPubkey, stakeAmount := UInt64.ofNat a.stakeAmount.toNat }
  | .entropyCommit a => { base with commitmentHash := a.commitmentHash }
  | .entropyReveal a => { base with entropy := a.entropy }
  | .cardReveal a => { base with reveal := a.reveal }
  | .dealConcealed a => { base with concealedCards := a.concealedCards }
  | .betAction a => { base with betAmount := UInt64.ofNat a.betAmount.toNat }
  | .timeout a =>
      { base with
        defaultConsequence := a.defaultConsequence, silencedSeat := some a.silencedSeat }
  | .recovery a => { base with recoveryTrigger := a.recoveryTrigger }
  | .pass _ | .fold _ | .settle _ | .rotateTurn _ | .tableLock _ | .tableClose _ => base

/-! ## What both languages can represent -/

/-- A number of an action that is an amount or a seat in both languages. -/
def InRange (n : Int) : Prop := 0 ≤ n ∧ n ≤ maxSafeInteger

/-- The inputs of a transition that have a Go counterpart: heights are
`uint32`, multipliers are `int64`s and doubles, a list has no more
entries than a seat number can count, and the amounts and the seat of
the action are in range. -/
structure Representable (ruleSet : RuleSet) (state : RoundState) (action : SignedAction)
    (height : SafeNat) : Prop where
  winMultiplier : (Int64.ofInt ruleSet.settlementRules.inBetweenWinMultiplier).toInt =
      ruleSet.settlementRules.inBetweenWinMultiplier ∧
    toDouble ruleSet.settlementRules.inBetweenWinMultiplier =
      ruleSet.settlementRules.inBetweenWinMultiplier
  lossMultiplier : (Int64.ofInt ruleSet.settlementRules.inBetweenLossMultiplier).toInt =
      ruleSet.settlementRules.inBetweenLossMultiplier ∧
    toDouble ruleSet.settlementRules.inBetweenLossMultiplier =
      ruleSet.settlementRules.inBetweenLossMultiplier
  height : height.val < 2 ^ 32
  decisionDeadline : ∀ d, state.decisionDeadlineBlockHeight = some d → d.val < 2 ^ 32
  recoveryDeadline : ∀ d, state.recoveryDeadlineBlockHeight = some d → d.val < 2 ^ 32
  seats : state.players.length ≤ maxSafeInteger
  seat : ∀ n, action.base.actingPlayerSeat = some n → InRange n
  stake : ∀ a, action = .join a → InRange a.stakeAmount
  bet : ∀ a, action = .betAction a → InRange a.betAmount

end Ts

/-- The outcomes of the two engines correspond: equal successors field by
field, or rejections with the same code. An exception corresponds to
nothing. -/
def Agree : Ts.Js Ts.RoundState → Except ProtocolError Go.RoundState → Prop
  | .ok s, .ok g => s.toGo = g
  | .err e, .error f => e.code = f.code
  | _, _ => False

@[simp] theorem agree_ok_ok {s : Ts.RoundState} {g : Go.RoundState} :
    Agree (.ok s) (.ok g) ↔ s.toGo = g := Iff.rfl

@[simp] theorem agree_err_error {e f : ProtocolError} :
    Agree (.err e) (.error f) ↔ e.code = f.code := Iff.rfl

@[simp] theorem agree_ok_error {s : Ts.RoundState} {f : ProtocolError} :
    Agree (.ok s) (.error f) ↔ False := Iff.rfl

@[simp] theorem agree_err_ok {e : ProtocolError} {g : Go.RoundState} :
    Agree (.err e) (.ok g) ↔ False := Iff.rfl

@[simp] theorem agree_halt {k : String} {r : Except ProtocolError Go.RoundState} :
    Agree (.halt k) r ↔ False := by
  cases r with
  | ok g => exact Iff.rfl
  | error f => exact Iff.rfl

/-! ## Numbers -/

open Ts (uint64 uint32 InRange)

theorem uint64_toNat (n : SafeNat) : (uint64 n).toNat = n.val := by
  have h := n.isLe
  simp only [maxSafeInteger] at h
  rw [uint64, UInt64.toNat_ofNat']
  omega

theorem amount_toNat {n : Int} (h : InRange n) : ((UInt64.ofNat n.toNat).toNat : Int) = n := by
  obtain ⟨h0, hmax⟩ := h
  simp only [maxSafeInteger] at hmax
  rw [UInt64.toNat_ofNat']
  omega

theorem amount_eq_iff {n : Int} (h : InRange n) (m : SafeNat) :
    UInt64.ofNat n.toNat = uint64 m ↔ n = m.val := by
  have hn := amount_toNat h
  have hm := uint64_toNat m
  rw [← UInt64.toNat_inj]
  omega

theorem amount_lt_iff {n : Int} (h : InRange n) (m : SafeNat) :
    UInt64.ofNat n.toNat < uint64 m ↔ n < m.val := by
  have hn := amount_toNat h
  have hm := uint64_toNat m
  rw [UInt64.lt_iff_toNat_lt]
  omega

theorem lt_amount_iff {n : Int} (h : InRange n) (m : SafeNat) :
    uint64 m < UInt64.ofNat n.toNat ↔ m.val < n := by
  have hn := amount_toNat h
  have hm := uint64_toNat m
  rw [UInt64.lt_iff_toNat_lt]
  omega

theorem uint32_lt_iff {a b : SafeNat} (ha : a.val < 2 ^ 32) (hb : b.val < 2 ^ 32) :
    uint32 a < uint32 b ↔ a.val < b.val := by
  rw [UInt32.lt_iff_toNat_lt, uint32, uint32, UInt32.toNat_ofNat', UInt32.toNat_ofNat']
  omega

/-! ## Players -/

theorem findSeat_toGo (players : List Ts.PlayerState) (seat : Int) :
    Go.findSeat (players.map Ts.PlayerState.toGo) seat =
      (Ts.findSeat players seat).map (Prod.map id Ts.PlayerState.toGo) := by
  have hidx : (players.map Ts.PlayerState.toGo).findIdx? (fun p => p.seat == seat) =
      players.findIdx? (fun p => (p.seat.val : Int) == seat) := by
    rw [List.findIdx?_map]
    rfl
  simp only [Go.findSeat, Ts.findSeat, hidx]
  cases players.findIdx? (fun p => (p.seat.val : Int) == seat) with
  | none => rfl
  | some idx =>
      simp only [List.getElem?_map, Option.map_map]
      rfl

theorem toGo_set (players : List Ts.PlayerState) (i : Nat) (p : Ts.PlayerState) :
    (players.map Ts.PlayerState.toGo).set i p.toGo = (players.set i p).map Ts.PlayerState.toGo :=
  List.map_set.symm

theorem any_seat_toGo (players : List Ts.PlayerState) (seat : SafeNat) :
    (players.map Ts.PlayerState.toGo).any (fun p => p.seat == (seat.val : Int)) =
      players.any (fun p => p.seat == seat) := by
  rw [List.any_map]
  congr 1
  funext p
  rw [Function.comp_apply, Bool.eq_iff_iff, beq_iff_eq, beq_iff_eq]
  show ((p.seat.val : Int) = seat.val) ↔ p.seat = seat
  constructor
  · intro h
    exact SafeNat.ext (by omega)
  · intro h
    rw [h]

/-! ## The handlers -/

section Handlers

variable {ruleSet : Ts.RuleSet} {state : Ts.RoundState}

theorem agree_join {a : Ts.JoinAction}
    (hrange : InRange (a.actingPlayerSeat.getD state.players.length))
    (hstake : InRange a.stakeAmount) :
    Agree (Ts.applyJoin state a ruleSet)
      (Go.applyJoin state.toGo (Ts.SignedAction.join a).toGo ruleSet.toGo) := by
  -- the seat is one both languages hold
  obtain ⟨seat, hval⟩ : ∃ seat : SafeNat,
      (seat.val : Int) = a.actingPlayerSeat.getD state.players.length := by
    cases h : SafeNat.ofInt? (a.actingPlayerSeat.getD state.players.length) with
    | none =>
        rcases SafeNat.ofInt?_eq_none.mp h with h | h
        · have := hrange.1
          omega
        · have := hrange.2
          omega
    | some seat => exact ⟨seat, SafeNat.ofInt?_eq_some.mp h⟩
  have hts : Ts.asSeat (a.actingPlayerSeat.getD state.players.length) = .ok seat :=
    Ts.asSafeNat_eq_ok.mpr hval
  have hgo : (Ts.SignedAction.join a).toGo.actingPlayerSeat.getD (state.players.length : Int) =
      seat.val := hval.symm
  have hclass : state.toGo.stateClass = state.stateClass := rfl
  have hlen : state.toGo.players.length = state.players.length := List.length_map ..
  have hamount : (Ts.SignedAction.join a).toGo.stakeAmount = ruleSet.toGo.stakeAmount ↔
      a.stakeAmount = ruleSet.stakeAmount.val := amount_eq_iff hstake ruleSet.stakeAmount
  have hany : state.toGo.players.any (fun p => p.seat == (seat.val : Int)) =
      state.players.any (fun p => p.seat == seat) := any_seat_toGo state.players seat
  have hmax : ruleSet.toGo.playerCountMax = ruleSet.playerCountMax := rfl
  simp only [Ts.applyJoin, Go.applyJoin, hts, hgo, Outcome.ok_bind, hclass, hlen, hany, hmax,
    ne_eq, hamount]
  -- the checks in the order both handlers make them
  by_cases h1 : state.stateClass = .s1SeatOpen
  · by_cases h2 : a.stakeAmount = ruleSet.stakeAmount.val
    · by_cases h3 : ruleSet.playerCountMax ≤ (state.players.length : Int)
      · simp [h1, h2, h3]
      · by_cases h4 : state.players.any (fun p => p.seat == seat) = true
        · simp [h1, h2, h3, h4]
        · have hstake' : (Ts.SignedAction.join a).toGo.stakeAmount = uint64 ruleSet.stakeAmount :=
            hamount.mpr h2
          simp only [h1, h2, h3, h4, not_true_eq_false, Bool.false_eq_true, if_false, agree_ok_ok]
          simp only [Ts.RoundState.toGo, List.map_append, List.map_singleton, Ts.joinedPlayer,
            Go.joinedPlayer, Ts.PlayerState.toGo, hstake']
          rfl
    · simp [h1, h2]
  · simp [h1]

theorem agree_tableLock :
    Agree (Ts.applyTableLock state ruleSet) (Go.applyTableLock state.toGo ruleSet.toGo) := by
  have hclass : state.toGo.stateClass = state.stateClass := rfl
  have hlen : state.toGo.players.length = state.players.length := List.length_map ..
  have hmin : ruleSet.toGo.playerCountMin = ruleSet.playerCountMin := rfl
  simp only [Ts.applyTableLock, Go.applyTableLock, hclass, hlen, hmin]
  split
  · rfl
  · split
    · rfl
    · rfl

theorem agree_entropyCommit {a : Ts.EntropyCommitAction} :
    Agree (Ts.applyEntropyCommit state a)
      (Go.applyEntropyCommit state.toGo (Ts.SignedAction.entropyCommit a).toGo) := by
  have hclass : state.toGo.stateClass = state.stateClass := rfl
  have hseat : (Ts.SignedAction.entropyCommit a).toGo.actingPlayerSeat = a.actingPlayerSeat := rfl
  simp only [Ts.applyEntropyCommit, Go.applyEntropyCommit, hclass, hseat]
  split
  · rfl
  · cases a.actingPlayerSeat with
    | none => rfl
    | some seat =>
        have hfind : Go.findSeat state.toGo.players seat = _ := findSeat_toGo state.players seat
        simp only [hfind]
        cases hp : Ts.findSeat state.players seat with
        | none => rfl
        | some found =>
            obtain ⟨idx, p⟩ := found
            have hcommitted : p.toGo.entropyCommitted = p.entropyCommitted := rfl
            simp only [Option.map_some, Prod.map_apply, id_eq, hcommitted]
            split
            · rfl
            · have hset := toGo_set state.players idx { p with
                entropyCommitted := true, entropyCommitmentHash := some a.commitmentHash }
              have hall : ∀ players : List Ts.PlayerState,
                  (players.map Ts.PlayerState.toGo).all (·.entropyCommitted) =
                    players.all (·.entropyCommitted) := fun _ => List.all_map
              rw [agree_ok_ok]
              simp only [Ts.RoundState.toGo, Ts.RoundState.advance, Go.RoundState.advance, ← hset,
                ← hall]
              rfl

theorem agree_entropyReveal {a : Ts.EntropyRevealAction} :
    Agree (Ts.applyEntropyReveal state a)
      (Go.applyEntropyReveal state.toGo (Ts.SignedAction.entropyReveal a).toGo) := by
  have hclass : state.toGo.stateClass = state.stateClass := rfl
  have hseat : (Ts.SignedAction.entropyReveal a).toGo.actingPlayerSeat = a.actingPlayerSeat := rfl
  simp only [Ts.applyEntropyReveal, Go.applyEntropyReveal, hclass, hseat]
  split
  · rfl
  · cases a.actingPlayerSeat with
    | none => rfl
    | some seat =>
        have hfind : Go.findSeat state.toGo.players seat = _ := findSeat_toGo state.players seat
        simp only [hfind]
        cases hp : Ts.findSeat state.players seat with
        | none => rfl
        | some found =>
            obtain ⟨idx, p⟩ := found
            have hcommitted : p.toGo.entropyCommitted = p.entropyCommitted := rfl
            have hrevealed : p.toGo.entropyRevealed = p.entropyRevealed := rfl
            simp only [Option.map_some, Prod.map_apply, id_eq, hcommitted, hrevealed]
            split
            · rfl
            · split
              · rfl
              · have hset := toGo_set state.players idx { p with
                  entropyRevealed := true, entropyValue := some a.entropy,
                  participationStatus := .active }
                have hall : ∀ players : List Ts.PlayerState,
                    (players.map Ts.PlayerState.toGo).all (·.entropyRevealed) =
                      players.all (·.entropyRevealed) := fun _ => List.all_map
                rw [agree_ok_ok]
                simp only [Ts.RoundState.toGo, Ts.RoundState.advance, Go.RoundState.advance,
                  ← hset, ← hall]
                rfl

theorem agree_cardReveal {a : Ts.CardRevealAction} :
    Agree (Ts.applyCardReveal state a)
      (Go.applyCardReveal state.toGo (Ts.SignedAction.cardReveal a).toGo) := by
  have hclass : state.toGo.stateClass = state.stateClass := rfl
  simp only [Ts.applyCardReveal, Go.applyCardReveal, hclass]
  cases state.stateClass with
  | s6CardRevealFirst =>
      simp only [agree_ok_ok]
      cases hacting : state.actingPlayerSeat with
      | none =>
          simp only [Ts.RoundState.toGo, Ts.RoundState.advance, Go.RoundState.advance, hacting,
            Option.map_none, List.head?_map, Option.map_map]
          rfl
      | some seat =>
          simp only [Ts.RoundState.toGo, Ts.RoundState.advance, Go.RoundState.advance, hacting,
            Option.map_some]
          rfl
  | _ => rfl

theorem agree_pass : Agree (Ts.applyPass state) (Go.applyPass state.toGo) := by
  have hclass : state.toGo.stateClass = state.stateClass := rfl
  simp only [Ts.applyPass, Go.applyPass, hclass]
  split
  · rfl
  · rfl

theorem agree_tableClose : Agree (Ts.applyTableClose state) (Go.applyTableClose state.toGo) := by
  have hclass : state.toGo.stateClass = state.stateClass := rfl
  simp only [Ts.applyTableClose, Go.applyTableClose, hclass]
  split
  · rfl
  · rfl

theorem agree_timeout {height : SafeNat} (hheight : height.val < 2 ^ 32)
    (hdeadline : ∀ d, state.decisionDeadlineBlockHeight = some d → d.val < 2 ^ 32) :
    Agree (Ts.applyTimeout state height) (Go.applyTimeout state.toGo (uint32 height)) := by
  have hclass : state.toGo.stateClass = state.stateClass := rfl
  have hdue : state.toGo.decisionDeadlineBlockHeight =
      state.decisionDeadlineBlockHeight.map uint32 := rfl
  simp only [Ts.applyTimeout, Go.applyTimeout, hclass, hdue]
  split
  · rfl
  · cases hd : state.decisionDeadlineBlockHeight with
    | none => rfl
    | some deadline =>
        simp only [Option.map_some, uint32_lt_iff hheight (hdeadline deadline hd)]
        split
        · rfl
        · rfl

theorem agree_recovery {height : SafeNat} (hheight : height.val < 2 ^ 32)
    (hdeadline : ∀ d, state.recoveryDeadlineBlockHeight = some d → d.val < 2 ^ 32) :
    Agree (Ts.applyRecovery state height) (Go.applyRecovery state.toGo (uint32 height)) := by
  have hdue : state.toGo.recoveryDeadlineBlockHeight =
      state.recoveryDeadlineBlockHeight.map uint32 := rfl
  simp only [Ts.applyRecovery, Go.applyRecovery, hdue]
  cases hd : state.recoveryDeadlineBlockHeight with
  | none => rfl
  | some deadline =>
      simp only [Option.map_some, uint32_lt_iff hheight (hdeadline deadline hd)]
      split
      · rfl
      · rw [agree_ok_ok]
        simp only [Ts.RoundState.toGo, hd]
        rfl

/-! ## Where they differ -/

/-- An empty concealed deck is a dealt deck to `concealed_deck !== null`
and no deck to `len(state.ConcealedDeck) > 0`. -/
def DealDiverges (ruleSet : Ts.RuleSet) (state : Ts.RoundState)
    (a : Ts.DealConcealedAction) : Prop :=
  state.stateClass = .s5DeckCommitted ∧ state.concealedDeck = some [] ∧
    (a.concealedCards.length : Int) = ruleSet.deckFormat ∧
    checkPositions ruleSet.deckFormat [] a.concealedCards = none

theorem agree_dealConcealed_iff {a : Ts.DealConcealedAction} :
    Agree (Ts.applyDealConcealed state a ruleSet)
      (Go.applyDealConcealed state.toGo (Ts.SignedAction.dealConcealed a).toGo ruleSet.toGo) ↔
      ¬DealDiverges ruleSet state a := by
  have hclass : state.toGo.stateClass = state.stateClass := rfl
  have hdeck : state.toGo.concealedDeck = state.concealedDeck := rfl
  have hcards : (Ts.SignedAction.dealConcealed a).toGo.concealedCards = a.concealedCards := rfl
  have hformat : ruleSet.toGo.deckFormat = ruleSet.deckFormat := rfl
  simp only [Ts.applyDealConcealed, Go.applyDealConcealed, hclass, hdeck, hcards, hformat,
    DealDiverges]
  by_cases h1 : state.stateClass = .s5DeckCommitted
  · by_cases h2 : (a.concealedCards.length : Int) = ruleSet.deckFormat
    · cases h3 : checkPositions ruleSet.deckFormat [] a.concealedCards with
      | some e =>
          cases h4 : state.concealedDeck with
          | none => simp [h1, h2, Go.sliceLen]
          | some deck =>
              have hcode := checkPositions_code h3
              cases deck with
              | nil => simp [h1, h2, Go.sliceLen, hcode]
              | cons c rest => simp [h1, Go.sliceLen]
      -- a good deal is refused by TypeScript alone when the deck is `[]`
      | none =>
          cases h4 : state.concealedDeck with
          | none =>
              simp [h1, h2, Go.sliceLen]
              rfl
          | some deck =>
              cases deck with
              | nil => simp [h1, h2, Go.sliceLen]
              | cons c rest => simp [h1, Go.sliceLen]
    · cases h4 : state.concealedDeck with
      | none => simp [h1, h2, Go.sliceLen]
      | some deck =>
          cases deck with
          | nil => simp [h1, h2, Go.sliceLen]
          | cons c rest => simp [h1, Go.sliceLen]
  · simp [h1]

/-- With an empty concealed deck TypeScript looks for the player first and
Go for a deck. -/
def FoldDiverges (state : Ts.RoundState) (a : Ts.SignedActionBase) : Prop :=
  (state.stateClass = .s8BetDecision ∨ state.stateClass = .s7CardRevealSecond) ∧
    state.concealedDeck = some [] ∧
    ∃ seat, a.actingPlayerSeat = some seat ∧ Ts.findSeat state.players seat = none

theorem agree_fold_iff {a : Ts.SignedActionBase} :
    Agree (Ts.applyFold state a) (Go.applyFold state.toGo (Ts.SignedAction.fold a).toGo) ↔
      ¬FoldDiverges state a := by
  have hclass : state.toGo.stateClass = state.stateClass := rfl
  have hseat : (Ts.SignedAction.fold a).toGo.actingPlayerSeat = a.actingPlayerSeat := rfl
  have hdeck : state.toGo.concealedDeck = state.concealedDeck := rfl
  simp only [Ts.applyFold, Go.applyFold, hclass, hseat, hdeck, FoldDiverges]
  by_cases h1 : state.stateClass = .s8BetDecision ∨ state.stateClass = .s7CardRevealSecond
  · have h1' : ¬(state.stateClass ≠ .s8BetDecision ∧ state.stateClass ≠ .s7CardRevealSecond) := by
      rcases h1 with h1 | h1
      · simp [h1]
      · simp [h1]
    simp only [h1', if_false, h1, true_and]
    cases a.actingPlayerSeat with
    | none => simp
    | some seat =>
        have hfind : Go.findSeat state.toGo.players seat = _ := findSeat_toGo state.players seat
        cases h2 : state.concealedDeck with
        | none => simp [Go.sliceLen]
        | some deck =>
            cases deck with
            -- the two handlers look for the player and for the deck in opposite order
            | nil =>
                cases h3 : Ts.findSeat state.players seat with
                | none => simp [Go.sliceLen, h3]
                | some found => simp [Go.sliceLen, h3]
            | cons c rest =>
                simp only [hfind]
                cases h3 : Ts.findSeat state.players seat with
                | none => simp [Go.sliceLen]
                | some found =>
                    obtain ⟨idx, p⟩ := found
                    have hholder : p.toGo.valueSigningPubkey = p.valueSigningPubkey := rfl
                    by_cases h4 : (c :: rest).any (isHeldConcealed p.valueSigningPubkey) = false
                    · simp [Go.sliceLen, hholder, h4]
                    · have hset := toGo_set state.players idx
                        { p with participationStatus := .folded }
                      simp only [Option.map_some, Prod.map_apply, id_eq, hholder, Go.sliceLen,
                        Option.getD_some, List.length_cons, Nat.succ_ne_zero, if_false, h4,
                        agree_ok_ok, Option.some.injEq, reduceCtorEq, false_and, not_false_eq_true,
                        iff_true]
                      simp only [Ts.RoundState.toGo, Ts.RoundState.advance,
                        Go.RoundState.advance, ← hset]
                      rfl
  · have h1' : state.stateClass ≠ .s8BetDecision ∧ state.stateClass ≠ .s7CardRevealSecond :=
      ⟨fun h => h1 (.inl h), fun h => h1 (.inr h)⟩
    simp [h1']

/-- The pot leaves the safe integers: `addToPot` throws. -/
def BetDiverges (ruleSet : Ts.RuleSet) (state : Ts.RoundState) (a : Ts.BetAction) : Prop :=
  state.stateClass = .s8BetDecision ∧ ruleSet.minBet.val ≤ a.betAmount ∧
    a.betAmount ≤ ruleSet.maxBet.val ∧ (maxSafeInteger : Int) < state.potValue.val + a.betAmount

/-- Two safe amounts add up without reaching `math.MaxInt64`. -/
theorem go_addToPot {pot : SafeNat} {bet : Int} (hbet : InRange bet) :
    Go.addToPot (uint64 pot) (UInt64.ofNat bet.toNat) =
      .ok (uint64 pot + UInt64.ofNat bet.toNat) := by
  have hpot := uint64_toNat pot
  have hmax := pot.isLe
  have hamount := amount_toNat hbet
  obtain ⟨h0, hle⟩ := hbet
  simp only [maxSafeInteger] at hmax hle
  have hsum : ¬(9223372036854775807 : UInt64) < uint64 pot + UInt64.ofNat bet.toNat := by
    rw [UInt64.lt_iff_toNat_lt, UInt64.toNat_add]
    have : (9223372036854775807 : UInt64).toNat = 9223372036854775807 := rfl
    omega
  simp only [Go.addToPot, hsum, if_false]

theorem uint64_add {pot next : SafeNat} {bet : Int} (hbet : InRange bet)
    (h : (next.val : Int) = pot.val + bet) :
    uint64 pot + UInt64.ofNat bet.toNat = uint64 next := by
  have hpot := uint64_toNat pot
  have hnext := uint64_toNat next
  have hmax := next.isLe
  have hamount := amount_toNat hbet
  simp only [maxSafeInteger] at hmax
  rw [← UInt64.toNat_inj, UInt64.toNat_add]
  omega

theorem agree_bet_iff {a : Ts.BetAction} (hbet : InRange a.betAmount) :
    Agree (Ts.applyBet state a ruleSet)
      (Go.applyBet state.toGo (Ts.SignedAction.betAction a).toGo ruleSet.toGo) ↔
      ¬BetDiverges ruleSet state a := by
  have hclass : state.toGo.stateClass = state.stateClass := rfl
  have hlow : (Ts.SignedAction.betAction a).toGo.betAmount < ruleSet.toGo.minBet ↔
      a.betAmount < ruleSet.minBet.val := amount_lt_iff hbet ruleSet.minBet
  have hhigh : ruleSet.toGo.maxBet < (Ts.SignedAction.betAction a).toGo.betAmount ↔
      ruleSet.maxBet.val < a.betAmount := lt_amount_iff hbet ruleSet.maxBet
  have hadd : Go.addToPot state.toGo.potValue (Ts.SignedAction.betAction a).toGo.betAmount = _ :=
    go_addToPot hbet
  simp only [Ts.applyBet, Go.applyBet, hclass, hlow, hhigh, hadd, BetDiverges]
  by_cases h1 : state.stateClass = .s8BetDecision
  · by_cases h2 : a.betAmount < ruleSet.minBet.val ∨ ruleSet.maxBet.val < a.betAmount
    · have hrange : ¬((ruleSet.minBet.val : Int) ≤ a.betAmount ∧
          a.betAmount ≤ ruleSet.maxBet.val ∧
            (maxSafeInteger : Int) < state.potValue.val + a.betAmount) := by omega
      simp [h1, h2, hrange]
    · have hrange : (ruleSet.minBet.val : Int) ≤ a.betAmount ∧
          a.betAmount ≤ ruleSet.maxBet.val := by omega
      have h0 := hbet.1
      rcases Ts.addToPot_cases state.potValue a.betAmount with
        ⟨pot, hpot, hsum⟩ | ⟨k, hk, hover⟩
      · have hnext := uint64_add hbet hsum
        have hmax := pot.isLe
        have hfits : ¬(maxSafeInteger : Int) < state.potValue.val + a.betAmount := by omega
        simp only [h1, h2, hpot, hfits, ne_eq, not_true_eq_false, if_false, Outcome.ok_bind,
          agree_ok_ok, and_false, not_false_eq_true, iff_true]
        simp only [Ts.RoundState.toGo, Ts.RoundState.advance, Go.RoundState.advance, ← hnext]
      · have hover : (maxSafeInteger : Int) < state.potValue.val + a.betAmount := by omega
        simp [h1, h2, hk, hrange.1, hrange.2, hover]
  · simp [h1]

/-- The round number leaves the safe integers: `asRoundNumber` throws. -/
def RotateDiverges (state : Ts.RoundState) : Prop :=
  state.stateClass = .s11RotateTurn ∧ state.roundNumber.val = maxSafeInteger ∧
    ∃ firstSeat rest, Ts.sortedSeats state.players = firstSeat :: rest ∧
      ¬(state.actingPlayerSeat ≠ none ∧
        seatAfter (firstSeat :: rest) firstSeat state.actingPlayerSeat = firstSeat)

/-- At a table that can be reached it never happens: the round is the
number of positions the turn has moved, and the last one closes the
table. -/
theorem not_rotateDiverges (hwf : state.table.WF) : ¬RotateDiverges state := by
  intro h
  obtain ⟨hclass, hround, firstSeat, rest, hseats, hwrap⟩ := h
  have hinv := hwf.phaseInv
  simp only [Table.PhaseInv, Ts.RoundState.table, hclass] at hinv
  obtain ⟨first, x, _, hx, hmem, _, hpos⟩ := hinv
  cases hacting : state.actingPlayerSeat with
  | none => simp [hacting] at hx
  | some acting =>
      simp only [hacting, Option.map_some, Option.some.injEq] at hx
      have hin : acting ∈ Ts.sortedSeats state.players := by
        rw [Ts.mem_sortedSeats, hx]
        exact hmem
      have hlen := Ts.length_sortedSeats hwf
      have hring : (acting.val : Int) ∈ state.table.ring := by
        rw [Table.mem_ring, hx]
        exact hmem
      have hlast : nextOnRing state.table.ring acting.val ≠ none := by
        rw [Ts.nextOnRing_table, ne_eq, Option.map_eq_none_iff, hseats]
        rw [hseats] at hin
        intro hnone
        apply hwrap
        rw [hacting, Table.seatAfter_some hin, hnone]
        exact ⟨Option.some_ne_none _, rfl⟩
      rw [ne_eq, nextOnRing_eq_none hring] at hlast
      have hlt := List.idxOf_lt_length_of_mem hring
      have hringLen : state.table.ring.length = (Ts.sortedSeats state.players).length := by
        rw [Ts.ring_eq, List.length_map]
      have hidx : (state.table.ring.idxOf (acting.val : Int) : Int) =
          state.table.ring.idxOf first + state.roundNumber.val := by
        rw [hx]
        exact hpos
      omega

theorem sortSeats_toGo (players : List Ts.PlayerState) :
    Go.sortSeats ((players.map Ts.PlayerState.toGo).map (·.seat)) =
      (Ts.sortedSeats players).map (fun seat => (seat.val : Int)) := by
  apply sorted_perm_unique (Go.sortSeats_sorted _)
  · exact List.pairwise_map.mpr (Ts.sortedSeats_sorted players)
  · refine (Go.sortSeats_perm _).trans ?_
    have h := (Ts.sortedSeats_perm players).symm.map (fun seat => (seat.val : Int))
    rw [List.map_map] at h ⊢
    exact h

theorem agree_rotateTurn_iff :
    Agree (Ts.applyRotateTurn state) (Go.applyRotateTurn state.toGo) ↔
      ¬RotateDiverges state := by
  have hclass : state.toGo.stateClass = state.stateClass := rfl
  have hseats : Go.sortSeats (state.toGo.players.map (·.seat)) = _ :=
    sortSeats_toGo state.players
  have hacting : state.toGo.actingPlayerSeat =
      state.actingPlayerSeat.map (fun seat => (seat.val : Int)) := rfl
  simp only [Ts.applyRotateTurn, Go.applyRotateTurn, hclass, hseats, RotateDiverges]
  by_cases h1 : state.stateClass = .s11RotateTurn
  · cases h2 : Ts.sortedSeats state.players with
    | nil => simp [h1]
    | cons firstSeat rest =>
        have hnext := Table.seatAfter_map (f := fun seat : SafeNat => (seat.val : Int))
          (fun _ _ h => Ts.seatInt_inj h) (firstSeat :: rest) firstSeat state.actingPlayerSeat
        rw [← hacting] at hnext
        simp only [List.map_cons] at hnext ⊢
        rw [hnext]
        have hnone : state.toGo.actingPlayerSeat = none ↔ state.actingPlayerSeat = none := by
          rw [hacting, Option.map_eq_none_iff]
        have hfirst : (((seatAfter (firstSeat :: rest) firstSeat
            state.actingPlayerSeat).val : Int) = firstSeat.val) ↔
              seatAfter (firstSeat :: rest) firstSeat state.actingPlayerSeat = firstSeat :=
          ⟨fun h => Ts.seatInt_inj h, fun h => by rw [h]⟩
        by_cases h3 : state.actingPlayerSeat ≠ none ∧
            seatAfter (firstSeat :: rest) firstSeat state.actingPlayerSeat = firstSeat
        · simp only [h1, ne_eq, not_true_eq_false, if_false, h3, hnone, if_true,
            not_false_eq_true, and_self, agree_ok_ok, true_and]
          simp [h3]
          rfl
        · have h3' : ¬(state.toGo.actingPlayerSeat ≠ none ∧
              ((seatAfter (firstSeat :: rest) firstSeat
                state.actingPlayerSeat).val : Int) = firstSeat.val) := by
            rw [hfirst, ne_eq, hnone]
            exact h3
          have hmax := state.roundNumber.isLe
          -- only the round number can leave the range of one language
          rcases Ts.asSafeNat_toDouble_cases "asRoundNumber" (state.roundNumber.val + 1) with
            ⟨round, hround, hval⟩ | ⟨k, hk, hover⟩
          · have h4 : ¬state.roundNumber.val = maxSafeInteger := by
              have := round.isLe
              omega
            simp only [h1, ne_eq, not_true_eq_false, if_false, h3, h3', h4, Ts.asRoundNumber,
              hround, Outcome.ok_bind, agree_ok_ok, false_and, and_false, not_false_eq_true,
              iff_true]
            simp only [Ts.RoundState.toGo, hval]
            rfl
          · have h4 : state.roundNumber.val = maxSafeInteger := by omega
            refine iff_of_false ?_ (not_not_intro ⟨h1, h4, firstSeat, rest, rfl, h3⟩)
            simp only [h1, ne_eq, not_true_eq_false, if_false, h3, h3', Ts.asRoundNumber, hk,
              Outcome.halt_bind, agree_halt, not_false_eq_true]
  · simp [h1]

/-! ### Settlement -/

/-- The two classifications compute the same class. -/
theorem classify_agree (cards : List RevealedCard) (h : cards.length = 3) :
    ∃ cls, Ts.classifyInBetweenRound cards = .ok cls ∧
      Go.classifyInBetweenRound cards = .ok cls := by
  match cards, h with
  | [a, b, c], _ =>
      simp only [Ts.classifyInBetweenRound, Go.classifyInBetweenRound]
      by_cases h1 : a.ordinal.tmod 13 = b.ordinal.tmod 13
      · simp [h1]
      · have hdiff : (if a.ordinal.tmod 13 - b.ordinal.tmod 13 < 0
            then -(a.ordinal.tmod 13 - b.ordinal.tmod 13)
            else a.ordinal.tmod 13 - b.ordinal.tmod 13) = 1 ↔
              (a.ordinal.tmod 13 - b.ordinal.tmod 13).natAbs = 1 := by
          split
          · omega
          · omega
        by_cases h2 : (a.ordinal.tmod 13 - b.ordinal.tmod 13).natAbs = 1
        · simp only [h1, hdiff, h2, if_false, if_true]
          exact ⟨_, rfl, rfl⟩
        · have hlow : (if b.ordinal.tmod 13 < a.ordinal.tmod 13 then b.ordinal.tmod 13
              else a.ordinal.tmod 13) = min (a.ordinal.tmod 13) (b.ordinal.tmod 13) := by
            split
            · omega
            · omega
          have hhigh : (if b.ordinal.tmod 13 < a.ordinal.tmod 13 then a.ordinal.tmod 13
              else b.ordinal.tmod 13) = max (a.ordinal.tmod 13) (b.ordinal.tmod 13) := by
            split
            · omega
            · omega
          simp only [h1, hdiff, h2, hlow, hhigh, if_false]
          split
          · exact ⟨_, rfl, rfl⟩
          · exact ⟨_, rfl, rfl⟩

/-- The change of the acting player's stake before any rounding. -/
def exactDelta (outcome : SettlementOutcome) (bet : SafeNat) (rules : Ts.SettlementRules) : Int :=
  match outcome with
  | .win => bet.val * rules.inBetweenWinMultiplier
  | .loss => -(bet.val * rules.inBetweenLossMultiplier)
  | .pass => 0
  | .consecutivePenalty => -rules.consecutiveCardsPenalty.val
  | .equalPenalty => -rules.equalCardsPenalty.val

theorem uint64_toInt64 (n : SafeNat) : (uint64 n).toInt64 = Int64.ofInt n.val := by
  apply Int64.toBitVec.inj
  simp [uint64]

theorem go_transfer (outcome : SettlementOutcome) (bet : SafeNat) (rules : Ts.SettlementRules) :
    Go.computeValueTransfer outcome (uint64 bet) rules.toGo =
      ⟨Int64.ofInt (exactDelta outcome bet rules),
        Int64.ofInt (-exactDelta outcome bet rules)⟩ := by
  cases outcome with
  | win | loss =>
      simp only [Go.computeValueTransfer, exactDelta, Ts.SettlementRules.toGo, uint64_toInt64,
        Int64.ofInt_mul, Int64.ofInt_neg, Int.neg_neg]
  | pass => rfl
  | consecutivePenalty | equalPenalty =>
      simp only [Go.computeValueTransfer, exactDelta, Ts.SettlementRules.toGo, uint64_toInt64,
        Int64.ofInt_neg, Int.neg_neg]

/-- Rounding a product does not change what the checks of `applySettle`
see. -/
theorem ts_transfer (outcome : SettlementOutcome) (bet : SafeNat) (rules : Ts.SettlementRules)
    (amount : SafeNat) :
    SafeNat.ofInt? (toDouble (amount.val +
        (Ts.computeValueTransfer outcome bet rules).playerDelta)) =
      SafeNat.ofInt? (amount.val + exactDelta outcome bet rules) ∧
    SafeNat.ofInt? (toDouble (amount.val +
        (Ts.computeValueTransfer outcome bet rules).potDelta)) =
      SafeNat.ofInt? (amount.val + -exactDelta outcome bet rules) := by
  cases outcome with
  | win => exact ⟨SafeNat.ofInt?_toDouble_add _ _, SafeNat.ofInt?_toDouble_sub _ _⟩
  | loss =>
      refine ⟨SafeNat.ofInt?_toDouble_sub _ _, ?_⟩
      rw [exactDelta, Int.neg_neg]
      exact SafeNat.ofInt?_toDouble_add _ _
  | pass => exact ⟨SafeNat.ofInt?_toDouble _, SafeNat.ofInt?_toDouble _⟩
  | consecutivePenalty | equalPenalty =>
      refine ⟨SafeNat.ofInt?_toDouble _, ?_⟩
      rw [exactDelta, Int.neg_neg]
      exact SafeNat.ofInt?_toDouble _

/-- A safe amount read as an `int64` is not negative and comes back. -/
theorem int64_of_inRange {n : Int} (h : InRange n) :
    ¬Int64.ofInt n < 0 ∧ (Int64.ofInt n).toUInt64 = UInt64.ofNat n.toNat := by
  obtain ⟨h0, hmax⟩ := h
  simp only [maxSafeInteger] at hmax
  constructor
  · rw [Int64.lt_iff_toInt_lt, Int64.toInt_ofInt_of_le (by omega) (by omega)]
    simp
    omega
  · obtain ⟨k, rfl⟩ := Int.eq_ofNat_of_zero_le h0
    apply UInt64.toBitVec_inj.mp
    simp only [Int64.toBitVec_toUInt64, Int64.toBitVec_ofInt, BitVec.ofInt_natCast,
      Int.toNat_natCast]
    rfl

theorem toGo_seat (p : Ts.PlayerState) (acting : SafeNat) :
    p.toGo.seat = acting.val ↔ p.seat = acting :=
  ⟨fun h => Ts.seatInt_inj h, fun h => by rw [← h]; rfl⟩

/-- The settlement loop of Go pays everyone or rejects a negative
balance. -/
theorem go_settlePlayers_cases (acting : Int) (delta : Int64) (players : List Go.PlayerState) :
    (∃ out, Go.settlePlayers acting delta players = .ok out ∧
        ∀ p ∈ players, p.seat = acting → ¬p.stakeAtRisk.toInt64 + delta < 0) ∨
      (∃ e, Go.settlePlayers acting delta players = .error e ∧
        e.code = .invalidStateTransition ∧
        ∃ p ∈ players, p.seat = acting ∧ p.stakeAtRisk.toInt64 + delta < 0) := by
  induction players with
  | nil => exact .inl ⟨[], rfl, by simp⟩
  | cons p rest ih =>
      by_cases hseat : p.seat = acting
      · by_cases hneg : p.stakeAtRisk.toInt64 + delta < 0
        · refine .inr ⟨⟨.invalidStateTransition, "settlement produces negative balance"⟩, ?_,
            rfl, p, List.mem_cons_self .., hseat, hneg⟩
          simp [Go.settlePlayers, hseat, hneg]
        · rcases ih with ⟨out, hout, hall⟩ | ⟨e, he, hcode, q, hq, hrest⟩
          · refine .inl ⟨_, by simp only [Go.settlePlayers, hseat, hneg, hout, ne_eq,
              not_true_eq_false, if_false]; rfl, ?_⟩
            rw [List.forall_mem_cons]
            exact ⟨fun _ => hneg, hall⟩
          · refine .inr ⟨e, ?_, hcode, q, List.mem_cons_of_mem p hq, hrest⟩
            simp [Go.settlePlayers, hseat, hneg, he]
      · rcases ih with ⟨out, hout, hall⟩ | ⟨e, he, hcode, q, hq, hrest⟩
        · refine .inl ⟨p :: out, by simp [Go.settlePlayers, hseat, hout], ?_⟩
          rw [List.forall_mem_cons]
          exact ⟨fun h => absurd h hseat, hall⟩
        · refine .inr ⟨e, ?_, hcode, q, List.mem_cons_of_mem p hq, hrest⟩
          simp [Go.settlePlayers, hseat, he]

theorem stake_toGo (p : Ts.PlayerState) (exact : Int) :
    p.toGo.stakeAtRisk.toInt64 + Int64.ofInt exact =
      Int64.ofInt (p.stakeAtRisk.val + exact) := by
  rw [Int64.ofInt_add, ← uint64_toInt64]
  rfl

/-- The same for players carried over from TypeScript. -/
theorem go_settlePlayers_toGo (acting : SafeNat) (exact : Int) (players : List Ts.PlayerState) :
    (∃ out, Go.settlePlayers acting.val (Int64.ofInt exact)
          (players.map Ts.PlayerState.toGo) = .ok out ∧
        ∀ p ∈ players, p.seat = acting → ¬Int64.ofInt (p.stakeAtRisk.val + exact) < 0) ∨
      (∃ e, Go.settlePlayers acting.val (Int64.ofInt exact)
          (players.map Ts.PlayerState.toGo) = .error e ∧
        e.code = .invalidStateTransition ∧
        ∃ p ∈ players, p.seat = acting ∧ Int64.ofInt (p.stakeAtRisk.val + exact) < 0) := by
  rcases go_settlePlayers_cases (acting.val : Int) (Int64.ofInt exact)
    (players.map Ts.PlayerState.toGo) with ⟨out, hout, hall⟩ | ⟨e, he, hcode, q, hq, hseat, hneg⟩
  · refine .inl ⟨out, hout, ?_⟩
    intro p hp hseat
    rw [← stake_toGo]
    exact hall p.toGo (List.mem_map_of_mem hp) ((toGo_seat p acting).mpr hseat)
  · obtain ⟨p, hp, rfl⟩ := List.mem_map.mp hq
    rw [stake_toGo] at hneg
    exact .inr ⟨e, he, hcode, p, hp, (toGo_seat p acting).mp hseat, hneg⟩

/-- The settlement loop of TypeScript pays everyone, and then Go pays the
same, or it throws on a balance out of range. -/
theorem settlePlayers_agree {acting : SafeNat} {delta exact : Int}
    (hround : ∀ stake : SafeNat, SafeNat.ofInt? (toDouble (stake.val + delta)) =
      SafeNat.ofInt? (stake.val + exact)) (players : List Ts.PlayerState) :
    (∃ out, Ts.settlePlayers acting delta players = .ok out ∧
        Go.settlePlayers acting.val (Int64.ofInt exact) (players.map Ts.PlayerState.toGo) =
          .ok (out.map Ts.PlayerState.toGo) ∧
        ∀ p ∈ players, p.seat = acting → InRange (p.stakeAtRisk.val + exact)) ∨
      (∃ k, Ts.settlePlayers acting delta players = .halt k ∧
        ∃ p ∈ players, p.seat = acting ∧ ¬InRange (p.stakeAtRisk.val + exact)) := by
  -- along the loop; the first bad balance ends it in TypeScript
  induction players with
  | nil => exact .inl ⟨[], rfl, rfl, by simp⟩
  | cons p rest ih =>
      have hgoSeat := toGo_seat p acting
      by_cases hseat : p.seat = acting
      · cases hnext : SafeNat.ofInt? (p.stakeAtRisk.val + exact) with
        | none =>
            have hout := SafeNat.ofInt?_eq_none.mp hnext
            have hunsafe : isSafeInteger (toDouble (p.stakeAtRisk.val + delta)) = false ∨
                toDouble (p.stakeAtRisk.val + delta) < 0 := by
              rw [SafeNat.not_safe_or_neg_iff, hround]
              exact hnext
            refine .inr ⟨"settlement produces negative balance", ?_,
              p, List.mem_cons_self .., hseat, ?_⟩
            · simp [Ts.settlePlayers, hseat, hunsafe]
            · intro hin
              have := hin.1
              have := hin.2
              omega
        | some stake =>
            have hval := SafeNat.ofInt?_eq_some.mp hnext
            have hin : InRange (p.stakeAtRisk.val + exact) := by
              have := stake.isLe
              exact ⟨by omega, by omega⟩
            -- rounding does not turn a good balance into a bad one
            have hsafe : ¬(isSafeInteger (toDouble (p.stakeAtRisk.val + delta)) = false ∨
                toDouble (p.stakeAtRisk.val + delta) < 0) := by
              rw [SafeNat.not_safe_or_neg_iff, hround, hnext]
              simp
            have hts : Ts.asSatoshis (toDouble (p.stakeAtRisk.val + delta)) = .ok stake := by
              rw [Ts.asSatoshis, Ts.asSafeNat_eq_ok, ← SafeNat.ofInt?_eq_some, hround, hnext]
            rcases ih with ⟨out, hout, hgo, hall⟩ | ⟨k, hk, q, hq, hrest⟩
            · refine .inl ⟨{ p with stakeAtRisk := stake } :: out, ?_, ?_, ?_⟩
              · simp [Ts.settlePlayers, hseat, hsafe, hts, hout]
              · obtain ⟨hnonneg, hback⟩ := int64_of_inRange hin
                have hsum := stake_toGo p exact
                have hstake : (Int64.ofInt (p.stakeAtRisk.val + exact)).toUInt64 =
                    uint64 stake := by
                  rw [hback, ← hval]
                  rfl
                subst hseat
                simp only [List.map_cons, Go.settlePlayers, ne_eq, hgoSeat, not_true_eq_false,
                  if_false, hsum, hnonneg, hgo, hstake]
                rfl
              · rw [List.forall_mem_cons]
                exact ⟨fun _ => hin, hall⟩
            · refine .inr ⟨k, ?_, q, List.mem_cons_of_mem p hq, hrest⟩
              simp [Ts.settlePlayers, hseat, hsafe, hts, hk]
      · rcases ih with ⟨out, hout, hgo, hall⟩ | ⟨k, hk, q, hq, hrest⟩
        · refine .inl ⟨p :: out, by simp [Ts.settlePlayers, hseat, hout], ?_, ?_⟩
          · simp [Go.settlePlayers, hgoSeat, hseat, hgo]
          · rw [List.forall_mem_cons]
            exact ⟨fun h => absurd h hseat, hall⟩
        · refine .inr ⟨k, ?_, q, List.mem_cons_of_mem p hq, hrest⟩
          simp [Ts.settlePlayers, hseat, hk]

/-- `applySettle` throws on a balance out of range, and a pot out of range
that TypeScript rejects can come round to a positive `int64`. -/
def SettleDiverges (ruleSet : Ts.RuleSet) (state : Ts.RoundState) : Prop :=
  state.stateClass = .s10SettledRound ∧ state.visibleCards.length = 3 ∧
    ∃ acting cls, state.actingPlayerSeat = some acting ∧
      Ts.classifyInBetweenRound state.visibleCards = .ok cls ∧
      let exact := exactDelta cls.outcome state.potValue ruleSet.settlementRules
      (InRange (state.potValue.val + -exact) ∧
          ∃ p ∈ state.players, p.seat = acting ∧ ¬InRange (p.stakeAtRisk.val + exact)) ∨
        (¬InRange (state.potValue.val + -exact) ∧
          ¬Int64.ofInt (state.potValue.val + -exact) < 0 ∧
          ∀ p ∈ state.players, p.seat = acting → ¬Int64.ofInt (p.stakeAtRisk.val + exact) < 0)

theorem agree_settle_iff :
    Agree (Ts.applySettle state ruleSet) (Go.applySettle state.toGo ruleSet.toGo) ↔
      ¬SettleDiverges ruleSet state := by
  have hclass : state.toGo.stateClass = state.stateClass := rfl
  have hcards : state.toGo.visibleCards = state.visibleCards := rfl
  have hacting : state.toGo.actingPlayerSeat =
      state.actingPlayerSeat.map (fun seat => (seat.val : Int)) := rfl
  have hpotGo : state.toGo.potValue = uint64 state.potValue := rfl
  have hrules : ruleSet.toGo.settlementRules = ruleSet.settlementRules.toGo := rfl
  simp only [Ts.applySettle, Go.applySettle, hclass, hcards, hacting, hpotGo, hrules,
    SettleDiverges]
  by_cases h1 : state.stateClass = .s10SettledRound
  · by_cases h2 : state.visibleCards.length = 3
    · cases h3 : state.actingPlayerSeat with
      | none => simp [h1, h2]
      | some acting =>
          obtain ⟨cls, hts, hgo⟩ := classify_agree state.visibleCards h2
          have hpot := (ts_transfer cls.outcome state.potValue ruleSet.settlementRules
            state.potValue).2
          have hstake := fun stake => (ts_transfer cls.outcome state.potValue
            ruleSet.settlementRules stake).1
          have hnewPot : (uint64 state.potValue).toInt64 +
              Int64.ofInt (-exactDelta cls.outcome state.potValue ruleSet.settlementRules) =
                Int64.ofInt (state.potValue.val +
                  -exactDelta cls.outcome state.potValue ruleSet.settlementRules) := by
            rw [uint64_toInt64, Int64.ofInt_add]
          simp only [h1, h2, hts, hgo, ne_eq, not_true_eq_false, if_false, Outcome.ok_bind,
            Option.map_some, go_transfer, hnewPot, true_and, Option.some.injEq, Outcome.ok.injEq,
            exists_and_left, exists_eq_left']
          generalize exactDelta cls.outcome state.potValue ruleSet.settlementRules = exact at *
          cases hnext : SafeNat.ofInt? (state.potValue.val + -exact) with
          | none =>
              -- TypeScript rejects the pot
              rw [hnext, ← SafeNat.not_safe_or_neg_iff] at hpot
              have hout : ¬InRange (state.potValue.val + -exact) := by
                intro hin
                have := hin.1
                have := hin.2
                rcases SafeNat.ofInt?_eq_none.mp hnext with h | h
                · omega
                · omega
              simp only [hpot, if_true, hout, false_and, not_false_eq_true, true_and, false_or]
              by_cases h4 : Int64.ofInt (state.potValue.val + -exact) < 0
              · simp only [h4, if_true, agree_err_error, not_true_eq_false, false_and,
                  not_false_eq_true]
              · simp only [h4, if_false, not_false_eq_true, true_and]
                rcases go_settlePlayers_toGo acting exact state.players with
                  ⟨out, hgoOut, hall⟩ | ⟨e, he, hcode, q, hq, hseat, hbad⟩
                · simp only [Ts.RoundState.toGo, hgoOut, agree_err_ok, false_iff, not_not]
                  exact hall
                · simp only [Ts.RoundState.toGo, he, agree_err_error, hcode, true_iff]
                  intro hall
                  exact hall q hq hseat hbad
          | some pot =>
              have hval := SafeNat.ofInt?_eq_some.mp hnext
              have hin : InRange (state.potValue.val + -exact) := by
                have := pot.isLe
                exact ⟨by omega, by omega⟩
              rw [hnext] at hpot
              have hsafe := mt SafeNat.not_safe_or_neg_iff.mp (by rw [hpot]; simp)
              obtain ⟨hnonneg, hback⟩ := int64_of_inRange hin
              have hsat : Ts.asSatoshis _ = .ok pot :=
                Ts.asSafeNat_eq_ok.mpr (SafeNat.ofInt?_eq_some.mp hpot)
              simp only [hsafe, if_false, hin, true_and, not_true_eq_false, false_and, or_false,
                hnonneg]
              rcases settlePlayers_agree hstake state.players with
                ⟨out, hts', hgo', hall⟩ | ⟨k, hk, q, hq, hbad⟩
              · have hnone : ¬∃ p ∈ state.players, p.seat = acting ∧
                    ¬InRange (p.stakeAtRisk.val + exact) := by
                  intro hx
                  obtain ⟨p, hp, hseat, hbad⟩ := hx
                  exact hbad (hall p hp hseat)
                have hback' :
                    (Int64.ofInt (state.potValue.val + -exact)).toUInt64 = uint64 pot := by
                  rw [hback, ← hval]
                  rfl
                simp only [hts', hsat, Outcome.ok_bind, Ts.RoundState.toGo, hgo',
                  hback', agree_ok_ok, hnone, not_false_eq_true, iff_true]
                rfl
              · refine iff_of_false ?_ (not_not_intro ⟨q, hq, hbad⟩)
                simp only [hk, Outcome.halt_bind, agree_halt, not_false_eq_true]
    · simp [h1, h2]
  · simp [h1]

/-! ## The engines -/

/-- The inputs on which the engines part. -/
def Diverges (ruleSet : Ts.RuleSet) (state : Ts.RoundState) (action : Ts.SignedAction) : Prop :=
  action.base.gameId = state.gameId ∧
    match action with
    | .betAction a => BetDiverges ruleSet state a
    | .settle _ => SettleDiverges ruleSet state
    | .rotateTurn _ => RotateDiverges state
    | .dealConcealed a => DealDiverges ruleSet state a
    | .fold a => FoldDiverges state a
    | _ => False

/-- They part only on actions the state admits. -/
theorem Diverges.legal {action : Ts.SignedAction} (h : Diverges ruleSet state action) :
    action.actionType ∈ getLegalActions state.stateClass := by
  obtain ⟨_, h⟩ := h
  cases action with
  | betAction a => simp [Ts.SignedAction.actionType, h.1, getLegalActions]
  | settle a => simp [Ts.SignedAction.actionType, h.1, getLegalActions]
  | rotateTurn a => simp [Ts.SignedAction.actionType, h.1, getLegalActions]
  | dealConcealed a => simp [Ts.SignedAction.actionType, h.1, getLegalActions]
  | fold a =>
      rcases h.1 with hclass | hclass
      · simp [Ts.SignedAction.actionType, hclass, getLegalActions]
      · simp [Ts.SignedAction.actionType, hclass, getLegalActions]
  | _ => cases h

/-- The seat a representable `Join` takes, its own or the next one. -/
theorem Ts.Representable.joinSeat {action : Ts.SignedAction} {height : SafeNat} {a : Ts.JoinAction}
    (h : Ts.Representable ruleSet state action height) (hjoin : action = .join a) :
    InRange (a.actingPlayerSeat.getD state.players.length) := by
  subst hjoin
  cases hs : a.actingPlayerSeat with
  | none => exact ⟨by simp, by simpa using h.seats⟩
  | some n => exact h.seat n hs

/-- What `toGo` keeps of an action's common fields. -/
theorem toGo_common (action : Ts.SignedAction) :
    action.toGo.gameId = action.base.gameId ∧ action.toGo.actionType = action.actionType := by
  cases action with
  | _ => exact ⟨rfl, rfl⟩

/-- **The engines agree exactly where they do not diverge.** Only the
numbers a handler reads have to be ones both languages know. -/
theorem agree_applyAction_iff {action : Ts.SignedAction} {height : SafeNat}
    (hjoin : ∀ a, action = .join a →
      InRange (a.actingPlayerSeat.getD state.players.length) ∧ InRange a.stakeAmount)
    (hbet : ∀ a, action = .betAction a → InRange a.betAmount) (hheight : height.val < 2 ^ 32)
    (hdecision : ∀ d, state.decisionDeadlineBlockHeight = some d → d.val < 2 ^ 32)
    (hrecovery : ∀ d, state.recoveryDeadlineBlockHeight = some d → d.val < 2 ^ 32) :
    Agree (Ts.applyAction state action ruleSet height)
      (Go.applyAction state.toGo action.toGo ruleSet.toGo (uint32 height)) ↔
      ¬Diverges ruleSet state action := by
  obtain ⟨hgameId, hkind⟩ := toGo_common action
  have hgame : state.toGo.gameId = state.gameId := rfl
  have hclass : state.toGo.stateClass = state.stateClass := rfl
  simp only [Ts.applyAction, Go.applyAction, hgameId, hkind, hgame, hclass]
  by_cases h1 : action.base.gameId = state.gameId
  · by_cases h2 : action.actionType ≠ .recovery ∧
        action.actionType ∉ getLegalActions state.stateClass
    · have hlegal : ¬Diverges ruleSet state action := fun hd => h2.2 hd.legal
      simp [h1, h2, hlegal]
    · simp only [h1, ne_eq, not_true_eq_false, if_false, h2, Diverges, true_and]
      -- past the common checks the handlers are compared one by one
      cases action with
      | join a => exact iff_of_true (agree_join (hjoin a rfl).1 (hjoin a rfl).2) not_false
      | tableLock a => exact iff_of_true agree_tableLock not_false
      | entropyCommit a => exact iff_of_true agree_entropyCommit not_false
      | entropyReveal a => exact iff_of_true agree_entropyReveal not_false
      | cardReveal a => exact iff_of_true agree_cardReveal not_false
      | dealConcealed a => exact agree_dealConcealed_iff
      | betAction a => exact agree_bet_iff (hbet a rfl)
      | pass a => exact iff_of_true agree_pass not_false
      | fold a => exact agree_fold_iff
      | settle a => exact agree_settle_iff
      | rotateTurn a => exact agree_rotateTurn_iff
      | tableClose a => exact iff_of_true agree_tableClose not_false
      | timeout a => exact iff_of_true (agree_timeout hheight hdecision) not_false
      | recovery a => exact iff_of_true (agree_recovery hheight hrecovery) not_false
  · have hnot : ¬Diverges ruleSet state action := fun hd => h1 hd.1
    simp [h1, hnot]

/-- **The two engines are one transition function, apart from
`Diverges`.** On inputs both languages can represent, TypeScript returns
and agrees with Go exactly when the input is not one of those. -/
theorem engines_agree_iff {action : Ts.SignedAction} {height : SafeNat}
    (h : Ts.Representable ruleSet state action height) :
    Agree (Ts.applyAction state action ruleSet height)
      (Go.applyAction state.toGo action.toGo ruleSet.toGo (uint32 height)) ↔
      ¬Diverges ruleSet state action := by
  apply agree_applyAction_iff
  · intro a hjoin
    exact ⟨h.joinSeat hjoin, h.stake a hjoin⟩
  · exact h.bet
  · exact h.height
  · exact h.decisionDeadline
  · exact h.recoveryDeadline

end Handlers

/-- A round lost on a pot of 2000 by a player who has 1000. -/
def overdrawn : Ts.RoundState :=
  { Ts.initialState "g" "" 244 with
    stateClass := .s10SettledRound
    actingPlayerSeat := some 0
    players :=
      [ Ts.joinedPlayer
          { Ts.actionBy (some 0) with playerPubkey := "A", stakeAmount := 1000 }
          0 1000 ]
    potValue := 2000
    visibleCards := [⟨"", "", 1⟩, ⟨"", "", 9⟩, ⟨"", "", 11⟩] }

theorem overdrawn_representable :
    Ts.Representable Ts.defaultRuleSet overdrawn (.settle (Ts.actionBy none)) 0 where
  winMultiplier := by decide
  lossMultiplier := by decide
  height := by decide
  decisionDeadline := by simp [overdrawn, Ts.initialState]
  recoveryDeadline := by
    intro deadline hdeadline
    cases hdeadline
    decide
  seats := by decide
  seat := by simp [Ts.SignedAction.base, Ts.actionBy]
  stake := by simp
  bet := by simp

theorem engines_agree_iff_overdrawn :
    Agree
        (Ts.applyAction overdrawn (.settle (Ts.actionBy none)) Ts.defaultRuleSet 0)
        (Go.applyAction overdrawn.toGo (Ts.SignedAction.settle (Ts.actionBy none)).toGo
          Ts.defaultRuleSet.toGo (uint32 0)) ↔
      ¬Diverges Ts.defaultRuleSet overdrawn (.settle (Ts.actionBy none)) :=
  engines_agree_iff overdrawn_representable

/-- TypeScript throws where Go rejects the negative balance. -/
theorem engines_disagree :
    ¬∀ (ruleSet : Ts.RuleSet) (state : Ts.RoundState) (action : Ts.SignedAction)
      (height : SafeNat), Ts.Representable ruleSet state action height →
        Agree (Ts.applyAction state action ruleSet height)
          (Go.applyAction state.toGo action.toGo ruleSet.toGo (uint32 height)) := by
  intro hclaim
  have hagree := hclaim _ _ _ _ overdrawn_representable
  have hthrows : Ts.applyAction overdrawn (.settle (Ts.actionBy none)) Ts.defaultRuleSet
      0 = .halt "settlement produces negative balance" := by
    decide
  rw [hthrows, agree_halt] at hagree
  exact hagree

end CardTable
