import CardTable.Ts.Ledger
import CardTable.Go.Refine

/-!
# Settlement — what a bet is settled on

The bet is gone by the time it is settled: `applyBet` adds it to the pot
and `applySettle` reads it back as `state.pot_value`. The player is paid
on everything the pot holds, which is the bet only when there was nothing
in the pot before.
-/

namespace CardTable

open Basis

/-! ## TypeScript -/

namespace Ts

/-- What a bet is multiplied with to settle an outcome; penalties do not
depend on the bet. -/
def SettlementRules.multiplier (rules : SettlementRules) : SettlementOutcome → Int
  | .win => rules.inBetweenWinMultiplier
  | .loss => rules.inBetweenLossMultiplier
  | .pass | .consecutivePenalty | .equalPenalty => 0

/-- The player the settlement loop leaves at index `i`. -/
theorem settlePlayers_getElem? {acting : SafeNat} {delta : Int} {players out : List PlayerState}
    (h : settlePlayers acting delta players = .ok out) {i : Nat} {p : PlayerState}
    (hp : players[i]? = some p) (hseat : p.seat = acting) :
    ∃ q, out[i]? = some q ∧ (q.stakeAtRisk.val : Int) = p.stakeAtRisk.val + delta := by
  induction players generalizing out i with
  | nil => cases hp
  | cons head rest ih =>
      simp only [settlePlayers] at h
      split at h
      · rename_i hother
        obtain ⟨rest', hrest, h⟩ := Outcome.bind_eq_ok.mp h
        cases h
        cases i with
        | zero =>
            cases hp
            exact absurd hseat hother
        | succ i => exact ih hrest hp
      · split at h
        · cases h
        · obtain ⟨stake, hstake, h⟩ := Outcome.bind_eq_ok.mp h
          obtain ⟨rest', hrest, h⟩ := Outcome.bind_eq_ok.mp h
          cases h
          cases i with
          | zero =>
              cases hp
              exact ⟨_, rfl, settledStake hstake⟩
          | succ i => exact ih hrest hp

/-- Two bets settle alike when the difference between them is not
multiplied. -/
theorem playerDelta_eq_iff {outcome : SettlementOutcome} {before bet pot : SafeNat}
    {rules : SettlementRules} (hpot : pot.val = before.val + bet.val)
    (hl : -(maxSafeInteger : Int) ≤ (computeValueTransfer outcome pot rules).playerDelta)
    (hu : (computeValueTransfer outcome pot rules).playerDelta ≤ maxSafeInteger) :
    (computeValueTransfer outcome pot rules).playerDelta =
        (computeValueTransfer outcome bet rules).playerDelta ↔
      before.val = 0 ∨ rules.multiplier outcome = 0 := by
  have hle : bet.val ≤ pot.val := by omega
  -- the two products differ by what was in the pot before
  have hproduct : ∀ m : Int, (pot.val : Int) * m = bet.val * m ↔ before.val = 0 ∨ m = 0 := by
    intro m
    have hzero : (before.val : Int) * m = 0 ↔ before.val = 0 ∨ m = 0 := by
      rw [Int.mul_eq_zero]
      omega
    rw [hpot, Int.natCast_add, Int.add_mul, ← hzero]
    omega
  cases outcome with
  | win =>
      obtain ⟨hbig, hsmall⟩ := toDouble_mul_of_le hle hl hu
      simp only [computeValueTransfer, hbig, hsmall, SettlementRules.multiplier]
      exact hproduct _
  | loss =>
      simp only [computeValueTransfer] at hl hu
      obtain ⟨hbig, hsmall⟩ := toDouble_mul_of_le (m := rules.inBetweenLossMultiplier) hle
        (by omega) (by omega)
      simp only [computeValueTransfer, hbig, hsmall, SettlementRules.multiplier, Int.neg_inj]
      exact hproduct _
  | pass | consecutivePenalty | equalPenalty =>
      simp [computeValueTransfer, SettlementRules.multiplier]

/-- An accepted bet, third card and settlement, in one step: the acting
player gets what the whole pot is worth. -/
theorem settled_on_pot {ruleSet : RuleSet} {s s₁ s₂ s₃ : RoundState} {bet : BetAction}
    {card : CardRevealAction} {settle : SignedActionBase} {h₁ h₂ h₃ acting : SafeNat}
    {i : Nat} {p : PlayerState} {cls : ClassifyResult}
    (hacting : s.actingPlayerSeat = some acting)
    (hp : s.players[i]? = some p) (hseat : p.seat = acting)
    (hcls : classifyInBetweenRound (s.visibleCards ++ [card.reveal.revealedCard]) = .ok cls)
    (hbet : Step ruleSet s (.betAction bet, h₁) s₁)
    (hcard : Step ruleSet s₁ (.cardReveal card, h₂) s₂)
    (hsettle : Step ruleSet s₂ (.settle settle, h₃) s₃) :
    ∃ (pot : SafeNat) (q : PlayerState), (pot.val : Int) = s.potValue.val + bet.betAmount ∧
      s₃.players[i]? = some q ∧
      (q.stakeAtRisk.val : Int) = p.stakeAtRisk.val +
        (computeValueTransfer cls.outcome pot ruleSet.settlementRules).playerDelta ∧
      (s₃.potValue.val : Int) = pot.val -
        (computeValueTransfer cls.outcome pot ruleSet.settlementRules).playerDelta := by
  obtain ⟨_, hbet⟩ := accepts_of_applyAction hbet
  obtain ⟨_, hcard⟩ := accepts_of_applyAction hcard
  obtain ⟨_, hsettle⟩ := accepts_of_applyAction hsettle
  cases hbet with
  | @bet _ pot _ _ _ hpot =>
    -- after the bet the class is S9, so the card is the third
    cases hcard with
    | firstCard h => cases h
    | secondCard h => cases h
    | thirdCard _ =>
      cases hsettle with
      | settle _ _ hacting' hcls' htransfer hnext hplayers =>
        rw [show s.actingPlayerSeat = some _ from hacting'] at hacting
        cases hacting
        rw [show classifyInBetweenRound (s.visibleCards ++ _) = .ok _ from hcls'] at hcls
        cases hcls
        rw [htransfer] at hplayers hnext
        obtain ⟨q, hq, hstake⟩ := settlePlayers_getElem? hplayers hp hseat
        rw [computeValueTransfer_balanced] at hnext
        simp only [RoundState.advance] at hnext
        refine ⟨pot, q, hpot, hq, hstake, ?_⟩
        simp only
        omega

end Ts

/-! ## Go -/

namespace Go

/-- What a bet is multiplied with to settle an outcome; penalties do not
depend on the bet. -/
def SettlementRules.multiplier (rules : SettlementRules) : SettlementOutcome → Int64
  | .win => rules.inBetweenWinMultiplier
  | .loss => rules.inBetweenLossMultiplier
  | .pass | .consecutivePenalty | .equalPenalty => 0

/-- The player the settlement loop leaves at index `i`. -/
theorem settlePlayers_getElem? {acting : Int} {delta : Int64} {players out : List PlayerState}
    (h : settlePlayers acting delta players = .ok out) {i : Nat} {p : PlayerState}
    (hp : players[i]? = some p) (hseat : p.seat = acting) :
    ∃ q, out[i]? = some q ∧ q.stakeAtRisk.toInt64 = p.stakeAtRisk.toInt64 + delta := by
  induction players generalizing out i with
  | nil => cases hp
  | cons head rest ih =>
      simp only [settlePlayers] at h
      split at h
      · rename_i hother
        split at h
        · cases h
        · rename_i rest' hrest
          cases h
          cases i with
          | zero =>
              cases hp
              exact absurd hseat hother
          | succ i => exact ih hrest hp
      · split at h
        · cases h
        · split at h
          · cases h
          · rename_i rest' hrest
            cases h
            cases i with
            | zero =>
                cases hp
                exact ⟨_, rfl, by simp⟩
            | succ i => exact ih hrest hp

/-- Two bets settle alike when the difference between them is not
multiplied. -/
theorem playerDelta_eq_iff (outcome : SettlementOutcome) (before bet : UInt64)
    (rules : SettlementRules) :
    (computeValueTransfer outcome (before + bet) rules).playerDelta =
        (computeValueTransfer outcome bet rules).playerDelta ↔
      before.toInt64 * rules.multiplier outcome = 0 := by
  cases outcome with
  | win =>
      simp only [computeValueTransfer, SettlementRules.multiplier, UInt64.toInt64_add,
        Int64.add_mul]
      exact Int64.add_eq_right
  | loss =>
      simp only [computeValueTransfer, SettlementRules.multiplier, UInt64.toInt64_add,
        Int64.add_mul, Int64.neg_inj]
      exact Int64.add_eq_right
  | pass | consecutivePenalty | equalPenalty =>
      simp [computeValueTransfer, SettlementRules.multiplier]

/-- An accepted bet adds to the pot in `uint64`. -/
private theorem applyBet_ok {ruleSet : RuleSet} {state state' : RoundState}
    {action : SignedAction} (h : applyBet state action ruleSet = .ok state') :
    state' = { state.advance .s9CardRevealThird with
      potValue := state.potValue + action.betAmount } := by
  simp only [applyBet, addToPot] at h
  split at h
  · cases h
  · split at h
    · cases h
    · split at h
      · cases h
      · rename_i pot hpot
        cases h
        split at hpot
        · cases hpot
        · cases hpot
          rfl

/-- An accepted third card. -/
private theorem applyCardReveal_ok {state state' : RoundState} {action : SignedAction}
    (hclass : state.stateClass = .s9CardRevealThird)
    (h : applyCardReveal state action = .ok state') :
    state' = { state.advance .s10SettledRound with
      visibleCards := state.visibleCards ++ [action.reveal.revealedCard] } := by
  simp only [applyCardReveal, hclass] at h
  cases h
  rfl

/-- An accepted settlement pays through the loop. -/
private theorem applySettle_ok {ruleSet : RuleSet} {state state' : RoundState} {acting : Int}
    {cls : ClassifyResult} (h : applySettle state ruleSet = .ok state')
    (hacting : state.actingPlayerSeat = some acting)
    (hcls : classifyInBetweenRound state.visibleCards = .ok cls) :
    settlePlayers acting
      (computeValueTransfer cls.outcome state.potValue ruleSet.settlementRules).playerDelta
      state.players = .ok state'.players := by
  simp only [applySettle, hacting, hcls] at h
  split at h
  · cases h
  · split at h
    · cases h
    · split at h
      · cases h
      · split at h
        · cases h
        · rename_i players hplayers
          cases h
          exact hplayers

/-- What an action of the given type does once the gates are passed. -/
private theorem applyAction_of_kind {ruleSet : RuleSet} {state state' : RoundState}
    {action : SignedAction} {height : UInt32}
    (h : Step ruleSet state (action, height) state') :
    (action.actionType = .betAction → applyBet state action ruleSet = .ok state') ∧
      (action.actionType = .cardReveal → applyCardReveal state action = .ok state') ∧
      (action.actionType = .settle → applySettle state ruleSet = .ok state') := by
  simp only [Step, applyAction] at h
  split at h
  · cases h
  · split at h
    · cases h
    · refine ⟨?_, ?_, ?_⟩
      · intro hkind
        simpa only [hkind] using h
      · intro hkind
        simpa only [hkind] using h
      · intro hkind
        simpa only [hkind] using h

/-- An accepted bet, third card and settlement, in one step: the acting
player gets what the whole pot is worth. -/
theorem settled_on_pot {ruleSet : RuleSet} {s s₁ s₂ s₃ : RoundState}
    {bet card settle : SignedAction} {h₁ h₂ h₃ : UInt32} {acting : Int}
    {i : Nat} {p : PlayerState} {cls : ClassifyResult}
    (hkinds : bet.actionType = .betAction ∧ card.actionType = .cardReveal ∧
      settle.actionType = .settle)
    (hacting : s.actingPlayerSeat = some acting)
    (hp : s.players[i]? = some p) (hseat : p.seat = acting)
    (hcls : classifyInBetweenRound (s.visibleCards ++ [card.reveal.revealedCard]) = .ok cls)
    (hbet : Step ruleSet s (bet, h₁) s₁) (hcard : Step ruleSet s₁ (card, h₂) s₂)
    (hsettle : Step ruleSet s₂ (settle, h₃) s₃) :
    ∃ q, s₃.players[i]? = some q ∧
      q.stakeAtRisk.toInt64 = p.stakeAtRisk.toInt64 +
        (computeValueTransfer cls.outcome (s.potValue + bet.betAmount)
          ruleSet.settlementRules).playerDelta := by
  have hbet := applyBet_ok ((applyAction_of_kind hbet).1 hkinds.1)
  subst hbet
  have hcard := applyCardReveal_ok rfl ((applyAction_of_kind hcard).2.1 hkinds.2.1)
  subst hcard
  have hsettle := applySettle_ok ((applyAction_of_kind hsettle).2.2 hkinds.2.2) hacting hcls
  exact settlePlayers_getElem? hsettle hp hseat

end Go

/-! ## The bet and the pot -/

/-- **Settlement pays on the bet when the pot was empty, or the outcome
does not multiply it.** From any state at S8, after an accepted bet of
`b`, third card and settlement, the acting player's stake has changed by
the transfer for `b` exactly when the pot before the bet was empty or the
multiplier of the outcome is 0. In Go the product is an `int64`. -/
theorem settles_on_bet_iff (outcome : SettlementOutcome) :
    (∀ (ruleSet : Ts.RuleSet) (s s₁ s₂ s₃ : Ts.RoundState) (bet : Ts.BetAction)
      (card : Ts.CardRevealAction) (settle : Ts.SignedActionBase) (b h₁ h₂ h₃ acting : SafeNat)
      (i : Nat) (p : Ts.PlayerState) (checked : Bool),
      s.stateClass = .s8BetDecision → s.actingPlayerSeat = some acting →
      s.players[i]? = some p → p.seat = acting → bet.betAmount = b.val →
      Ts.classifyInBetweenRound (s.visibleCards ++ [card.reveal.revealedCard]) =
        .ok ⟨outcome, checked⟩ →
      Ts.Step ruleSet s (.betAction bet, h₁) s₁ → Ts.Step ruleSet s₁ (.cardReveal card, h₂) s₂ →
      Ts.Step ruleSet s₂ (.settle settle, h₃) s₃ →
      ∃ q, s₃.players[i]? = some q ∧
        ((q.stakeAtRisk.val : Int) = p.stakeAtRisk.val +
            (Ts.computeValueTransfer outcome b ruleSet.settlementRules).playerDelta ↔
          s.potValue.val = 0 ∨ ruleSet.settlementRules.multiplier outcome = 0)) ∧
    (∀ (ruleSet : Go.RuleSet) (s s₁ s₂ s₃ : Go.RoundState) (bet card settle : Go.SignedAction)
      (h₁ h₂ h₃ : UInt32) (acting : Int) (i : Nat) (p : Go.PlayerState) (checked : Bool),
      s.stateClass = .s8BetDecision → s.actingPlayerSeat = some acting →
      s.players[i]? = some p → p.seat = acting →
      bet.actionType = .betAction → card.actionType = .cardReveal →
      settle.actionType = .settle →
      Go.classifyInBetweenRound (s.visibleCards ++ [card.reveal.revealedCard]) =
        .ok ⟨outcome, checked⟩ →
      Go.Step ruleSet s (bet, h₁) s₁ → Go.Step ruleSet s₁ (card, h₂) s₂ →
      Go.Step ruleSet s₂ (settle, h₃) s₃ →
      ∃ q, s₃.players[i]? = some q ∧
        (q.stakeAtRisk.toInt64 = p.stakeAtRisk.toInt64 +
            (Go.computeValueTransfer outcome bet.betAmount ruleSet.settlementRules).playerDelta ↔
          s.potValue.toInt64 * ruleSet.settlementRules.multiplier outcome = 0)) := by
  constructor
  · intro ruleSet s s₁ s₂ s₃ bet card settle b h₁ h₂ h₃ acting i p checked _ hacting hp
      hseat hb hcls hbet hcard hsettle
    obtain ⟨pot, q, hpot, hq, hstake, hnext⟩ :=
      Ts.settled_on_pot hacting hp hseat hcls hbet hcard hsettle
    refine ⟨q, hq, ?_⟩
    -- the transfer is in range because the next pot is an amount
    have hbefore := pot.isLe
    have hafter := s₃.potValue.isLe
    simp only at hstake hnext
    have hsum : pot.val = s.potValue.val + b.val := by omega
    rw [hstake, ← Ts.playerDelta_eq_iff hsum (by omega) (by omega)]
    omega
  · intro ruleSet s s₁ s₂ s₃ bet card settle h₁ h₂ h₃ acting i p checked _ hacting hp
      hseat hkb hkc hks hcls hbet hcard hsettle
    obtain ⟨q, hq, hstake⟩ :=
      Go.settled_on_pot ⟨hkb, hkc, hks⟩ hacting hp hseat hcls hbet hcard hsettle
    refine ⟨q, hq, ?_⟩
    rw [hstake, Int64.add_right_inj]
    exact Go.playerDelta_eq_iff ..

/-- A table at S8 with 50 satoshis already in the pot. -/
def potOfFifty : Ts.RoundState :=
  { Ts.initialState "g" "" 244 with
    stateClass := .s8BetDecision
    actingPlayerSeat := some 0
    players :=
      [ Ts.joinedPlayer
          { Ts.actionBy (some 0) with playerPubkey := "A", stakeAmount := 1000 }
          0 1000 ]
    potValue := 50
    visibleCards := [⟨"", "", 1⟩, ⟨"", "", 9⟩] }

/-- With 50 in the pot a winning bet of 10 pays 60: the third card, 5,
lies between 1 and 9. -/
theorem settles_on_pot :
    ¬∀ (ruleSet : Ts.RuleSet) (s s₁ s₂ s₃ : Ts.RoundState) (bet : Ts.BetAction)
      (card : Ts.CardRevealAction) (settle : Ts.SignedActionBase) (b h₁ h₂ h₃ acting : SafeNat)
      (i : Nat) (p q : Ts.PlayerState) (cls : ClassifyResult),
      s.stateClass = .s8BetDecision → s.visibleCards.length = 2 →
      s.actingPlayerSeat = some acting → s.players[i]? = some p → p.seat = acting →
      bet.betAmount = b.val →
      Ts.classifyInBetweenRound (s.visibleCards ++ [card.reveal.revealedCard]) = .ok cls →
      Ts.Step ruleSet s (.betAction bet, h₁) s₁ → Ts.Step ruleSet s₁ (.cardReveal card, h₂) s₂ →
      Ts.Step ruleSet s₂ (.settle settle, h₃) s₃ → s₃.players[i]? = some q →
      (q.stakeAtRisk.val : Int) = p.stakeAtRisk.val +
        (Ts.computeValueTransfer cls.outcome b ruleSet.settlementRules).playerDelta := by
  intro hclaim
  have hpaid := hclaim Ts.defaultRuleSet potOfFifty _ _ _
    { Ts.actionBy (some 0) with betAmount := 10 }
    { Ts.actionBy none with reveal := ⟨0, ⟨"", "", 5⟩, "", ""⟩ }
    (Ts.actionBy none) 10 0 0 0 0
    0 _ _ ⟨.win, true⟩ rfl rfl rfl rfl rfl rfl rfl rfl rfl rfl rfl
  exact absurd hpaid (by decide)

end CardTable
