import CardTable.Basis.Wrap
import CardTable.Solvency

/-!
# Go.Amounts — the amounts of the Go engine and the exact ones

`applyBet` adds two `uint64`s and compares the sum with
`math.MaxInt64` after it has wrapped; `applySettle` converts the pot to
an `int64`, multiplies it by an `int64` of the rule set and tests the
signs of what came out. This module puts the exact integers beside both
and says when they agree. The TypeScript engine rejects what is not a
safe integer and has nothing to compare.
-/

namespace CardTable.Go

open Basis

variable {ruleSet : RuleSet} {state next : RoundState} {action : SignedAction}

/-! ## The exact change of a settlement -/

/-- The change of the acting player's stake, in unbounded integers. -/
def exactDelta (outcome : SettlementOutcome) (bet : UInt64) (rules : SettlementRules) : Int :=
  match outcome with
  | .win => bet.toNat * rules.inBetweenWinMultiplier.toInt
  | .loss => -(bet.toNat * rules.inBetweenLossMultiplier.toInt)
  | .pass => 0
  | .consecutivePenalty => -rules.consecutiveCardsPenalty.toNat
  | .equalPenalty => -rules.equalCardsPenalty.toNat

/-- What the engine computes is the exact change, wrapped. -/
theorem wrappedDelta_eq (outcome : SettlementOutcome) (bet : UInt64) (rules : SettlementRules) :
    wrappedDelta outcome bet.toInt64 rules = Int64.ofInt (exactDelta outcome bet rules) := by
  cases outcome with
  | win | loss =>
      simp only [wrappedDelta, exactDelta, Int64.ofInt_neg, Int64.ofInt_mul, Int64.ofInt_toInt,
        toInt64_eq]
  | pass => rfl
  | consecutivePenalty | equalPenalty =>
      simp only [wrappedDelta, exactDelta, Int64.ofInt_neg, toInt64_eq]

theorem transfer_eq (outcome : SettlementOutcome) (bet : UInt64) (rules : SettlementRules) :
    computeValueTransfer outcome bet rules =
      ⟨Int64.ofInt (exactDelta outcome bet rules),
        Int64.ofInt (-exactDelta outcome bet rules)⟩ := by
  rw [computeValueTransfer_eq, wrappedDelta_eq, Int64.ofInt_neg]

/-! ## What a settlement does -/

/-- What the settlement leaves a player with. -/
def settled (acting : Int) (δ : Int) (p : PlayerState) : PlayerState :=
  if p.seat = acting then
    { p with stakeAtRisk := (Int64.ofInt (p.stakeAtRisk.toNat + δ)).toUInt64 }
  else p

/-- None of the sums `applySettle` tests comes out negative. -/
def Accepted (state : RoundState) (acting : Int) (δ : Int) : Prop :=
  0 ≤ (state.potValue.toNat - δ).bmod (2 ^ 64) ∧
    ∀ p ∈ state.players, p.seat = acting → 0 ≤ (p.stakeAtRisk.toNat + δ).bmod (2 ^ 64)

theorem nonneg_iff (n : Int) : 0 ≤ n.bmod (2 ^ 64) ↔ ¬Int64.ofInt n < 0 := by
  rw [ofInt_neg_iff, Int.not_lt]

/-- One turn of the player loop. -/
theorem settlePlayers_cons {acting δ : Int} {p : PlayerState} {rest out : List PlayerState} :
    settlePlayers acting (Int64.ofInt δ) (p :: rest) = .ok out ↔
      (p.seat = acting → 0 ≤ (p.stakeAtRisk.toNat + δ).bmod (2 ^ 64)) ∧
        ∃ tail, settlePlayers acting (Int64.ofInt δ) rest = .ok tail ∧
          settled acting δ p :: tail = out := by
  rw [nonneg_iff]
  by_cases hseat : p.seat = acting
  · rw [settlePlayers, if_neg (not_not_intro hseat), settled, if_pos hseat]
    simp only [toInt64_add_ofInt, hseat, true_implies]
    by_cases hneg : Int64.ofInt (p.stakeAtRisk.toNat + δ) < 0
    · rw [if_pos hneg]
      simp only [reduceCtorEq, false_iff]
      exact fun h => h.1 hneg
    · rw [if_neg hneg, and_iff_right hneg]
      cases settlePlayers acting (Int64.ofInt δ) rest with
      | error e => simp
      | ok players => simp only [Except.ok.injEq, exists_eq_left']
  · rw [settlePlayers, if_pos hseat, settled, if_neg hseat]
    simp only [hseat, false_implies, true_and]
    cases settlePlayers acting (Int64.ofInt δ) rest with
    | error e => simp
    | ok players => simp only [Except.ok.injEq, exists_eq_left']

/-- **The player loop**: it pays everyone on the acting seat unless one
of the sums is negative. -/
theorem settlePlayers_eq_ok_iff {acting δ : Int} {players out : List PlayerState} :
    settlePlayers acting (Int64.ofInt δ) players = .ok out ↔
      (∀ p ∈ players, p.seat = acting → 0 ≤ (p.stakeAtRisk.toNat + δ).bmod (2 ^ 64)) ∧
        players.map (settled acting δ) = out := by
  induction players generalizing out with
  | nil => simp [settlePlayers]
  | cons p rest ih =>
      rw [settlePlayers_cons, List.forall_mem_cons, List.map_cons, and_assoc]
      refine and_congr_right fun _ => ?_
      constructor
      · rintro ⟨tail, htail, rfl⟩
        obtain ⟨hall, rfl⟩ := ih.mp htail
        exact ⟨hall, rfl⟩
      · rintro ⟨hall, rfl⟩
        exact ⟨_, ih.mpr ⟨hall, rfl⟩, rfl⟩

/-- A state a settlement reads: three cards face up at S10, and somebody
acting. -/
structure AtSettlement (state : RoundState) (acting : Int) (outcome : SettlementOutcome) :
    Prop where
  class_eq : state.stateClass = .s10SettledRound
  shown : state.visibleCards.length = 3
  acting_eq : state.actingPlayerSeat = some acting
  outcome_eq : ∃ checked, classifyInBetweenRound state.visibleCards = .ok ⟨outcome, checked⟩

theorem AtSettlement.acting_inj {a b : Int} {x y : SettlementOutcome}
    (h : AtSettlement state a x) (h' : AtSettlement state b y) : a = b ∧ x = y := by
  obtain ⟨_, hx⟩ := h.outcome_eq
  obtain ⟨_, hy⟩ := h'.outcome_eq
  constructor
  · exact Option.some.inj (h.acting_eq.symm.trans h'.acting_eq)
  · rw [hx] at hy
    cases hy
    rfl

/-- **The settlement**: accepted at such a state when no tested sum is
negative, and then the sums are the pot and the stakes. -/
theorem applySettle_eq_ok_iff :
    applySettle state ruleSet = .ok next ↔
      ∃ acting outcome, AtSettlement state acting outcome ∧
        let δ := exactDelta outcome state.potValue ruleSet.settlementRules
        Accepted state acting δ ∧
          next = { state.advance .s11RotateTurn with
            potValue := (Int64.ofInt (state.potValue.toNat - δ)).toUInt64
            players := state.players.map (settled acting δ) } := by
  simp only [applySettle, transfer_eq, toInt64_add_ofInt]
  constructor
  · intro h
    split at h
    · cases h
    · rename_i hclass
      split at h
      · cases h
      · rename_i hshown
        split at h
        · cases h
        · rename_i acting hacting
          split at h
          · cases h
          · rename_i cls hcls
            refine ⟨acting, cls.outcome, ⟨Decidable.not_not.mp hclass,
              Decidable.not_not.mp hshown, hacting, cls.thirdCardChecked, hcls⟩, ?_⟩
            split at h
            · cases h
            · rename_i hpot
              split at h
              · cases h
              · rename_i players hplayers
                obtain ⟨hall, rfl⟩ := settlePlayers_eq_ok_iff.mp hplayers
                cases h
                exact ⟨⟨(nonneg_iff _).mpr hpot, hall⟩, rfl⟩
  · intro h
    obtain ⟨acting, outcome, ⟨hclass, hshown, hacting, checked, hcls⟩, ⟨hpot, hall⟩, rfl⟩ := h
    have hplayers := settlePlayers_eq_ok_iff.mpr ⟨hall, rfl⟩
    simp only [hclass, hshown, hacting, hcls, ne_eq, not_true_eq_false, if_false, hplayers,
      ← Int.sub_eq_add_neg, if_neg ((nonneg_iff _).mp hpot)]

/-! ## Exact bets and settlements -/

/-- An accepted bet adds exactly what was bet to the pot, and takes no
stake. -/
def ExactBet (ruleSet : RuleSet) (state : RoundState) (action : SignedAction) : Prop :=
  ∀ next, applyBet state action ruleSet = .ok next →
    next.potValue.toNat = state.potValue.toNat + action.betAmount.toNat ∧
      next.players = state.players

/-- An accepted settlement moves exactly its change from the pot to the
acting seat. -/
def ExactSettle (ruleSet : RuleSet) (state : RoundState) : Prop :=
  ∀ next, applySettle state ruleSet = .ok next →
    ∃ acting outcome, AtSettlement state acting outcome ∧
      let δ := exactDelta outcome state.potValue ruleSet.settlementRules
      (next.potValue.toNat : Int) = state.potValue.toNat - δ ∧
        List.Forall₂ (fun p q : PlayerState =>
          (q.stakeAtRisk.toNat : Int) = p.stakeAtRisk.toNat + if p.seat = acting then δ else 0)
          state.players next.players

/-- The sum of the pot and an admitted bet is not one of those that wrap
to a small amount. -/
def BetFits (ruleSet : RuleSet) (state : RoundState) (action : SignedAction) : Prop :=
  state.stateClass = .s8BetDecision →
  ruleSet.minBet ≤ action.betAmount → action.betAmount ≤ ruleSet.maxBet →
    ¬(2 ^ 64 ≤ state.potValue.toNat + action.betAmount.toNat ∧
      state.potValue.toNat + action.betAmount.toNat < 2 ^ 64 + 2 ^ 63)

/-- If no tested sum is negative, then the exact sums are amounts below
`2^63`. -/
def SettleFits (ruleSet : RuleSet) (state : RoundState) : Prop :=
  ∀ acting outcome, AtSettlement state acting outcome →
    let δ := exactDelta outcome state.potValue ruleSet.settlementRules
    Accepted state acting δ →
      FitsInt64 (state.potValue.toNat - δ) ∧
        ∀ p ∈ state.players, p.seat = acting → FitsInt64 (p.stakeAtRisk.toNat + δ)

/-- The sum `AddToPot` admits. -/
theorem addToPot_eq_ok_iff {pot delta sum : UInt64} :
    addToPot pot delta = .ok sum ↔ sum = pot + delta ∧ sum.toNat < 2 ^ 63 := by
  simp only [addToPot]
  split
  case isTrue h =>
    rw [UInt64.lt_iff_toNat_lt] at h
    simp only [reduceCtorEq, false_iff]
    rintro ⟨rfl, hfit⟩
    have hmax : (9223372036854775807 : UInt64).toNat = 9223372036854775807 := rfl
    omega
  case isFalse h =>
    rw [UInt64.lt_iff_toNat_lt] at h
    have hmax : (9223372036854775807 : UInt64).toNat = 9223372036854775807 := rfl
    simp only [Except.ok.injEq]
    constructor
    · rintro rfl
      exact ⟨rfl, by omega⟩
    · exact fun h => h.1.symm

theorem applyBet_eq_ok_iff :
    applyBet state action ruleSet = .ok next ↔
      state.stateClass = .s8BetDecision ∧
        ruleSet.minBet ≤ action.betAmount ∧ action.betAmount ≤ ruleSet.maxBet ∧
        (state.potValue + action.betAmount).toNat < 2 ^ 63 ∧
        next = { state.advance .s9CardRevealThird with
          potValue := state.potValue + action.betAmount } := by
  simp only [applyBet]
  by_cases hclass : state.stateClass = .s8BetDecision
  · rw [if_neg (not_not_intro hclass), and_iff_right hclass]
    by_cases hrange : action.betAmount < ruleSet.minBet ∨ ruleSet.maxBet < action.betAmount
    · rw [if_pos hrange]
      simp only [reduceCtorEq, false_iff, not_and]
      intro hmin hmax
      rcases hrange with h | h
      · exact absurd hmin (UInt64.not_le.mpr h)
      · exact absurd hmax (UInt64.not_le.mpr h)
    · rw [if_neg hrange]
      rw [not_or, UInt64.not_lt, UInt64.not_lt] at hrange
      rw [and_iff_right hrange.1, and_iff_right hrange.2]
      cases hadd : addToPot state.potValue action.betAmount with
      | error msg =>
          simp only [reduceCtorEq, false_iff, not_and]
          intro hfit
          rw [addToPot_eq_ok_iff.mpr ⟨rfl, hfit⟩] at hadd
          cases hadd
      | ok pot =>
          obtain ⟨rfl, hfit⟩ := addToPot_eq_ok_iff.mp hadd
          simp only [hfit, true_and, Except.ok.injEq]
          exact eq_comm
  · rw [if_pos hclass]
    simp [hclass]

/-- The wrapped sum of a pot and a bet is exact when there is nothing to
wrap. -/
theorem exactBet_iff : ExactBet ruleSet state action ↔ BetFits ruleSet state action := by
  have hsum := UInt64.toNat_add state.potValue action.betAmount
  have hpot := state.potValue.toNat_lt
  have hbet := action.betAmount.toNat_lt
  constructor
  · intro hexact hclass hmin hmax hwraps
    have haccept := (hexact _ (applyBet_eq_ok_iff.mpr ⟨hclass, hmin, hmax, by omega, rfl⟩)).1
    simp only at haccept
    omega
  · intro hfits next hnext
    obtain ⟨hclass, hmin, hmax, hlow, rfl⟩ := applyBet_eq_ok_iff.mp hnext
    have hnot := hfits hclass hmin hmax
    refine ⟨?_, rfl⟩
    simp only
    omega

/-- One player's settled stake, exact when it fits. -/
theorem settled_exact_iff {acting δ : Int} {p : PlayerState}
    (h : p.seat = acting → 0 ≤ (p.stakeAtRisk.toNat + δ).bmod (2 ^ 64)) :
    ((settled acting δ p).stakeAtRisk.toNat : Int) =
        p.stakeAtRisk.toNat + (if p.seat = acting then δ else 0) ↔
      (p.seat = acting → FitsInt64 (p.stakeAtRisk.toNat + δ)) := by
  by_cases hseat : p.seat = acting
  · simp only [settled, hseat, if_true, true_implies]
    exact toNat_eq_iff ((nonneg_iff _).mp (h hseat))
  · simp [settled, hseat]

theorem exactSettle_iff : ExactSettle ruleSet state ↔ SettleFits ruleSet state := by
  constructor
  · intro hexact acting outcome hat δ haccepted
    obtain ⟨a, o, hat', hpot, hplayers⟩ :=
      hexact _ (applySettle_eq_ok_iff.mpr ⟨acting, outcome, hat, haccepted, rfl⟩)
    obtain ⟨rfl, rfl⟩ := hat.acting_inj hat'
    refine ⟨(toNat_eq_iff ((nonneg_iff _).mp haccepted.1)).mp hpot, ?_⟩
    intro p hp
    rw [List.forall₂_map_right_iff, List.forall₂_same] at hplayers
    exact (settled_exact_iff (haccepted.2 p hp)).mp (hplayers p hp)
  · intro hfits next hnext
    obtain ⟨acting, outcome, hat, haccepted, rfl⟩ := applySettle_eq_ok_iff.mp hnext
    obtain ⟨hpot, hplayers⟩ := hfits acting outcome hat haccepted
    refine ⟨acting, outcome, hat, (toNat_eq_iff ((nonneg_iff _).mp haccepted.1)).mpr hpot, ?_⟩
    rw [List.forall₂_map_right_iff, List.forall₂_same]
    intro p hp
    exact (settled_exact_iff (haccepted.2 p hp)).mpr (hplayers p hp)

/-- **Exact money**: the amounts of an accepted bet and of an accepted
settlement are the exact ones when, and only when, neither sum is one
that wraps past the test made on it. -/
theorem money_exact_iff (ruleSet : RuleSet) (state : RoundState) (action : SignedAction) :
    (ExactBet ruleSet state action ∧ ExactSettle ruleSet state) ↔
      (BetFits ruleSet state action ∧ SettleFits ruleSet state) :=
  and_congr exactBet_iff exactSettle_iff

/-- A rule set that admits every bet. -/
def anyBets : RuleSet where
  playerCountMin := 2
  playerCountMax := 4
  stakeAmount := 1000
  minBet := 1
  maxBet := 18446744073709551615
  deckFormat := 52
  shuffleAlgorithmVersion := 1
  settlementRules :=
    { inBetweenWinMultiplier := 2
      inBetweenLossMultiplier := 1
      consecutiveCardsPenalty := 50
      equalCardsPenalty := 100 }

/-- A pot of 100 and a bet of `2^64 - 50` make a pot of 50, accepted. -/
theorem bet_wraps :
    ¬∀ (ruleSet : RuleSet) (state : RoundState) (action : SignedAction),
      ExactBet ruleSet state action ∧ ExactSettle ruleSet state := by
  intro hclaim
  let state : RoundState :=
    { initialState "g" "" 244 with stateClass := .s8BetDecision, potValue := 100 }
  let bet : SignedAction :=
    { bareAction "g" .betAction (some 0) with betAmount := 18446744073709551566 }
  have hfits := exactBet_iff.mp (hclaim anyBets state bet).1
  exact hfits rfl (by decide) (by decide) ⟨by decide, by decide⟩

end CardTable.Go
