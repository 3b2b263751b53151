import CardTable.Go.Amounts

/-!
# Go.Preview — the settlement a client is shown

`ComputeSettlement` of `engine.go` reads a state at S10 and returns what
`ApplyAction(Settle)` would produce. It computes the same sums, but where
`applySettle` rejects a negative one it puts zero in its place.
-/

namespace CardTable.Go

open Basis

variable {ruleSet : RuleSet} {state next : RoundState}

/-- `SettlementResult`. -/
structure SettlementResult where
  roundStateHash : String
  outcome : SettlementOutcome
  betAmount : UInt64
  actingPlayerSeat : Int
  amountWonOrLost : UInt64
  resultingPotValue : UInt64
  resultingBalances : List UInt64
  deriving DecidableEq

/-- `ComputeSettlement`. -/
def computeSettlement (state : RoundState) (ruleSet : RuleSet) :
    Except ProtocolError SettlementResult :=
  if state.stateClass ≠ .s10SettledRound then
    .error ⟨.invalidActionForState, "computeSettlement requires S10 state"⟩
  else if state.visibleCards.length ≠ 3 then
    .error ⟨.invalidStateTransition, "incomplete S10"⟩
  else match state.actingPlayerSeat with
  | none => .error ⟨.invalidStateTransition, "incomplete S10"⟩
  | some acting =>
    match classifyInBetweenRound state.visibleCards with
    | .error msg => .error ⟨.invalidStateTransition, msg⟩
    | .ok cls =>
      let bet := state.potValue
      let vt := computeValueTransfer cls.outcome bet ruleSet.settlementRules
      let balances := state.players.map fun p =>
        if p.seat = acting then
          let nextBal := p.stakeAtRisk.toInt64 + vt.playerDelta
          (if nextBal < 0 then 0 else nextBal).toUInt64
        else p.stakeAtRisk
      let resultingPot := state.potValue.toInt64 + vt.potDelta
      let resultingPot := if resultingPot < 0 then 0 else resultingPot
      let absDelta := if vt.playerDelta < 0 then -vt.playerDelta else vt.playerDelta
      .ok
        { roundStateHash := state.stateHash
          outcome := cls.outcome
          betAmount := bet
          actingPlayerSeat := acting
          amountWonOrLost := absDelta.toUInt64
          resultingPotValue := resultingPot.toUInt64
          resultingBalances := balances }

/-! ## What the preview shows -/

/-- A balance of the preview: zero in the place of a negative sum. -/
def shownBalance (acting : Int) (δ : Int) (p : PlayerState) : UInt64 :=
  if p.seat = acting then
    (if Int64.ofInt (p.stakeAtRisk.toNat + δ) < 0 then 0
      else Int64.ofInt (p.stakeAtRisk.toNat + δ)).toUInt64
  else p.stakeAtRisk

/-- The preview of a state at its settlement. -/
def shown (state : RoundState) (acting : Int) (outcome : SettlementOutcome) (δ : Int) :
    SettlementResult where
  roundStateHash := state.stateHash
  outcome := outcome
  betAmount := state.potValue
  actingPlayerSeat := acting
  amountWonOrLost :=
    (if Int64.ofInt δ < 0 then -Int64.ofInt δ else Int64.ofInt δ).toUInt64
  resultingPotValue :=
    (if Int64.ofInt (state.potValue.toNat - δ) < 0 then 0
      else Int64.ofInt (state.potValue.toNat - δ)).toUInt64
  resultingBalances := state.players.map (shownBalance acting δ)

/-- **The preview**: there is one at every such state, whatever the
amounts. -/
theorem computeSettlement_eq_ok_iff {result : SettlementResult} :
    computeSettlement state ruleSet = .ok result ↔
      ∃ acting outcome, AtSettlement state acting outcome ∧
        result = shown state acting outcome
          (exactDelta outcome state.potValue ruleSet.settlementRules) := by
  simp only [computeSettlement, transfer_eq, toInt64_add_ofInt, ← Int.sub_eq_add_neg]
  constructor
  · intro h
    split at h
    · cases h
    · rename_i hclass
      split at h
      · cases h
      · rename_i hshown
        split at h
        · cases h
        · rename_i acting hacting
          split at h
          · cases h
          · rename_i cls hcls
            cases h
            exact ⟨acting, cls.outcome, ⟨Decidable.not_not.mp hclass, Decidable.not_not.mp hshown,
              hacting, cls.thirdCardChecked, hcls⟩, rfl⟩
  · rintro ⟨acting, outcome, ⟨hclass, hshown, hacting, checked, hcls⟩, rfl⟩
    simp only [hclass, hshown, hacting, hcls, ne_eq, not_true_eq_false, if_false]
    rfl

/-- A sum that is accepted is shown as it is. -/
theorem shownBalance_eq {acting δ : Int} {p : PlayerState}
    (h : p.seat = acting → 0 ≤ (p.stakeAtRisk.toNat + δ).bmod (2 ^ 64)) :
    shownBalance acting δ p = (settled acting δ p).stakeAtRisk := by
  by_cases hseat : p.seat = acting
  · rw [shownBalance, settled, if_pos hseat, if_pos hseat, if_neg ((nonneg_iff _).mp (h hseat))]
  · rw [shownBalance, settled, if_neg hseat, if_neg hseat]

/-- The change of the stake has the size of the wrapped change when the
stake stays an amount. -/
theorem change_eq_iff {stake : UInt64} {δ : Int}
    (h : 0 ≤ ((stake.toNat : Int) + δ).bmod (2 ^ 64)) :
    (δ.bmod (2 ^ 64)).natAbs = (((stake.toNat : Int) + δ).bmod (2 ^ 64) - stake.toNat).natAbs ↔
      FitsInt64 (stake.toNat + δ.bmod (2 ^ 64)) := by
  have := stake.toNat_lt
  simp only [FitsInt64, Int.bmod] at *
  omega

/-! ## The preview and the settlement -/

/-- `ComputeSettlement` succeeds when a `Settle` of the game is accepted,
and shows the pot and the stakes after it and the change of the acting
seat. -/
def Previewed (ruleSet : RuleSet) (state : RoundState) : Prop :=
  ∀ (settle : SignedAction) (height : UInt32), settle.actionType = .settle →
    settle.gameId = state.gameId →
    ((∃ result, computeSettlement state ruleSet = .ok result) ↔
      ∃ next, applyAction state settle ruleSet height = .ok next) ∧
    ∀ result next, computeSettlement state ruleSet = .ok result →
      applyAction state settle ruleSet height = .ok next →
      result.resultingPotValue = next.potValue ∧
      result.resultingBalances = next.players.map (·.stakeAtRisk) ∧
      List.Forall₂ (fun p q : PlayerState => state.actingPlayerSeat = some p.seat →
        result.amountWonOrLost.toNat =
          ((q.stakeAtRisk.toNat : Int) - p.stakeAtRisk.toNat).natAbs) state.players next.players

/-- At a settlement the pot is not negative as an `int64`, and each stake
of the acting seat, changed by the `int64` the engine computes, lies in
`[0, 2^63)`. -/
def Payable (ruleSet : RuleSet) (state : RoundState) : Prop :=
  ∀ acting outcome, AtSettlement state acting outcome →
    let δ := exactDelta outcome state.potValue ruleSet.settlementRules
    0 ≤ (state.potValue.toNat - δ).bmod (2 ^ 64) ∧
      ∀ p ∈ state.players, p.seat = acting →
        FitsInt64 (p.stakeAtRisk.toNat + δ.bmod (2 ^ 64))

/-- A `Settle` of the game is what `applySettle` makes of it: outside S10
both reject. -/
theorem settle_accepted_iff {settle : SignedAction} (height : UInt32)
    (hkind : settle.actionType = .settle) (hgame : settle.gameId = state.gameId) :
    applyAction state settle ruleSet height = .ok next ↔
      applySettle state ruleSet = .ok next := by
  by_cases hclass : state.stateClass = .s10SettledRound
  · exact step_settle_iff hkind hclass hgame
  · have hrejects : ∀ s, applySettle state ruleSet ≠ .ok s := by
      intro s h
      obtain ⟨_, _, hat, _⟩ := applySettle_eq_ok_iff.mp h
      exact hclass hat.class_eq
    refine iff_of_false ?_ (hrejects next)
    simp only [applyAction, hgame, hkind, ne_eq, not_true_eq_false, if_false]
    split
    · simp
    · exact hrejects next

/-- What an accepted settlement and its preview have in common, and when
the amounts agree. -/
theorem previewed_at_iff {acting δ : Int} {outcome : SettlementOutcome}
    (hat : AtSettlement state acting outcome)
    (hδ : δ = exactDelta outcome state.potValue ruleSet.settlementRules) :
    Previewed ruleSet state ↔
      0 ≤ (state.potValue.toNat - δ).bmod (2 ^ 64) ∧
        ∀ p ∈ state.players, p.seat = acting →
          FitsInt64 (p.stakeAtRisk.toNat + δ.bmod (2 ^ 64)) := by
  have hshown : computeSettlement state ruleSet = .ok (shown state acting outcome δ) :=
    computeSettlement_eq_ok_iff.mpr ⟨acting, outcome, hat, by rw [hδ]⟩
  have hamount : (shown state acting outcome δ).amountWonOrLost.toNat =
      (δ.bmod (2 ^ 64)).natAbs := by
    rw [shown, toNat_abs, Int64.toInt_ofInt]
    rfl
  -- the change of one player on the acting seat, once his sum is accepted
  have hchange : ∀ p : PlayerState, p.seat = acting →
      0 ≤ ((p.stakeAtRisk.toNat : Int) + δ).bmod (2 ^ 64) →
      ((shown state acting outcome δ).amountWonOrLost.toNat =
          (((settled acting δ p).stakeAtRisk.toNat : Int) - p.stakeAtRisk.toNat).natAbs ↔
        FitsInt64 (p.stakeAtRisk.toNat + δ.bmod (2 ^ 64))) := by
    intro p hseat hnonneg
    rw [settled, if_pos hseat, toNat_of_nonneg ((nonneg_iff _).mp hnonneg), hamount]
    exact change_eq_iff hnonneg
  constructor
  · intro hpreviewed
    let settle := bareAction state.gameId .settle none
    obtain ⟨hiff, heq⟩ := hpreviewed settle 0 rfl rfl
    obtain ⟨next, hnext⟩ := hiff.mp ⟨_, hshown⟩
    obtain ⟨_, _, hplayers⟩ := heq _ _ hshown hnext
    obtain ⟨a, o, hat', ⟨hpot, hall⟩, rfl⟩ :=
      applySettle_eq_ok_iff.mp ((settle_accepted_iff 0 rfl rfl).mp hnext)
    obtain ⟨rfl, rfl⟩ := hat.acting_inj hat'
    rw [← hδ] at hpot hall hplayers
    refine ⟨hpot, ?_⟩
    intro p hp hseat
    rw [List.forall₂_map_right_iff, List.forall₂_same] at hplayers
    exact (hchange p hseat (hall p hp hseat)).mp
      (hplayers p hp (by rw [hat.acting_eq, hseat]))
  · intro h settle height hkind hgame
    obtain ⟨hpot, hfits⟩ := h
    have hall : ∀ p ∈ state.players, p.seat = acting →
        0 ≤ ((p.stakeAtRisk.toNat : Int) + δ).bmod (2 ^ 64) := by
      intro p hp hseat
      have := hfits p hp hseat
      simp only [FitsInt64, Int.bmod] at *
      omega
    have hsettle := applySettle_eq_ok_iff.mpr
      ⟨acting, outcome, hat, ⟨by rwa [← hδ], by rwa [← hδ]⟩, rfl⟩
    rw [← hδ] at hsettle
    have hnext := (settle_accepted_iff height hkind hgame).mpr hsettle
    refine ⟨iff_of_true ⟨_, hshown⟩ ⟨_, hnext⟩, ?_⟩
    intro result next hresult hnext'
    obtain rfl := Except.ok.inj (hshown.symm.trans hresult)
    obtain rfl := Except.ok.inj (hnext.symm.trans hnext')
    refine ⟨?_, ?_, ?_⟩
    · simp only [shown]
      rw [if_neg ((nonneg_iff _).mp hpot)]
    · simp only [shown, List.map_map]
      exact List.map_congr_left fun p hp => shownBalance_eq (hall p hp)
    · rw [List.forall₂_map_right_iff, List.forall₂_same]
      intro p hp hacting
      have hseat : p.seat = acting := Option.some.inj (hacting.symm.trans hat.acting_eq)
      exact (hchange p hseat (hall p hp hseat)).mpr (hfits p hp hseat)

/-- **Preview equals settlement** exactly when the settlement can be
paid: elsewhere the preview is one of a settlement that is rejected, or
of one whose stake wrapped. -/
theorem previewed_iff (ruleSet : RuleSet) (state : RoundState) :
    Previewed ruleSet state ↔ Payable ruleSet state := by
  by_cases hexists : ∃ acting outcome, AtSettlement state acting outcome
  · obtain ⟨acting, outcome, hat⟩ := hexists
    rw [previewed_at_iff hat rfl]
    constructor
    · intro h a o hat'
      obtain ⟨rfl, rfl⟩ := hat.acting_inj hat'
      exact h
    · exact fun h => h acting outcome hat
  · -- not a settlement: both reject
    have hnone : ∀ acting outcome, ¬AtSettlement state acting outcome :=
      fun acting outcome hat => hexists ⟨acting, outcome, hat⟩
    have hpreview : ∀ result, computeSettlement state ruleSet ≠ .ok result := by
      intro result h
      obtain ⟨acting, outcome, hat, _⟩ := computeSettlement_eq_ok_iff.mp h
      exact hnone acting outcome hat
    refine iff_of_true ?_ fun acting outcome hat => absurd hat (hnone acting outcome)
    intro settle height hkind hgame
    refine ⟨iff_of_false ?_ ?_, ?_⟩
    · rintro ⟨result, h⟩
      exact hpreview result h
    · rintro ⟨next, h⟩
      obtain ⟨acting, outcome, hat, _⟩ :=
        applySettle_eq_ok_iff.mp ((settle_accepted_iff height hkind hgame).mp h)
      exact hnone acting outcome hat
    · intro result next h
      exact absurd h (hpreview result)

/-- A pot of 100 cannot pay a win of 200: the settlement is rejected and
the preview shows a pot of 0. -/
theorem preview_of_rejected :
    ¬∀ (ruleSet : RuleSet) (state : RoundState), Previewed ruleSet state := by
  intro hclaim
  let state : RoundState :=
    { initialState "g" "" 244 with
      stateClass := .s10SettledRound
      potValue := 100
      actingPlayerSeat := some 0
      visibleCards := [⟨"", "", 1⟩, ⟨"", "", 9⟩, ⟨"", "", 5⟩] }
  have hat : AtSettlement state 0 .win := ⟨rfl, rfl, rfl, true, by rfl⟩
  exact absurd ((previewed_at_iff hat rfl).mp (hclaim anyBets state)).1 (by decide)

end CardTable.Go
