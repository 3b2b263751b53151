import CardTable.Go.Preview
import CardTable.Settlement

/-!
# Ts.Preview — the settlement a browser is shown

`computeSettlement` of `engine.ts` reads a state at S10 and returns what
a `Settle` would produce. Where the Go function puts zero in the place
of a negative sum, `clampSat` throws, so that here a preview that is
shown is one of a settlement that can be made.
-/

namespace CardTable.Ts

open Basis

/-- `clampSat` of `penalties.ts`. -/
def clampSat (n : Int) : Js SafeNat :=
  if isSafeInteger n = false ∨ n < 0 then
    .halt s!"clampSat: result is not a non-negative safe integer: {n}"
  else asSatoshis n

/-- `SettlementResult`. -/
structure SettlementResult where
  roundStateHash : String
  outcome : SettlementOutcome
  betAmount : SafeNat
  actingPlayerSeat : SafeNat
  amountWonOrLost : SafeNat
  resultingPotValue : SafeNat
  resultingBalances : List SafeNat
  deriving DecidableEq, Repr

/-- The `players.map` of `computeSettlement`. -/
def shownBalances (acting : SafeNat) (playerDelta : Int) : List PlayerState → Js (List SafeNat)
  | [] => .ok []
  | p :: rest => do
      let balance ← if p.seat = acting
        then clampSat (toDouble (p.stakeAtRisk.val + playerDelta))
        else .ok p.stakeAtRisk
      let balances ← shownBalances acting playerDelta rest
      .ok (balance :: balances)

/-- `computeSettlement`. -/
def computeSettlement (state : RoundState) (ruleSet : RuleSet) : Js SettlementResult :=
  if state.stateClass ≠ .s10SettledRound then
    .err ⟨.invalidActionForState, "computeSettlement requires S10 state"⟩
  else if state.visibleCards.length ≠ 3 then
    .err ⟨.invalidStateTransition, "incomplete S10"⟩
  else match state.actingPlayerSeat with
  | none => .err ⟨.invalidStateTransition, "incomplete S10"⟩
  | some acting => do
    let bet := state.potValue
    let classification ← classifyInBetweenRound state.visibleCards
    let transfer := computeValueTransfer classification.outcome bet ruleSet.settlementRules
    let balances ← shownBalances acting transfer.playerDelta state.players
    let amount ← asSatoshis transfer.playerDelta.natAbs
    let pot ← clampSat (toDouble (state.potValue.val + transfer.potDelta))
    .ok
      { roundStateHash := state.stateHash
        outcome := classification.outcome
        betAmount := bet
        actingPlayerSeat := acting
        amountWonOrLost := amount
        resultingPotValue := pot
        resultingBalances := balances }

/-! ## Sums -/

variable {ruleSet : RuleSet} {state next : RoundState}

theorem clampSat_eq_ok {n : Int} {amount : SafeNat} :
    clampSat n = .ok amount ↔ (amount.val : Int) = n := by
  rw [clampSat]
  split
  · rename_i hbad
    rw [SafeNat.not_safe_or_neg_iff] at hbad
    simp only [reduceCtorEq, false_iff]
    intro hval
    rw [← SafeNat.ofInt?_eq_some, hbad] at hval
    cases hval
  · exact asSafeNat_eq_ok

/-- A sum is clamped to the exact one, or not at all. -/
theorem clampSat_sum {amount sum : SafeNat} {delta : Int} :
    clampSat (toDouble (amount.val + delta)) = .ok sum ↔
      (sum.val : Int) = amount.val + delta := by
  rw [clampSat_eq_ok, ← SafeNat.ofInt?_eq_some, SafeNat.ofInt?_toDouble, SafeNat.ofInt?_eq_some]

/-- A player on the acting seat is paid what the preview shows him. -/
theorem settlePlayers_acting {acting : SafeNat} {delta : Int} {p : PlayerState}
    {rest out : List PlayerState} (hseat : p.seat = acting) :
    settlePlayers acting delta (p :: rest) = .ok out ↔
      ∃ stake rest', clampSat (toDouble (p.stakeAtRisk.val + delta)) = .ok stake ∧
        settlePlayers acting delta rest = .ok rest' ∧
        out = { p with stakeAtRisk := stake } :: rest' := by
  simp only [settlePlayers, hseat, ne_eq, not_true_eq_false, if_false, clampSat]
  split
  · simp
  · simp only [Outcome.bind_eq_ok, Outcome.ok.injEq]
    constructor
    · intro h
      obtain ⟨stake, hstake, rest', hrest, rfl⟩ := h
      exact ⟨stake, rest', hstake, hrest, rfl⟩
    · intro h
      obtain ⟨stake, rest', hstake, hrest, rfl⟩ := h
      exact ⟨stake, hstake, rest', hrest, rfl⟩

/-- **The balances shown are the stakes paid**: the preview stops where
the settlement throws. -/
theorem shownBalances_eq_ok {acting : SafeNat} {delta : Int} {players : List PlayerState}
    {balances : List SafeNat} :
    shownBalances acting delta players = .ok balances ↔
      ∃ out, settlePlayers acting delta players = .ok out ∧
        balances = out.map (·.stakeAtRisk) := by
  induction players generalizing balances with
  | nil =>
      simp only [shownBalances, settlePlayers, Outcome.ok.injEq]
      constructor
      · intro h
        exact ⟨[], rfl, h.symm⟩
      · intro h
        obtain ⟨out, rfl, rfl⟩ := h
        rfl
  | cons p rest ih =>
      by_cases hseat : p.seat = acting
      · simp only [settlePlayers_acting hseat, shownBalances, if_pos hseat]
        constructor
        · intro h
          obtain ⟨stake, hstake, h⟩ := Outcome.bind_eq_ok.mp h
          obtain ⟨tail, htail, h⟩ := Outcome.bind_eq_ok.mp h
          obtain ⟨out, hout, rfl⟩ := ih.mp htail
          cases h
          exact ⟨_, ⟨stake, out, hstake, hout, rfl⟩, rfl⟩
        · intro h
          obtain ⟨_, ⟨stake, out, hstake, hout, rfl⟩, rfl⟩ := h
          rw [hstake, Outcome.ok_bind, ih.mpr ⟨out, hout, rfl⟩]
          rfl
      · simp only [shownBalances, settlePlayers, hseat, ne_eq, not_false_eq_true, if_true, if_false,
          Outcome.ok_bind]
        constructor
        · intro h
          obtain ⟨tail, htail, h⟩ := Outcome.bind_eq_ok.mp h
          obtain ⟨out, hout, rfl⟩ := ih.mp htail
          cases h
          exact ⟨p :: out, by rw [hout]; rfl, rfl⟩
        · intro h
          obtain ⟨out, h, rfl⟩ := h
          obtain ⟨rest', hrest, h⟩ := Outcome.bind_eq_ok.mp h
          cases h
          rw [ih.mpr ⟨rest', hrest, rfl⟩]
          rfl

/-! ## The preview and the settlement -/

/-- A settlement with its preview: the cards, the pot and the stakes
paid. -/
structure Settlement (ruleSet : RuleSet) (state : RoundState) where
  acting : SafeNat
  cls : ClassifyResult
  pot : SafeNat
  players : List PlayerState
  phase : state.stateClass = .s10SettledRound
  shown : state.visibleCards.length = 3
  actingSeat : state.actingPlayerSeat = some acting
  classified : classifyInBetweenRound state.visibleCards = .ok cls
  paidFrom : (pot.val : Int) = state.potValue.val +
    (computeValueTransfer cls.outcome state.potValue ruleSet.settlementRules).potDelta
  paid : settlePlayers acting
    (computeValueTransfer cls.outcome state.potValue ruleSet.settlementRules).playerDelta
    state.players = .ok players

namespace Settlement

/-- The change of the acting player's stake. -/
def delta (x : Settlement ruleSet state) : Int :=
  (computeValueTransfer x.cls.outcome state.potValue ruleSet.settlementRules).playerDelta

/-- Two amounts are no further apart than the largest one. -/
theorem delta_safe (x : Settlement ruleSet state) : x.delta.natAbs ≤ maxSafeInteger := by
  have hfrom := x.paidFrom
  rw [computeValueTransfer_balanced] at hfrom
  have hpot := x.pot.isLe
  have hbet := state.potValue.isLe
  simp only [delta]
  omega

/-- The state a settlement leads to. -/
def settled (x : Settlement ruleSet state) : RoundState :=
  { state.advance .s11RotateTurn with potValue := x.pot, players := x.players }

/-- What the preview shows of it. -/
def preview (x : Settlement ruleSet state) : SettlementResult where
  roundStateHash := state.stateHash
  outcome := x.cls.outcome
  betAmount := state.potValue
  actingPlayerSeat := x.acting
  amountWonOrLost := ⟨x.delta.natAbs, x.delta_safe⟩
  resultingPotValue := x.pot
  resultingBalances := x.players.map (·.stakeAtRisk)

end Settlement

/-- **The engine settles**: exactly where there is a settlement. -/
theorem applySettle_eq_ok :
    applySettle state ruleSet = .ok next ↔ ∃ x : Settlement ruleSet state, next = x.settled := by
  constructor
  · intro h
    simp only [applySettle] at h
    split at h
    · cases h
    · rename_i hphase
      split at h
      · cases h
      · rename_i hshown
        split at h
        · cases h
        · rename_i acting hacting
          obtain ⟨cls, hcls, h⟩ := Outcome.bind_eq_ok.mp h
          split at h
          · cases h
          · obtain ⟨players, hpaid, h⟩ := Outcome.bind_eq_ok.mp h
            obtain ⟨pot, hpot, h⟩ := Outcome.bind_eq_ok.mp h
            cases h
            exact ⟨⟨acting, cls, pot, players, Decidable.not_not.mp hphase,
              Decidable.not_not.mp hshown, hacting, hcls, settledStake hpot, hpaid⟩, rfl⟩
  · intro h
    obtain ⟨x, rfl⟩ := h
    have hpot := clampSat_sum.mpr x.paidFrom
    rw [clampSat] at hpot
    split at hpot
    · cases hpot
    · rename_i hsafe
      simp only [applySettle, x.phase, x.shown, x.actingSeat, x.classified, x.paid, hsafe, hpot,
        ne_eq, not_true_eq_false, if_false, Outcome.ok_bind]
      rfl

/-- **The preview**: it is shown exactly where there is a settlement. -/
theorem computeSettlement_eq_ok {result : SettlementResult} :
    computeSettlement state ruleSet = .ok result ↔
      ∃ x : Settlement ruleSet state, result = x.preview := by
  constructor
  · intro h
    simp only [computeSettlement] at h
    split at h
    · cases h
    · rename_i hphase
      split at h
      · cases h
      · rename_i hshown
        split at h
        · cases h
        · rename_i acting hacting
          obtain ⟨cls, hcls, h⟩ := Outcome.bind_eq_ok.mp h
          obtain ⟨balances, hbalances, h⟩ := Outcome.bind_eq_ok.mp h
          obtain ⟨amount, hamount, h⟩ := Outcome.bind_eq_ok.mp h
          obtain ⟨pot, hpot, h⟩ := Outcome.bind_eq_ok.mp h
          obtain ⟨players, hpaid, rfl⟩ := shownBalances_eq_ok.mp hbalances
          cases h
          have hval := asSafeNat_eq_ok.mp hamount
          refine ⟨⟨acting, cls, pot, players, Decidable.not_not.mp hphase,
            Decidable.not_not.mp hshown, hacting, hcls, clampSat_sum.mp hpot, hpaid⟩, ?_⟩
          have hsame : amount = ⟨_, (⟨acting, cls, pot, players, Decidable.not_not.mp hphase,
              Decidable.not_not.mp hshown, hacting, hcls, clampSat_sum.mp hpot, hpaid⟩ :
                Settlement ruleSet state).delta_safe⟩ := SafeNat.ext (by exact_mod_cast hval)
          rw [hsame]
          rfl
  · intro h
    obtain ⟨x, rfl⟩ := h
    have hamount : asSatoshis (x.delta.natAbs : Int) = .ok ⟨x.delta.natAbs, x.delta_safe⟩ :=
      asSafeNat_eq_ok.mpr rfl
    simp only [Settlement.delta] at hamount
    simp only [computeSettlement, x.phase, x.shown, x.actingSeat, x.classified,
      shownBalances_eq_ok.mpr ⟨_, x.paid, rfl⟩, hamount, clampSat_sum.mpr x.paidFrom,
      ne_eq, not_true_eq_false, if_false, Outcome.ok_bind]
    rfl

/-- A `Settle` of the game is what `applySettle` makes of it: outside S10
both reject. -/
theorem settle_accepted_iff {settle : SignedActionBase} (height : SafeNat)
    (hgame : settle.gameId = state.gameId) :
    applyAction state (.settle settle) ruleSet height = .ok next ↔
      applySettle state ruleSet = .ok next := by
  by_cases hclass : state.stateClass = .s10SettledRound
  · exact step_settle_iff hclass hgame
  · refine iff_of_false ?_ ?_
    · intro h
      obtain ⟨_, haccepts⟩ := accepts_of_applyAction h
      cases haccepts with
      | settle hphase => exact hclass hphase
    · intro h
      obtain ⟨x, -⟩ := applySettle_eq_ok.mp h
      exact hclass x.phase

/-- The stakes of the acting seat change by the delta, the others not at
all. -/
theorem settlePlayers_changes {acting : SafeNat} {delta : Int} {players out : List PlayerState}
    (h : settlePlayers acting delta players = .ok out) :
    List.Forall₂ (fun p q => (q.stakeAtRisk.val : Int) =
      if p.seat = acting then p.stakeAtRisk.val + delta else p.stakeAtRisk.val) players out := by
  induction players generalizing out with
  | nil =>
      cases h
      exact .nil
  | cons p rest ih =>
      by_cases hseat : p.seat = acting
      · obtain ⟨stake, rest', hstake, hrest, rfl⟩ := (settlePlayers_acting hseat).mp h
        refine .cons ?_ (ih hrest)
        rw [if_pos hseat]
        exact clampSat_sum.mp hstake
      · simp only [settlePlayers, hseat, ne_eq, not_false_eq_true, if_true] at h
        obtain ⟨rest', hrest, h⟩ := Outcome.bind_eq_ok.mp h
        cases h
        refine .cons ?_ (ih hrest)
        rw [if_neg hseat]

/-- The preview as Go holds it. -/
def SettlementResult.toGo (r : SettlementResult) : Go.SettlementResult where
  roundStateHash := r.roundStateHash
  outcome := r.outcome
  betAmount := uint64 r.betAmount
  actingPlayerSeat := r.actingPlayerSeat.val
  amountWonOrLost := uint64 r.amountWonOrLost
  resultingPotValue := uint64 r.resultingPotValue
  resultingBalances := r.resultingBalances.map uint64

/-- What is paid out of the pot was not rounded. -/
theorem Settlement.delta_exact (x : Settlement ruleSet state) :
    x.delta = exactDelta x.cls.outcome state.potValue ruleSet.settlementRules := by
  have hpot := (ts_transfer x.cls.outcome state.potValue ruleSet.settlementRules state.potValue).2
  rw [SafeNat.ofInt?_toDouble, SafeNat.ofInt?_eq_some.mpr x.paidFrom, eq_comm,
    SafeNat.ofInt?_eq_some] at hpot
  have hfrom := x.paidFrom
  rw [computeValueTransfer_balanced] at hfrom
  simp only [Settlement.delta]
  omega

/-- The balances Go shows. -/
theorem Settlement.balances_toGo (x : Settlement ruleSet state) :
    (state.players.map PlayerState.toGo).map (fun p => if p.seat = (x.acting.val : Int) then
        (if p.stakeAtRisk.toInt64 + Int64.ofInt x.delta < 0 then 0
          else p.stakeAtRisk.toInt64 + Int64.ofInt x.delta).toUInt64
      else p.stakeAtRisk) = (x.players.map (·.stakeAtRisk)).map uint64 := by
  have hchanges := settlePlayers_changes x.paid
  rw [List.map_map, List.map_map, ← List.forall₂_eq_eq_eq, List.forall₂_map_left_iff,
    List.forall₂_map_right_iff]
  refine hchanges.imp ?_
  intro p q hstake
  simp only [Function.comp_apply, toGo_seat]
  by_cases hseat : p.seat = x.acting
  · rw [if_pos hseat] at hstake ⊢
    have hin : InRange (p.stakeAtRisk.val + x.delta) := by
      have hle := q.stakeAtRisk.isLe
      simp only [Settlement.delta]
      exact ⟨by omega, by omega⟩
    obtain ⟨hnonneg, hback⟩ := int64_of_inRange hin
    have hval : (q.stakeAtRisk.val : Int) = p.stakeAtRisk.val + x.delta := hstake
    rw [stake_toGo, if_neg hnonneg, hback, ← hval]
    rfl
  · rw [if_neg hseat] at hstake ⊢
    have hsame : q.stakeAtRisk = p.stakeAtRisk := SafeNat.ext (by omega)
    rw [hsame]
    rfl

/-- **Go shows the same**, where the browser shows anything. -/
theorem Settlement.preview_toGo (x : Settlement ruleSet state) :
    Go.computeSettlement state.toGo ruleSet.toGo = .ok x.preview.toGo := by
  obtain ⟨cls, hcls, hgoCls⟩ := classify_agree state.visibleCards x.shown
  obtain rfl : x.cls = cls := Outcome.ok.inj (x.classified.symm.trans hcls)
  have hpotIn : InRange (state.potValue.val + -x.delta) := by
    have hfrom := x.paidFrom
    rw [computeValueTransfer_balanced] at hfrom
    have hle := x.pot.isLe
    simp only [Settlement.delta]
    exact ⟨by omega, by omega⟩
  have hpotVal : (state.potValue.val + -x.delta).toNat = x.pot.val := by
    have hfrom := x.paidFrom
    rw [computeValueTransfer_balanced] at hfrom
    simp only [Settlement.delta]
    omega
  obtain ⟨hpotNonneg, hpotBack⟩ := int64_of_inRange hpotIn
  have hpotSum : (uint64 state.potValue).toInt64 + Int64.ofInt (-x.delta) =
      Int64.ofInt (state.potValue.val + -x.delta) := by
    rw [Int64.ofInt_add, uint64_toInt64]
  have hamount : (if Int64.ofInt x.delta < 0 then -Int64.ofInt x.delta
      else Int64.ofInt x.delta).toUInt64 = uint64 ⟨x.delta.natAbs, x.delta_safe⟩ := by
    have hsafe := x.delta_safe
    by_cases hneg : x.delta < 0
    · have hin : InRange (-x.delta) := ⟨by omega, by omega⟩
      have hlt : Int64.ofInt x.delta < 0 := by
        simp only [maxSafeInteger] at hsafe
        rw [Int64.lt_iff_toInt_lt, Int64.toInt_ofInt_of_le (by omega) (by omega)]
        simpa using hneg
      have habs : (-x.delta).toNat = x.delta.natAbs := by omega
      rw [if_pos hlt, ← Int64.ofInt_neg, (int64_of_inRange hin).2, habs]
      rfl
    · have hin : InRange x.delta := ⟨by omega, by omega⟩
      obtain ⟨hnonneg, hback⟩ := int64_of_inRange hin
      have habs : x.delta.toNat = x.delta.natAbs := by omega
      rw [if_neg hnonneg, hback, habs]
      rfl
  have hacting : state.toGo.actingPlayerSeat = some (x.acting.val : Int) := by
    show state.actingPlayerSeat.map _ = _
    rw [x.actingSeat]
    rfl
  have hbalances := x.balances_toGo
  have hphase : state.toGo.stateClass = .s10SettledRound := x.phase
  have hshown : state.toGo.visibleCards.length = 3 := x.shown
  have hgoCls' : Go.classifyInBetweenRound state.toGo.visibleCards = .ok x.cls := hgoCls
  have htransfer : Go.computeValueTransfer x.cls.outcome (uint64 state.potValue)
      ruleSet.toGo.settlementRules = ⟨Int64.ofInt x.delta, Int64.ofInt (-x.delta)⟩ := by
    rw [x.delta_exact]
    exact go_transfer ..
  have hpot : state.toGo.potValue = uint64 state.potValue := rfl
  have hplayers : state.toGo.players = state.players.map PlayerState.toGo := rfl
  simp only [Go.computeSettlement, hphase, hshown, hacting, hgoCls', htransfer, hpot, hpotSum,
    hpotNonneg, hpotBack, hpotVal, hplayers, hbalances, hamount, ne_eq, not_true_eq_false,
    if_false]
  rfl

/-- **Preview equals settlement.** In every state, reachable or not, the
browser is shown a preview exactly when a `Settle` of the game would be
accepted; pot, balances and the amount won or lost are then those of the
settlement, and Go shows the same. -/
theorem preview_eq_settlement (ruleSet : RuleSet) (state : RoundState) {settle : SignedActionBase}
    (height : SafeNat) (hgame : settle.gameId = state.gameId) :
    ((∃ result, computeSettlement state ruleSet = .ok result) ↔
      ∃ next, applyAction state (.settle settle) ruleSet height = .ok next) ∧
    ∀ result next, computeSettlement state ruleSet = .ok result →
      applyAction state (.settle settle) ruleSet height = .ok next →
      result.resultingPotValue = next.potValue ∧
      result.resultingBalances = next.players.map (·.stakeAtRisk) ∧
      List.Forall₂ (fun p q : PlayerState =>
        ((q.stakeAtRisk.val : Int) - p.stakeAtRisk.val).natAbs =
          if state.actingPlayerSeat = some p.seat then result.amountWonOrLost.val else 0)
        state.players next.players ∧
      Go.computeSettlement state.toGo ruleSet.toGo = .ok result.toGo := by
  simp only [computeSettlement_eq_ok, settle_accepted_iff height hgame, applySettle_eq_ok]
  constructor
  · constructor
    · intro h
      obtain ⟨_, x, _⟩ := h
      exact ⟨_, x, rfl⟩
    · intro h
      obtain ⟨_, x, _⟩ := h
      exact ⟨_, x, rfl⟩
  · intro result next hresult hnext
    obtain ⟨x, rfl⟩ := hresult
    obtain ⟨y, rfl⟩ := hnext
    -- both are the settlement of this state
    obtain rfl : x = y := by
      obtain ⟨acting, cls, pot, players, _, _, hacting, hcls, hpot, hpaid⟩ := x
      obtain ⟨acting', cls', pot', players', _, _, hacting', hcls', hpot', hpaid'⟩ := y
      obtain rfl := Option.some.inj (hacting.symm.trans hacting')
      obtain rfl := Outcome.ok.inj (hcls.symm.trans hcls')
      obtain rfl := Outcome.ok.inj (hpaid.symm.trans hpaid')
      obtain rfl : pot = pot' := SafeNat.ext (by omega)
      rfl
    refine ⟨rfl, rfl, ?_, x.preview_toGo⟩
    refine (settlePlayers_changes x.paid).imp ?_
    intro p q hstake
    by_cases hseat : p.seat = x.acting
    · rw [if_pos hseat] at hstake
      rw [if_pos (by rw [x.actingSeat, hseat])]
      show _ = x.delta.natAbs
      simp only [Settlement.delta]
      omega
    · rw [if_neg hseat] at hstake
      rw [if_neg (by rw [x.actingSeat]; simpa using fun h => hseat h.symm)]
      omega

/-- A win of 100 out of a pot of 100. -/
theorem preview_eq_settlement_sample :
    let state : RoundState :=
      { initialState "g" "" 244 with
        stateClass := .s10SettledRound
        potValue := 100
        actingPlayerSeat := some 0
        visibleCards := [⟨"", "", 1⟩, ⟨"", "", 9⟩, ⟨"", "", 5⟩] }
    let ruleSet : RuleSet := ⟨2, 4, 1000, 1, 100, 52, 1, ⟨1, 1, 50, 100⟩⟩
    (∃ result, computeSettlement state ruleSet = .ok result) ∧
      ∃ next, applyAction state (.settle { actionBy none with gameId := "g" }) ruleSet 100 =
        .ok next := by
  intro state ruleSet
  let settle : SignedActionBase := { actionBy none with gameId := "g" }
  have hgame : settle.gameId = state.gameId := rfl
  obtain ⟨hiff, -⟩ := preview_eq_settlement ruleSet state 100 hgame
  have hsome : (computeSettlement state ruleSet).value?.isSome = true := by decide +kernel
  obtain ⟨result, hresult⟩ := Option.isSome_iff_exists.mp hsome
  have hshown : ∃ result, computeSettlement state ruleSet = .ok result :=
    ⟨result, Outcome.value?_eq_some.mp hresult⟩
  exact ⟨hshown, hiff.mp hshown⟩

end CardTable.Ts
