import CardTable.Agreement

/-!
# Solvency — which bets can be settled

A bet is accepted two transitions before anybody knows what it comes to:
the third card decides the outcome, and the settlement then moves the
pot times a multiplier, or a fixed penalty. `applyBet` compares the bet
with the rule set's bounds and with nothing else, so it admits bets that
some third card makes impossible to settle. `Solvent` says of a rule set,
two cards and a bet that no third card does.

Only in the first round are there two cards face up at a bet, and then
nothing has been paid yet: the pot is empty and every stake is the rule
set's (`Untouched`).
-/

namespace CardTable

open Basis

/-! ## What the third card decides -/

/-- The outcomes two visible cards leave open: a penalty is settled by
the two alone, otherwise the third card wins or loses. -/
def openOutcomes (first second : RevealedCard) : List SettlementOutcome :=
  if first.ordinal.tmod 13 = second.ordinal.tmod 13 then [.equalPenalty]
  else if (first.ordinal.tmod 13 - second.ordinal.tmod 13).natAbs = 1 then [.consecutivePenalty]
  else [.win, .loss]

/-- A rank read back. -/
theorem tmod_rank {x : Int} (hl : -13 < x) (hu : x < 13) : x.tmod 13 = x := by
  rcases Int.le_total 0 x with h0 | h0
  · exact Int.tmod_eq_of_lt h0 hu
  · have hneg : (-x).tmod 13 = -x := Int.tmod_eq_of_lt (by omega) (by omega)
    rw [Int.neg_tmod] at hneg
    omega

/-- **Each open outcome has its third card**, and no other outcome has
one. -/
theorem mem_openOutcomes {first second : RevealedCard} {outcome : SettlementOutcome} :
    outcome ∈ openOutcomes first second ↔
      ∃ third checked, Ts.classifyInBetweenRound [first, second, third] =
        .ok ⟨outcome, checked⟩ := by
  have hl₁ := Int.lt_tmod_of_pos first.ordinal (b := 13) (by decide)
  have hu₁ := Int.tmod_lt_of_pos first.ordinal (b := 13) (by decide)
  have hl₂ := Int.lt_tmod_of_pos second.ordinal (b := 13) (by decide)
  have hu₂ := Int.tmod_lt_of_pos second.ordinal (b := 13) (by decide)
  simp only [openOutcomes, Ts.classifyInBetweenRound]
  by_cases hequal : first.ordinal.tmod 13 = second.ordinal.tmod 13
  · have : Nonempty RevealedCard := ⟨first⟩
    simp [hequal, eq_comm]
  · by_cases hnext : (first.ordinal.tmod 13 - second.ordinal.tmod 13).natAbs = 1
    · have : Nonempty RevealedCard := ⟨first⟩
      simp [hequal, hnext, eq_comm]
    · simp only [hequal, hnext, if_false, List.mem_cons, List.not_mem_nil, or_false]
      generalize first.ordinal.tmod 13 = a at *
      generalize second.ordinal.tmod 13 = b at *
      constructor
      · intro hx
        rcases hx with rfl | rfl
        · -- one rank above the lower of the two
          have hrank : (min a b + 1).tmod 13 = min a b + 1 := tmod_rank (by omega) (by omega)
          refine ⟨⟨"", "", min a b + 1⟩, true, ?_⟩
          simp only [hrank]
          rw [if_pos (by omega)]
        · -- the rank of the first card again
          have hrank : a.tmod 13 = a := tmod_rank (by omega) (by omega)
          refine ⟨⟨"", "", a⟩, true, ?_⟩
          simp only [hrank]
          rw [if_neg (by omega)]
      · intro hx
        obtain ⟨third, checked, h⟩ := hx
        split at h
        · cases h
          exact .inl rfl
        · cases h
          exact .inr rfl

/-- At a bet decision with two cards face up the round is the first. -/
theorem round_of_two_cards {t : Table} (h : t.WF) (hphase : t.phase = .s8BetDecision)
    (hshown : t.shown.length = 2) : t.round = 0 ∧ ∃ x, t.acting = some x ∧ x ∈ t.seats := by
  have hinv := h.phaseInv
  simp only [Table.PhaseInv, hphase, Table.Shows] at hinv
  obtain ⟨⟨_, x, _, hx, hmem, _⟩, hlen⟩ := hinv
  refine ⟨?_, x, hx, hmem⟩
  by_cases hround : t.round = 0
  · exact hround
  · simp only [hround, if_false] at hlen
    omega

/-- The phases of the first round before its bet. -/
def beforeBet : StateClass → Bool
  | .s1SeatOpen | .s3EntropyCommitWindow | .s4EntropyRevealWindow | .s5DeckCommitted
  | .s6CardRevealFirst | .s8BetDecision => true
  | _ => false

/-! ## TypeScript -/

namespace Ts

variable {ruleSet : RuleSet} {state state' : RoundState}

/-- **When a settlement is accepted**: the pot and the stake it leaves
are amounts. -/
theorem applySettle_accepts_iff {acting : SafeNat} {cls : ClassifyResult}
    (hclass : state.stateClass = .s10SettledRound) (hshown : state.visibleCards.length = 3)
    (hacting : state.actingPlayerSeat = some acting)
    (hcls : classifyInBetweenRound state.visibleCards = .ok cls) :
    (∃ next, applySettle state ruleSet = .ok next) ↔
      InRange (state.potValue.val +
          -exactDelta cls.outcome state.potValue ruleSet.settlementRules) ∧
        ∀ p ∈ state.players, p.seat = acting →
          InRange (p.stakeAtRisk.val +
            exactDelta cls.outcome state.potValue ruleSet.settlementRules) := by
  have hpot := (ts_transfer cls.outcome state.potValue ruleSet.settlementRules
    state.potValue).2
  have hstake := fun stake => (ts_transfer cls.outcome state.potValue
    ruleSet.settlementRules stake).1
  simp only [applySettle, hclass, hshown, hacting, hcls, ne_eq, not_true_eq_false, if_false,
    Outcome.ok_bind]
  -- from here on only the exact delta matters, not how it came about
  generalize exactDelta cls.outcome state.potValue ruleSet.settlementRules = exact at *
  cases hnext : SafeNat.ofInt? (state.potValue.val + -exact) with
  | none =>
      rw [hnext, ← SafeNat.not_safe_or_neg_iff] at hpot
      rw [if_pos hpot]
      refine iff_of_false (by simp) ?_
      intro h
      obtain ⟨⟨h0, hmax⟩, _⟩ := h
      have := SafeNat.ofInt?_eq_none.mp hnext
      omega
  | some pot =>
      have hval := SafeNat.ofInt?_eq_some.mp hnext
      have hin : InRange (state.potValue.val + -exact) := by
        have := pot.isLe
        exact ⟨by omega, by omega⟩
      rw [hnext] at hpot
      rw [if_neg (mt SafeNat.not_safe_or_neg_iff.mp (by rw [hpot]; simp)), and_iff_right hin]
      have hsat : asSatoshis _ = .ok pot :=
        asSafeNat_eq_ok.mpr (SafeNat.ofInt?_eq_some.mp hpot)
      rcases @settlePlayers_agree acting _ _ hstake state.players with
        ⟨out, hout, _, hall⟩ | ⟨k, hk, p, hp, hseat, hbad⟩
      · simp only [hout, hsat, Outcome.ok_bind, Outcome.ok.injEq, exists_eq', true_iff]
        exact hall
      · simp only [hk, Outcome.halt_bind, reduceCtorEq, exists_false, false_iff]
        exact fun hall => hbad (hall p hp hseat)

/-- Nothing has been paid: until the first bet the pot is empty and every
player holds the stake he joined with. -/
def Untouched (ruleSet : RuleSet) (state : RoundState) : Prop :=
  state.roundNumber.val = 0 → beforeBet state.stateClass = true →
    state.potValue.val = 0 ∧ ∀ p ∈ state.players, p.stakeAtRisk = ruleSet.stakeAmount

theorem stakes_set {players : List PlayerState} {seat : Int} {idx : Nat} {p q : PlayerState}
    {stake : SafeNat} (hfind : findSeat players seat = some (idx, p))
    (hq : q.stakeAtRisk = p.stakeAtRisk) (h : ∀ p ∈ players, p.stakeAtRisk = stake) :
    ∀ r ∈ players.set idx q, r.stakeAtRisk = stake := by
  intro r hr
  rcases List.mem_or_eq_of_mem_set hr with hr | rfl
  · exact h r hr
  · rw [hq]
    exact h p (findSeat_mem hfind)

theorem Untouched.step {input : SignedAction × SafeNat} (h : Untouched ruleSet state)
    (hstep : Step ruleSet state input state') : Untouched ruleSet state' := by
  obtain ⟨action, height⟩ := input
  obtain ⟨_, haccepts⟩ := accepts_of_applyAction hstep
  intro hround hbefore
  cases haccepts with
  | join hclass =>
      obtain ⟨hpot, hstakes⟩ := h hround (by simp [hclass, beforeBet])
      refine ⟨hpot, ?_⟩
      intro p hp
      rcases List.mem_append.mp hp with hp | hp
      · exact hstakes p hp
      · rw [List.mem_singleton.mp hp]
        rfl
  | entropyCommit hclass hfind | entropyReveal hclass hfind =>
      obtain ⟨hpot, hstakes⟩ := h hround (by simp [hclass, beforeBet])
      exact ⟨hpot, stakes_set hfind rfl hstakes⟩
  | tableLock hclass | firstCard hclass | secondCard hclass | dealConcealed hclass =>
      exact h hround (by simp [hclass, beforeBet])
  | rotate _ _ _ _ hnext =>
      -- a later round has begun
      simp only at hround
      omega
  | tableClose hclass =>
      rw [show state.stateClass = _ from hclass] at hbefore
      cases hbefore
  | thirdCard | bet | pass | fold | settle | finish | timeout | recovery => cases hbefore

variable {gameId ruleSetHash : String} {deadline : SafeNat}
  {hist : List ((SignedAction × SafeNat) × RoundState)}

theorem untouched_of_run (h : Run ruleSet (initialState gameId ruleSetHash deadline) hist state) :
    Untouched ruleSet state := by
  refine h.invariant ?_ Untouched.step
  intro _ _
  exact ⟨rfl, by simp [initialState]⟩

/-- The bet can be settled whatever the third card is: for each outcome
the two cards leave open, the pot of the bet and the acting player's
stake, both exact, stay amounts. -/
def Solvent (ruleSet : RuleSet) (first second : RevealedCard) (bet : SafeNat) : Prop :=
  ∀ outcome ∈ openOutcomes first second,
    InRange (bet.val + -exactDelta outcome bet ruleSet.settlementRules) ∧
      InRange (ruleSet.stakeAmount.val + exactDelta outcome bet ruleSet.settlementRules)

/-- Every third card after the state leads to a settlement that is
accepted. -/
def AlwaysSettles (ruleSet : RuleSet) (state : RoundState) : Prop :=
  ∀ (card : CardRevealAction) (h : SafeNat) (shown : RoundState),
    Step ruleSet state (.cardReveal card, h) shown →
    ∀ (settle : SignedActionBase) (h' : SafeNat), settle.gameId = state.gameId →
      ∃ settled, Step ruleSet shown (.settle settle, h') settled

/-- The state a bet and a third card lead to. -/
def RoundState.settling (state : RoundState) (pot : SafeNat) (third : RevealedCard) :
    RoundState :=
  { ({ state.advance .s9CardRevealThird with potValue := pot }).advance .s10SettledRound with
    visibleCards := state.visibleCards ++ [third] }

/-- After the bet every third card of the game is shown. -/
theorem step_thirdCard (state : RoundState) (pot : SafeNat) {card : CardRevealAction}
    {height : SafeNat} (hgame : card.gameId = state.gameId) :
    Step ruleSet { state.advance .s9CardRevealThird with potValue := pot }
      (.cardReveal card, height) (state.settling pot card.reveal.revealedCard) := by
  simp [Step, applyAction, SignedAction.base, SignedAction.actionType, hgame,
    getLegalActions, applyCardReveal, RoundState.advance, RoundState.settling]

/-- At S10 a `Settle` of the game is what `applySettle` makes of it. -/
theorem step_settle_iff {settle : SignedActionBase} {height : SafeNat}
    (hclass : state.stateClass = .s10SettledRound) (hgame : settle.gameId = state.gameId) :
    Step ruleSet state (.settle settle, height) state' ↔
      applySettle state ruleSet = .ok state' := by
  simp [Step, applyAction, SignedAction.base, SignedAction.actionType, hgame, hclass,
    getLegalActions]

/-- The settlement of the first bet, in the amounts it was made in. -/
theorem settles_iff {first second third : RevealedCard} {pot acting : SafeNat}
    {cls : ClassifyResult} {player : PlayerState} (hcards : state.visibleCards = [first, second])
    (hacting : state.actingPlayerSeat = some acting) (hplayer : player ∈ state.players)
    (hseat : player.seat = acting)
    (hstakes : ∀ p ∈ state.players, p.stakeAtRisk = ruleSet.stakeAmount)
    (hcls : classifyInBetweenRound [first, second, third] = .ok cls) :
    (∃ next, applySettle (state.settling pot third) ruleSet = .ok next) ↔
      InRange (pot.val + -exactDelta cls.outcome pot ruleSet.settlementRules) ∧
        InRange (ruleSet.stakeAmount.val + exactDelta cls.outcome pot ruleSet.settlementRules) := by
  have hshown : (state.settling pot third).visibleCards = [first, second, third] := by
    simp [RoundState.settling, hcards]
  have hacting : (state.settling pot third).actingPlayerSeat = some acting := hacting
  refine (applySettle_accepts_iff rfl (by rw [hshown]; rfl) hacting
    (by rw [hshown]; exact hcls)).trans ?_
  refine and_congr_right fun _ => ⟨fun hall => ?_, fun hin p hp _ => ?_⟩
  · rw [← hstakes player hplayer]
    exact hall player hplayer hseat
  · rw [hstakes p hp]
    exact hin

/-- **A bet can always be settled when it is solvent.** -/
theorem alwaysSettles_iff (h : Run ruleSet (initialState gameId ruleSetHash deadline) hist state)
    (hclass : state.stateClass = .s8BetDecision) {first second : RevealedCard}
    (hcards : state.visibleCards = [first, second]) {bet : BetAction} {height : SafeNat}
    (hbet : Step ruleSet state (.betAction bet, height) state') :
    ∃ b : SafeNat, bet.betAmount = b.val ∧
      (AlwaysSettles ruleSet state' ↔ Solvent ruleSet first second b) := by
  obtain ⟨hround, x, hx, hmem⟩ := round_of_two_cards (table_run h).2 hclass
    (by simp [RoundState.table, hcards])
  have hround : state.roundNumber.val = 0 := Int.natCast_eq_zero.mp hround
  obtain ⟨hempty, hstakes⟩ := untouched_of_run h hround (by simp [hclass, beforeBet])
  obtain ⟨acting, hacting, rfl⟩ := Option.map_eq_some_iff.mp hx
  obtain ⟨player, hplayer, hseat⟩ := List.mem_map.mp hmem
  have hseat : player.seat = acting := seatInt_inj hseat
  obtain ⟨_, haccepts⟩ := accepts_of_applyAction hbet
  cases haccepts with
  | @bet _ pot _ _ _ hpot =>
    -- the pot was empty, so it is now the bet
    refine ⟨pot, by omega, ?_⟩
    constructor
    · intro halways outcome hopen
      obtain ⟨third, checked, hcls⟩ := mem_openOutcomes.mp hopen
      let base : SignedActionBase := { actionBy none with gameId := state.gameId }
      obtain ⟨settled, hsettled⟩ := halways ⟨base, ⟨0, third, "", ""⟩⟩ height _
        (step_thirdCard state pot rfl) base height rfl
      exact (settles_iff hcards hacting hplayer hseat hstakes hcls).mp
        ⟨settled, (step_settle_iff rfl rfl).mp hsettled⟩
    · intro hsolvent card h₂ shown hcard settle h₃ hgame
      obtain ⟨_, hcard⟩ := accepts_of_applyAction hcard
      cases hcard with
      | firstCard hphase => cases hphase
      | secondCard hphase => cases hphase
      | thirdCard _ =>
          obtain ⟨cls, hcls, _⟩ := classify_agree [first, second, card.reveal.revealedCard] rfl
          have hopen := mem_openOutcomes.mpr ⟨_, cls.thirdCardChecked, hcls⟩
          obtain ⟨settled, hsettled⟩ := (settles_iff hcards hacting hplayer hseat hstakes
            hcls).mpr (hsolvent _ hopen)
          have hgame : settle.gameId =
            (state.settling pot card.reveal.revealedCard).gameId := hgame
          exact ⟨settled, (step_settle_iff rfl hgame).mpr hsettled⟩

end Ts

/-! ## Go -/

namespace Go

variable {ruleSet : RuleSet} {state state' : RoundState}

/-- The change of the acting player's stake, in `int64`. -/
def wrappedDelta (outcome : SettlementOutcome) (bet : Int64) (rules : SettlementRules) : Int64 :=
  match outcome with
  | .win => bet * rules.inBetweenWinMultiplier
  | .loss => -(bet * rules.inBetweenLossMultiplier)
  | .pass => 0
  | .consecutivePenalty => -rules.consecutiveCardsPenalty.toInt64
  | .equalPenalty => -rules.equalCardsPenalty.toInt64

theorem computeValueTransfer_eq (outcome : SettlementOutcome) (bet : UInt64)
    (rules : SettlementRules) :
    computeValueTransfer outcome bet rules =
      ⟨wrappedDelta outcome bet.toInt64 rules, -wrappedDelta outcome bet.toInt64 rules⟩ := by
  cases outcome with
  | win => rfl
  | loss | pass | consecutivePenalty | equalPenalty =>
      simp [computeValueTransfer, wrappedDelta]

/-- **When a settlement is accepted**: neither the pot nor the stake it
leaves is negative as an `int64`. -/
theorem applySettle_accepts_iff {acting : Int} {cls : ClassifyResult}
    (hclass : state.stateClass = .s10SettledRound) (hshown : state.visibleCards.length = 3)
    (hacting : state.actingPlayerSeat = some acting)
    (hcls : classifyInBetweenRound state.visibleCards = .ok cls) :
    (∃ next, applySettle state ruleSet = .ok next) ↔
      ¬state.potValue.toInt64 +
          -wrappedDelta cls.outcome state.potValue.toInt64 ruleSet.settlementRules < 0 ∧
        ∀ p ∈ state.players, p.seat = acting →
          ¬p.stakeAtRisk.toInt64 +
            wrappedDelta cls.outcome state.potValue.toInt64 ruleSet.settlementRules < 0 := by
  simp only [applySettle, hclass, hshown, hacting, hcls, computeValueTransfer_eq, ne_eq,
    not_true_eq_false, if_false]
  generalize wrappedDelta cls.outcome state.potValue.toInt64 ruleSet.settlementRules = delta
  by_cases hpot : state.potValue.toInt64 + -delta < 0
  · simp [hpot]
  · rw [if_neg hpot, and_iff_right hpot]
    rcases go_settlePlayers_cases acting delta state.players with
      ⟨out, hout, hall⟩ | ⟨e, he, _, p, hp, hseat, hbad⟩
    · simp only [hout, Except.ok.injEq, exists_eq', true_iff]
      exact hall
    · simp only [he, reduceCtorEq, exists_false, false_iff]
      exact fun hall => hall p hp hseat hbad

/-- Nothing has been paid: until the first bet the pot is empty and every
player holds the stake he joined with. -/
def Untouched (ruleSet : RuleSet) (state : RoundState) : Prop :=
  state.roundNumber = 0 → beforeBet state.stateClass = true →
    state.potValue = 0 ∧ ∀ p ∈ state.players, p.stakeAtRisk = ruleSet.stakeAmount

theorem stakes_set {players : List PlayerState} {seat : Int} {idx : Nat} {p q : PlayerState}
    {stake : UInt64} (hfind : findSeat players seat = some (idx, p))
    (hq : q.stakeAtRisk = p.stakeAtRisk) (h : ∀ p ∈ players, p.stakeAtRisk = stake) :
    ∀ r ∈ players.set idx q, r.stakeAtRisk = stake := by
  intro r hr
  rcases List.mem_or_eq_of_mem_set hr with hr | rfl
  · exact h r hr
  · rw [hq]
    exact h p (findSeat_mem hfind)

theorem Untouched.step {input : SignedAction × UInt32} (hwf : state.table.WF)
    (h : Untouched ruleSet state) (hstep : Step ruleSet state input state') :
    Untouched ruleSet state' := by
  obtain ⟨action, height⟩ := input
  obtain ⟨_, haccepts⟩ := accepts_of_applyAction hstep
  intro hround hbefore
  cases haccepts with
  | join _ hclass hstake =>
      obtain ⟨hpot, hstakes⟩ := h hround (by simp [hclass, beforeBet])
      refine ⟨hpot, ?_⟩
      intro p hp
      rcases List.mem_append.mp hp with hp | hp
      · exact hstakes p hp
      · rw [List.mem_singleton.mp hp]
        exact hstake
  | entropyCommit _ hclass _ hfind =>
      obtain ⟨hpot, hstakes⟩ := h hround (by simp [hclass, beforeBet])
      exact ⟨hpot, stakes_set hfind rfl hstakes⟩
  | entropyReveal _ hclass _ hfind hplayers =>
      obtain ⟨hpot, hstakes⟩ := h hround (by simp [hclass, beforeBet])
      subst hplayers
      exact ⟨hpot, stakes_set hfind rfl hstakes⟩
  | tableLock _ hclass | firstCard _ hclass | secondCard _ hclass | dealConcealed _ hclass =>
      exact h hround (by simp [hclass, beforeBet])
  | rotate _ hclass =>
      -- a later round has begun
      have hinv := hwf.phaseInv
      simp only [Table.PhaseInv, show state.table.phase = _ from hclass] at hinv
      obtain ⟨_, _, _, _, _, hnonneg, _⟩ := hinv
      simp only [RoundState.table] at hnonneg hround
      omega
  | tableClose _ hclass =>
      rw [show state.stateClass = _ from hclass] at hbefore
      cases hbefore
  | thirdCard | bet | pass | fold | settle | finish | timeout | recovery => cases hbefore

variable {gameId ruleSetHash : String} {deadline : UInt32}
  {hist : List ((SignedAction × UInt32) × RoundState)}

theorem untouched_of_run (h : Run ruleSet (initialState gameId ruleSetHash deadline) hist state) :
    Untouched ruleSet state := by
  have hboth : state.table.WF ∧ Untouched ruleSet state :=
    h.invariant (I := fun s => s.table.WF ∧ Untouched ruleSet s)
      ⟨Table.wf_initial, fun _ _ => ⟨rfl, by simp [initialState]⟩⟩
      (fun hs hr => ⟨hs.1.step (table_step hs.1 hr), hs.2.step hs.1 hr⟩)
  exact hboth.2

/-- The bet can be settled whatever the third card is: for each outcome
the two cards leave open, neither the pot of the bet nor the acting
player's stake becomes negative as an `int64`. -/
def Solvent (ruleSet : RuleSet) (first second : RevealedCard) (bet : UInt64) : Prop :=
  ∀ outcome ∈ openOutcomes first second,
    ¬bet.toInt64 + -wrappedDelta outcome bet.toInt64 ruleSet.settlementRules < 0 ∧
      ¬ruleSet.stakeAmount.toInt64 +
        wrappedDelta outcome bet.toInt64 ruleSet.settlementRules < 0

/-- Every third card after the state leads to a settlement that is
accepted. -/
def AlwaysSettles (ruleSet : RuleSet) (state : RoundState) : Prop :=
  ∀ (card : SignedAction) (h : UInt32) (shown : RoundState), card.actionType = .cardReveal →
    Step ruleSet state (card, h) shown →
    ∀ (settle : SignedAction) (h' : UInt32), settle.actionType = .settle →
      settle.gameId = state.gameId → ∃ settled, Step ruleSet shown (settle, h') settled

/-- The state a bet and a third card lead to. -/
def RoundState.settling (state : RoundState) (pot : UInt64) (third : RevealedCard) : RoundState :=
  { ({ state.advance .s9CardRevealThird with potValue := pot }).advance .s10SettledRound with
    visibleCards := state.visibleCards ++ [third] }

/-- After the bet every third card of the game is shown. -/
theorem step_thirdCard (state : RoundState) (pot : UInt64) {card : SignedAction}
    {height : UInt32} (hkind : card.actionType = .cardReveal)
    (hgame : card.gameId = state.gameId) :
    Step ruleSet { state.advance .s9CardRevealThird with potValue := pot } (card, height)
      (state.settling pot card.reveal.revealedCard) := by
  simp [Step, applyAction, hkind, hgame, getLegalActions, applyCardReveal, RoundState.advance,
    RoundState.settling]

/-- At S10 a `Settle` of the game is what `applySettle` makes of it. -/
theorem step_settle_iff {settle : SignedAction} {height : UInt32}
    (hkind : settle.actionType = .settle) (hclass : state.stateClass = .s10SettledRound)
    (hgame : settle.gameId = state.gameId) :
    Step ruleSet state (settle, height) state' ↔ applySettle state ruleSet = .ok state' := by
  simp [Step, applyAction, hkind, hgame, hclass, getLegalActions]

/-- The settlement of the first bet, in the amounts it was made in. -/
theorem settles_iff {first second third : RevealedCard} {pot : UInt64} {acting : Int}
    {cls : ClassifyResult} {player : PlayerState} (hcards : state.visibleCards = [first, second])
    (hacting : state.actingPlayerSeat = some acting) (hplayer : player ∈ state.players)
    (hseat : player.seat = acting)
    (hstakes : ∀ p ∈ state.players, p.stakeAtRisk = ruleSet.stakeAmount)
    (hcls : classifyInBetweenRound [first, second, third] = .ok cls) :
    (∃ next, applySettle (state.settling pot third) ruleSet = .ok next) ↔
      ¬pot.toInt64 + -wrappedDelta cls.outcome pot.toInt64 ruleSet.settlementRules < 0 ∧
        ¬ruleSet.stakeAmount.toInt64 +
          wrappedDelta cls.outcome pot.toInt64 ruleSet.settlementRules < 0 := by
  have hshown : (state.settling pot third).visibleCards = [first, second, third] := by
    simp [RoundState.settling, hcards]
  have hacting : (state.settling pot third).actingPlayerSeat = some acting := hacting
  refine (applySettle_accepts_iff rfl (by rw [hshown]; rfl) hacting
    (by rw [hshown]; exact hcls)).trans ?_
  refine and_congr_right fun _ => ⟨fun hall => ?_, fun hin p hp _ => ?_⟩
  · rw [← hstakes player hplayer]
    exact hall player hplayer hseat
  · rw [hstakes p hp]
    exact hin

/-- The classification reads the cards alone, as in TypeScript. -/
theorem classify_eq {first second third : RevealedCard} {cls : ClassifyResult} :
    classifyInBetweenRound [first, second, third] = .ok cls ↔
      Ts.classifyInBetweenRound [first, second, third] = .ok cls := by
  obtain ⟨cls', hts, hgo⟩ := classify_agree [first, second, third] rfl
  rw [hts, hgo, Except.ok.injEq, Outcome.ok.injEq]

/-- **A bet can always be settled when it is solvent.** -/
theorem alwaysSettles_iff (h : Run ruleSet (initialState gameId ruleSetHash deadline) hist state)
    (hclass : state.stateClass = .s8BetDecision) {first second : RevealedCard}
    (hcards : state.visibleCards = [first, second]) {bet : SignedAction} {height : UInt32}
    (hkind : bet.actionType = .betAction) (hbet : Step ruleSet state (bet, height) state') :
    AlwaysSettles ruleSet state' ↔ Solvent ruleSet first second bet.betAmount := by
  obtain ⟨hround, acting, hacting, hmem⟩ := round_of_two_cards (table_run h).2 hclass
    (by simp [RoundState.table, hcards])
  obtain ⟨hempty, hstakes⟩ := untouched_of_run h hround (by simp [hclass, beforeBet])
  obtain ⟨player, hplayer, hseat⟩ := List.mem_map.mp hmem
  obtain ⟨_, haccepts⟩ := accepts_of_applyAction hbet
  cases haccepts with
  | bet =>
    -- the pot was empty, so it is now the bet
    rw [hempty, UInt64.zero_add]
    generalize bet.betAmount = pot
    constructor
    · intro halways outcome hopen
      obtain ⟨third, checked, hcls⟩ := mem_openOutcomes.mp hopen
      obtain ⟨settled, hsettled⟩ := halways
        { bareAction state.gameId .cardReveal none with reveal := ⟨0, third, "", ""⟩ } height _
        rfl (step_thirdCard state pot rfl rfl) (bareAction state.gameId .settle none) height
        rfl rfl
      exact (settles_iff hcards hacting hplayer hseat hstakes (classify_eq.mpr hcls)).mp
        ⟨settled, (step_settle_iff rfl rfl rfl).mp hsettled⟩
    · intro hsolvent card h₂ shown hcardKind hcard settle h₃ hsettleKind hgame
      obtain ⟨hcardGame, _⟩ := accepts_of_applyAction hcard
      obtain rfl : shown = state.settling pot card.reveal.revealedCard :=
        Except.ok.inj (hcard.symm.trans (step_thirdCard state pot hcardKind hcardGame))
      obtain ⟨cls, hcls, hgo⟩ := classify_agree [first, second, card.reveal.revealedCard] rfl
      have hopen := mem_openOutcomes.mpr ⟨_, cls.thirdCardChecked, hcls⟩
      obtain ⟨settled, hsettled⟩ := (settles_iff hcards hacting hplayer hseat hstakes
        hgo).mpr (hsolvent _ hopen)
      have hgame : settle.gameId =
        (state.settling pot card.reveal.revealedCard).gameId := hgame
      exact ⟨settled, (step_settle_iff hsettleKind rfl hgame).mpr hsettled⟩
  | join hk | tableLock hk | entropyCommit hk | entropyReveal hk | firstCard hk | secondCard hk
  | thirdCard hk | dealConcealed hk | pass hk | fold hk | settle hk | rotate hk | finish hk
  | tableClose hk | timeout hk | recovery hk =>
      rw [hkind] at hk
      cases hk

end Go

/-! ## Both engines -/

/-- **A bet is solvent or some card ruins it.** At every reachable bet
decision with two cards face up, and for every accepted bet: whatever
third card follows, the settlement after it is accepted exactly when each
outcome the two cards leave open can be paid from the bet and the stake
the rule set fixes. -/
theorem bet_settles_iff_solvent (gameId ruleSetHash : String) (first second : RevealedCard) :
    (∀ ruleSet deadline hist state bet height state',
      Ts.Run ruleSet (Ts.initialState gameId ruleSetHash deadline) hist state →
      state.stateClass = .s8BetDecision → state.visibleCards = [first, second] →
      Ts.Step ruleSet state (.betAction bet, height) state' →
      ∃ b : SafeNat, bet.betAmount = b.val ∧
        (Ts.AlwaysSettles ruleSet state' ↔ Ts.Solvent ruleSet first second b)) ∧
    (∀ ruleSet deadline hist state bet height state',
      Go.Run ruleSet (Go.initialState gameId ruleSetHash deadline) hist state →
      state.stateClass = .s8BetDecision → state.visibleCards = [first, second] →
      bet.actionType = .betAction → Go.Step ruleSet state (bet, height) state' →
      (Go.AlwaysSettles ruleSet state' ↔ Go.Solvent ruleSet first second bet.betAmount)) := by
  constructor
  · intro ruleSet deadline hist state bet height state' hrun hclass hcards hbet
    exact Ts.alwaysSettles_iff hrun hclass hcards hbet
  · intro ruleSet deadline hist state bet height state' hrun hclass hcards hkind hbet
    exact Go.alwaysSettles_iff hrun hclass hcards hkind hbet

/-- The sample rule set with bets of up to twice the stake. -/
def highBets : Ts.RuleSet := { Ts.defaultRuleSet with maxBet := 2000 }

/-- On the cards 1 and 9 a stake of 1000 cannot pay for a lost bet of
1500, and the bet is accepted. -/
theorem bet_admitted_unsettled :
    ¬∀ (ruleSet : Ts.RuleSet) (gameId ruleSetHash : String) (deadline : SafeNat)
      (hist : List ((Ts.SignedAction × SafeNat) × Ts.RoundState)) (state state' : Ts.RoundState)
      (bet : Ts.BetAction) (height : SafeNat),
      Ts.Run ruleSet (Ts.initialState gameId ruleSetHash deadline) hist state →
      state.stateClass = .s8BetDecision → state.visibleCards.length = 2 →
      Ts.Step ruleSet state (.betAction bet, height) state' →
        Ts.AlwaysSettles ruleSet state' := by
  intro hclaim
  let bet : Ts.BetAction := { Ts.actionBy (some 0) with betAmount := 1500 }
  have hout : (play (fun state input => (Ts.applyAction state input.1 highBets input.2).value?)
      (Ts.initialState "g" "" 244) ((Ts.openTable 0 1).map (·, 0))).map
        (fun r => (r.2.stateClass, r.2.visibleCards,
          (Ts.applyAction r.2 (.betAction bet) highBets 0).value?.isSome)) =
      some (.s8BetDecision, [⟨"", "", 1⟩, ⟨"", "", 9⟩], true) := by
    decide
  obtain ⟨r, hplay, hr⟩ := Option.map_eq_some_iff.mp hout
  simp only [Prod.mk.injEq, Option.isSome_iff_exists, Outcome.value?_eq_some] at hr
  obtain ⟨hclass, hcards, state', hbet⟩ := hr
  have hrun := path_of_play hplay
  simp only [Outcome.value?_eq_some] at hrun
  obtain ⟨b, hb, hiff⟩ := Ts.alwaysSettles_iff hrun hclass hcards hbet
  obtain rfl : b = 1500 := SafeNat.ext (Int.ofNat.inj hb.symm)
  have hsolvent := hiff.mp (hclaim _ _ _ _ _ _ _ bet 0 hrun hclass (by rw [hcards]; rfl) hbet)
  exact absurd (hsolvent .loss (by decide)).2.1 (by decide)

end CardTable
