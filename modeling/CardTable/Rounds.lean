import CardTable.Ts.Refine
import CardTable.Go.Refine

/-!
# Rounds — cards, turns and decisions on both engines

What the table knows about every run, said of the two engines. In each
of the three results the engine does what the game asks in the first
round of a table whose players joined in seat order, and not beyond.
-/

namespace CardTable

open Basis

/-! ## Three cards a round -/

/-- The table at S10: only the first round shows three cards, and a later
round can only be recovered. -/
private theorem table_at_settlement {t : Table} {hist : List (Event × Table)}
    (h : Path Table.Step Table.initial hist t) (hp : t.phase = .s10SettledRound) :
    (t.shown.length = 3 ∧ t.shown = Table.cardsOfRound (hist.map Prod.fst) ↔ t.round = 0) ∧
      (t.round ≠ 0 → ∀ e t', Table.Step t e t' → t'.phase = .recovered) := by
  obtain ⟨hcards, hlen⟩ := Table.cards_at_settlement h hp
  constructor
  · by_cases hround : t.round = 0
    · simp only [hround, if_true] at hlen
      simp [hlen, ← hcards, hround]
    · simp only [hround, if_false] at hlen
      simp [hlen, hround]
  · intro hround e t' hstep
    simp only [hround, if_false] at hlen
    exact Table.stuck_at_settlement hp (by omega) hstep

/-- **Only the first round shows its three cards.** In a state at S10 the
visible cards are three and all of this round exactly in round 0. In
every later round no accepted action leads on to settlement: the session
can only be recovered. -/
theorem settledRound_complete_iff_first (gameId ruleSetHash : String) :
    (∀ ruleSet deadline hist state,
      Ts.Run ruleSet (Ts.initialState gameId ruleSetHash deadline) hist state →
      state.stateClass = .s10SettledRound →
      (state.visibleCards.length = 3 ∧ state.visibleCards = Ts.cardsOfRound hist ↔
          state.roundNumber.val = 0) ∧
        (state.roundNumber.val ≠ 0 → ∀ input state', Ts.Step ruleSet state input state' →
          state'.stateClass = .recovered)) ∧
    (∀ ruleSet deadline hist state,
      Go.Run ruleSet (Go.initialState gameId ruleSetHash deadline) hist state →
      state.stateClass = .s10SettledRound →
      (state.visibleCards.length = 3 ∧ state.visibleCards = Go.cardsOfRound hist ↔
          state.roundNumber = 0) ∧
        (state.roundNumber ≠ 0 → ∀ input state', Go.Step ruleSet state input state' →
          state'.stateClass = .recovered)) := by
  constructor
  · intro ruleSet deadline hist state hrun hclass
    obtain ⟨htable, hwf⟩ := Ts.table_run hrun
    obtain ⟨hiff, hstuck⟩ := table_at_settlement htable hclass
    rw [Ts.cardsOfRound_table] at hiff
    have hround : state.table.round = 0 ↔ state.roundNumber.val = 0 := by
      show ((state.roundNumber.val : Nat) : Int) = 0 ↔ _
      omega
    refine ⟨hiff.trans hround, ?_⟩
    intro hlater input state' hstep
    exact hstuck (fun h => hlater (hround.mp h)) _ _ (Ts.table_step hwf hstep)
  · intro ruleSet deadline hist state hrun hclass
    obtain ⟨htable, hwf⟩ := Go.table_run hrun
    obtain ⟨hiff, hstuck⟩ := table_at_settlement htable hclass
    rw [Go.cardsOfRound_table] at hiff
    refine ⟨hiff, ?_⟩
    intro hlater input state' hstep
    exact hstuck hlater _ _ (Go.table_step hwf hstep)

/-- Round 0 is passed, round 1 bet on: its third card is its second. -/
def playSecondRound : List Ts.SignedAction :=
  Ts.openTable 0 1 ++
    [ .pass (Ts.actionBy (some 0)), .rotateTurn (Ts.actionBy none), Ts.revealCard 1,
      .betAction { Ts.actionBy (some 1) with betAmount := 5 }, Ts.revealCard 9 ]

/-- A state at S10, in round 1, with two cards. -/
theorem settledRound_incomplete :
    ¬∀ (ruleSet : Ts.RuleSet) (gameId ruleSetHash : String) (deadline : SafeNat)
      (hist : List ((Ts.SignedAction × SafeNat) × Ts.RoundState)) (state : Ts.RoundState),
      Ts.Run ruleSet (Ts.initialState gameId ruleSetHash deadline) hist state →
        state.stateClass = .s10SettledRound →
        state.visibleCards.length = 3 ∧ state.visibleCards = Ts.cardsOfRound hist := by
  intro hclaim
  have hout : (Ts.playSample playSecondRound).map
      (fun r => (r.2.stateClass, r.2.visibleCards.length)) = some (.s10SettledRound, 2) := by
    decide
  obtain ⟨r, hplay, hr⟩ := Option.map_eq_some_iff.mp hout
  obtain ⟨hclass, hlen⟩ := Prod.mk.inj hr
  have hthree := (hclaim _ _ _ _ _ _ (Ts.run_of_playSample hplay) hclass).1
  omega

/-! ## Everybody's turn -/

/-- **Turns are fair when the first player sits lowest.** In a run that
reached S12 every player was the acting player of exactly one bet
decision if and only if no seat is lower than that of the player who
joined first. -/
theorem turns_fair_iff_first_lowest (gameId ruleSetHash : String) :
    (∀ ruleSet deadline hist state,
      Ts.Run ruleSet (Ts.initialState gameId ruleSetHash deadline) hist state →
      state.stateClass = .s12TableClose →
      ((∀ p ∈ state.players, ∃! r, Ts.ActsIn hist p.seat r) ↔
        ∀ first, state.players.head? = some first →
          ∀ p ∈ state.players, first.seat.val ≤ p.seat.val)) ∧
    (∀ ruleSet deadline hist state,
      Go.Run ruleSet (Go.initialState gameId ruleSetHash deadline) hist state →
      state.stateClass = .s12TableClose →
      ((∀ p ∈ state.players, ∃! r, Go.ActsIn hist p.seat r) ↔
        ∀ first, state.players.head? = some first →
          ∀ p ∈ state.players, first.seat ≤ p.seat)) := by
  constructor
  · intro ruleSet deadline hist state hrun hclass
    have h := Table.fair_iff_first_lowest (Ts.table_run hrun).1 hclass
    simp only [Ts.RoundState.table, List.forall_mem_map, List.head?_map, Ts.actsIn_table,
      Option.map_eq_some_iff, forall_exists_index, and_imp, forall_apply_eq_imp_iff₂,
      Int.ofNat_le] at h
    exact h
  · intro ruleSet deadline hist state hrun hclass
    have h := Table.fair_iff_first_lowest (Go.table_run hrun).1 hclass
    simp only [Go.RoundState.table, List.forall_mem_map, List.head?_map, Go.actsIn_table,
      Option.map_eq_some_iff, forall_exists_index, and_imp, forall_apply_eq_imp_iff₂] at h
    exact h

/-- The first player sits on seat 1 and the second on seat 0. The first
passes, and rotation closes the table. -/
def playDescending : List Ts.SignedAction :=
  Ts.openTable 1 0 ++ [.pass (Ts.actionBy (some 1)), .rotateTurn (Ts.actionBy none)]

/-- The player on seat 0 never gets a turn. -/
theorem turns_unfair :
    ¬∀ (ruleSet : Ts.RuleSet) (gameId ruleSetHash : String) (deadline : SafeNat)
      (hist : List ((Ts.SignedAction × SafeNat) × Ts.RoundState)) (state : Ts.RoundState),
      Ts.Run ruleSet (Ts.initialState gameId ruleSetHash deadline) hist state →
        state.stateClass = .s12TableClose →
        ∀ p ∈ state.players, ∃! r, Ts.ActsIn hist p.seat r := by
  intro hclaim
  have hout : (Ts.playSample playDescending).map
      (fun r => (r.2.stateClass, r.2.players.map (·.seat.val),
        r.1.all fun e => e.2.actingPlayerSeat != some 0)) =
          some (.s12TableClose, [1, 0], true) := by
    decide
  obtain ⟨r, hplay, hr⟩ := Option.map_eq_some_iff.mp hout
  simp only [Prod.mk.injEq, List.all_eq_true, bne_iff_ne] at hr
  obtain ⟨hclass, hseats, hnever⟩ := hr
  obtain ⟨p, hp, hseat⟩ : ∃ p ∈ r.2.players, p.seat.val = 0 := by
    have h0 : 0 ∈ r.2.players.map (·.seat.val) := by simp [hseats]
    exact List.mem_map.mp h0
  obtain ⟨n, ⟨e, he, _, _, hacting⟩, _⟩ :=
    hclaim _ _ _ _ _ _ (Ts.run_of_playSample hplay) hclass p hp
  exact hnever e he (by rw [hacting]; exact congrArg some (SafeNat.ext hseat))

/-! ## Whose decision it is -/

private theorem ts_pass_accepted {ruleSet : Ts.RuleSet} {state : Ts.RoundState}
    (hclass : state.stateClass = .s8BetDecision) (seat : Option Int) (height : SafeNat) :
    Ts.Step ruleSet state
      (.pass { Ts.actionBy seat with gameId := state.gameId }, height)
      (state.advance .s11RotateTurn) := by
  simp [Ts.Step, Ts.applyAction, Ts.SignedAction.base, Ts.SignedAction.actionType,
    getLegalActions, Ts.applyPass, hclass]

private theorem go_pass_accepted {ruleSet : Go.RuleSet} {state : Go.RoundState}
    (hclass : state.stateClass = .s8BetDecision) (seat : Option Int) (height : UInt32) :
    Go.Step ruleSet state (Go.bareAction state.gameId .pass seat, height)
      (state.advance .s11RotateTurn) := by
  simp [Go.Step, Go.applyAction, Go.bareAction, getLegalActions, Go.applyPass, hclass]

/-- **The decision at S8 is anybody's.** In every state at S8 an
accepted decision can be made in the name of any seat, or of none; so
there is no such state in which only the acting player decides. -/
theorem decision_open_to_every_seat (gameId ruleSetHash : String) :
    (∀ ruleSet deadline hist state,
      Ts.Run ruleSet (Ts.initialState gameId ruleSetHash deadline) hist state →
      state.stateClass = .s8BetDecision →
      (∀ seat height, ∃ action state', action.decides = true ∧
        action.base.actingPlayerSeat = seat ∧ Ts.Step ruleSet state (action, height) state') ∧
      ¬Ts.OnlyActingDecides ruleSet state) ∧
    (∀ ruleSet deadline hist state,
      Go.Run ruleSet (Go.initialState gameId ruleSetHash deadline) hist state →
      state.stateClass = .s8BetDecision →
      (∀ seat height, ∃ action state', action.decides = true ∧
        action.actingPlayerSeat = seat ∧ Go.Step ruleSet state (action, height) state') ∧
      ¬Go.OnlyActingDecides ruleSet state) := by
  constructor
  · intro ruleSet deadline hist state hrun hclass
    have hany : ∀ seat height, ∃ action state', action.decides = true ∧
        action.base.actingPlayerSeat = seat ∧ Ts.Step ruleSet state (action, height) state' :=
      fun seat height => ⟨_, _, rfl, rfl, ts_pass_accepted hclass seat height⟩
    refine ⟨hany, ?_⟩
    -- two passes under different seats cannot both be the acting one's
    intro honly
    obtain ⟨a, s, ha, hseat, hstep⟩ := hany none deadline
    obtain ⟨b, u, hb, hseat', hstep'⟩ := hany (some 0) deadline
    have hnone := honly a _ s hstep ha
    have hsome := honly b _ u hstep' hb
    rw [← hnone, hseat, hseat'] at hsome
    cases hsome
  · intro ruleSet deadline hist state hrun hclass
    have hany : ∀ seat height, ∃ action state', action.decides = true ∧
        action.actingPlayerSeat = seat ∧ Go.Step ruleSet state (action, height) state' :=
      fun seat height => ⟨_, _, rfl, rfl, go_pass_accepted hclass seat height⟩
    refine ⟨hany, ?_⟩
    intro honly
    obtain ⟨a, s, ha, hseat, hstep⟩ := hany none deadline
    obtain ⟨b, u, hb, hseat', hstep'⟩ := hany (some 0) deadline
    have hnone := honly a _ s hstep ha
    have hsome := honly b _ u hstep' hb
    rw [← hnone, hseat, hseat'] at hsome
    cases hsome

/-- The player on seat 1 bets while seat 0 has the turn. -/
theorem decision_by_another_seat :
    ¬∀ (ruleSet : Ts.RuleSet) (gameId ruleSetHash : String) (deadline : SafeNat)
      (hist : List ((Ts.SignedAction × SafeNat) × Ts.RoundState)) (state : Ts.RoundState),
      Ts.Run ruleSet (Ts.initialState gameId ruleSetHash deadline) hist state →
        state.stateClass = .s8BetDecision → Ts.OnlyActingDecides ruleSet state := by
  intro hclaim
  let bet : Ts.SignedAction := .betAction { Ts.actionBy (some 1) with betAmount := 5 }
  have hout : (Ts.playSample (Ts.openTable 0 1)).map
      (fun r => (r.2.stateClass, r.2.actingPlayerSeat,
        (Ts.applyAction r.2 bet Ts.defaultRuleSet 0).value?.isSome)) =
          some (.s8BetDecision, some 0, true) := by
    decide
  obtain ⟨r, hplay, hr⟩ := Option.map_eq_some_iff.mp hout
  simp only [Prod.mk.injEq, Option.isSome_iff_exists, Outcome.value?_eq_some] at hr
  obtain ⟨hclass, hacting, state', hstep⟩ := hr
  have hseat := hclaim _ _ _ _ _ _ (Ts.run_of_playSample hplay) hclass bet _ state' hstep rfl
  rw [hacting] at hseat
  exact absurd hseat (by decide)

end CardTable
