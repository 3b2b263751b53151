import CardTable.Fallback

/-!
# Eligibility — the branches a client is told it can spend

`packages/state-engine/src/timeout.ts` answers from three annotations of
a state: the list of allowed actions and the two deadlines. The engine
decides by the state class and by what its handlers require. The two are
compared on every reachable state, whatever its deadlines are set to.
-/

namespace CardTable.Ts

open Basis

variable {ruleSet : RuleSet} {state state' : RoundState} {gameId ruleSetHash : String}
  {deadline height : SafeNat} {hist : List ((SignedAction × SafeNat) × RoundState)}

/-! ## timeout.ts -/

/-- What `eligibility` returns. -/
structure Eligible where
  canCooperate : Bool
  canTimeout : Bool
  canRecover : Bool
  deriving DecidableEq, Repr

/-- A deadline is set and has come. -/
def matured (currentHeight : SafeNat) : Option SafeNat → Bool
  | none => false
  | some deadline => decide (deadline.val ≤ currentHeight.val)

/-- `eligibility`. -/
def eligibility (state : RoundState) (currentHeight : SafeNat) : Eligible where
  canCooperate := decide (0 < state.allowedActions.length)
  canTimeout := matured currentHeight state.decisionDeadlineBlockHeight
  canRecover := matured currentHeight state.recoveryDeadlineBlockHeight

theorem matured_iff {d : Option SafeNat} :
    matured height d = true ↔ ∃ x, d = some x ∧ x.val ≤ height.val := by
  cases d with
  | none => simp [matured]
  | some x => simp [matured]

/-! ## The allowed actions of a reachable state -/

/-- The annotation is the list of the state class, but for a closed table,
which keeps its class and allows nothing. -/
def Annotated (state : RoundState) : Prop :=
  state.allowedActions = getLegalActions state.stateClass ∨
    state.stateClass = .s12TableClose ∧ state.allowedActions = []

theorem Annotated.step {input : SignedAction × SafeNat} (h : Annotated state)
    (hstep : Step ruleSet state input state') : Annotated state' := by
  obtain ⟨action, height⟩ := input
  obtain ⟨_, haccepts⟩ := accepts_of_applyAction hstep
  cases haccepts with
  | join | dealConcealed => exact h
  | tableClose hclass => exact .inr ⟨hclass, rfl⟩
  | _ => exact .inl rfl

theorem annotated_of_run
    (h : Run ruleSet (initialState gameId ruleSetHash deadline) hist state) :
    Annotated state :=
  h.invariant (.inl rfl) Annotated.step

/-- No allowed actions: the table is closed or the game recovered. -/
theorem allowed_nil_iff (hwf : state.table.WF) (h : Annotated state) :
    state.allowedActions = [] ↔
      state.stateClass = .recovered ∨
        state.stateClass = .s12TableClose ∧ state.allowedActions = [] := by
  have hphase := hwf.phaseInv
  simp only [Table.PhaseInv, RoundState.table] at hphase
  constructor
  · intro hnil
    rcases h with h | h
    · rw [hnil] at h
      cases hclass : state.stateClass with
      | s0TableOpen =>
          rw [hclass] at hphase
          exact hphase.elim
      | recovered => exact .inl rfl
      | _ =>
          rw [hclass] at h
          cases h
    · exact .inr h
  · intro hclosed
    rcases hclosed with hrecovered | ⟨_, hnil⟩
    · rcases h with h | ⟨hclass, _⟩
      · rw [h, hrecovered]
        rfl
      · rw [hrecovered] at hclass
        cases hclass
    · exact hnil

/-! ## What the engine accepts -/

/-- The state with other deadlines. -/
def RoundState.withDeadlines (state : RoundState) (decision recovery : Option SafeNat) :
    RoundState :=
  { state with
    decisionDeadlineBlockHeight := decision
    recoveryDeadlineBlockHeight := recovery }

@[simp] theorem withDeadlines_stateClass (decision recovery : Option SafeNat) :
    (state.withDeadlines decision recovery).stateClass = state.stateClass := rfl

@[simp] theorem withDeadlines_table (decision recovery : Option SafeNat) :
    (state.withDeadlines decision recovery).table = state.table := rfl

/-- Some action of the game, neither a `Timeout` nor a `Recovery`, is
accepted at the height. -/
def CanCooperate (ruleSet : RuleSet) (state : RoundState) (height : SafeNat) : Prop :=
  ∃ (action : SignedAction) (state' : RoundState), action.actionType ≠ .timeout ∧
    action.actionType ≠ .recovery ∧ action.base.gameId = state.gameId ∧
    Step ruleSet state (action, height) state'

/-- Only a `Timeout` and a `Recovery` look at the height. -/
theorem step_height {action : SignedAction} (htimeout : action.actionType ≠ .timeout)
    (hrecovery : action.actionType ≠ .recovery) (h h' : SafeNat) :
    Step ruleSet state (action, h) state' ↔ Step ruleSet state (action, h') state' := by
  cases action with
  | timeout => exact absurd rfl htimeout
  | recovery => exact absurd rfl hrecovery
  | _ => rfl

theorem canCooperate_iff :
    CanCooperate ruleSet state height ↔
      ∃ kind, kind ≠ .timeout ∧ kind ≠ .recovery ∧ Executable ruleSet state kind := by
  constructor
  · rintro ⟨action, state', htimeout, hrecovery, hgame, hstep⟩
    exact ⟨_, htimeout, hrecovery, action, height, state', rfl, hgame, hstep⟩
  · rintro ⟨kind, htimeout, hrecovery, action, h, state', rfl, hgame, hstep⟩
    exact ⟨action, state', htimeout, hrecovery, hgame,
      (step_height htimeout hrecovery h height).mp hstep⟩

/-- What is executable is legal at the class, unless it is a `Recovery`. -/
theorem legal_of_executable {kind : ActionType} (hne : kind ≠ .recovery)
    (h : Executable ruleSet state kind) : kind ∈ getLegalActions state.stateClass := by
  obtain ⟨action, height, state', rfl, _, hstep⟩ := h
  simp only [Step, applyAction] at hstep
  split at hstep
  · cases hstep
  · split at hstep
    · cases hstep
    · rename_i hlegal
      rw [not_and_not_right] at hlegal
      exact hlegal hne

theorem executable_tableLock_iff (hclass : state.stateClass = .s1SeatOpen) :
    Executable ruleSet state .tableLock ↔
      ruleSet.playerCountMin ≤ (state.players.length : Int) := by
  constructor
  · intro h
    obtain ⟨action, height, state', hkind, _, hstep⟩ := h
    obtain ⟨_, haccepts⟩ := accepts_of_applyAction hstep
    cases haccepts with
    | tableLock _ hcount => exact hcount
    | _ => cases hkind
  · intro hcount
    have hnot : ¬(state.players.length : Int) < ruleSet.playerCountMin := by omega
    apply executable_of_ok (.tableLock (actionFor state.gameId none)) 0 rfl rfl
    simp [applyAction, SignedAction.base, SignedAction.actionType, actionFor, hclass,
      getLegalActions, applyTableLock, hnot]

theorem executable_pass (hclass : state.stateClass = .s8BetDecision) :
    Executable ruleSet state .pass := by
  apply executable_of_ok (.pass (actionFor state.gameId none)) 0 rfl rfl
  simp [applyAction, SignedAction.base, SignedAction.actionType, actionFor, hclass,
    getLegalActions, applyPass]

/-- When the players can do something: at S1 somebody can join or the
table can be locked, at S3 somebody is seated, at S10 the settlement can
be paid; once the game is recovered nothing is left. -/
def CooperationOk (ruleSet : RuleSet) (state : RoundState) : Prop :=
  match state.stateClass with
  | .s1SeatOpen =>
      ((state.players.length : Int) < ruleSet.playerCountMax ∧
        ∃ seat : SafeNat, seat ∉ state.players.map (·.seat)) ∨
      ruleSet.playerCountMin ≤ (state.players.length : Int)
  | .s3EntropyCommitWindow => state.players ≠ []
  | .s10SettledRound => Payable ruleSet state
  | .recovered => False
  | _ => True

/-- **What the players can do at a state**, class by class. -/
theorem cooperation_iff (hwf : state.table.WF) (hpending : EntropyPending state) :
    (∃ kind, kind ≠ .timeout ∧ kind ≠ .recovery ∧ Executable ruleSet state kind) ↔
      CooperationOk ruleSet state := by
  have hphase := hwf.phaseInv
  simp only [Table.PhaseInv, RoundState.table] at hphase
  unfold CooperationOk
  -- one kind is executable when some of the legal ones is
  have hlegal : ∀ {kind}, kind ≠ .recovery → Executable ruleSet state kind →
      kind ∈ getLegalActions state.stateClass := legal_of_executable
  cases hclass : state.stateClass with
  | s0TableOpen | s2TableLocked | s7CardRevealSecond =>
      rw [hclass] at hphase
      exact hphase.elim
  | s1SeatOpen =>
      rw [← executable_join_iff hclass, ← executable_tableLock_iff hclass]
      constructor
      · rintro ⟨kind, _, hrecovery, h⟩
        have hmem := hlegal hrecovery h
        simp only [hclass, getLegalActions, List.mem_cons, List.not_mem_nil, or_false] at hmem
        rcases hmem with rfl | rfl
        · exact .inl h
        · exact .inr h
      · rintro (h | h)
        · exact ⟨_, by decide, by decide, h⟩
        · exact ⟨_, by decide, by decide, h⟩
  | s3EntropyCommitWindow =>
      have hiff : Executable ruleSet state .entropyCommit ↔ state.players ≠ [] :=
        executable_entropyCommit_iff hwf hpending hclass
      rw [← hiff]
      constructor
      · rintro ⟨kind, _, hrecovery, h⟩
        have hmem := hlegal hrecovery h
        simp only [hclass, getLegalActions, List.mem_singleton] at hmem
        exact hmem ▸ h
      · exact fun h => ⟨_, by decide, by decide, h⟩
  | s10SettledRound =>
      rw [← executable_settle_iff hwf hclass]
      constructor
      · rintro ⟨kind, _, hrecovery, h⟩
        have hmem := hlegal hrecovery h
        simp only [hclass, getLegalActions, List.mem_singleton] at hmem
        exact hmem ▸ h
      · exact fun h => ⟨_, by decide, by decide, h⟩
  | recovered =>
      simp only [iff_false]
      rintro ⟨kind, _, hrecovery, h⟩
      have hmem := hlegal hrecovery h
      rw [hclass] at hmem
      cases hmem
  | s4EntropyRevealWindow =>
      exact iff_of_true ⟨_, by decide, by decide, executable_entropyReveal hwf hpending hclass⟩
        trivial
  | s5DeckCommitted =>
      exact iff_of_true ⟨_, by decide, by decide, executable_cardReveal (.inl hclass)⟩ trivial
  | s6CardRevealFirst =>
      exact iff_of_true ⟨_, by decide, by decide, executable_cardReveal (.inr (.inl hclass))⟩
        trivial
  | s8BetDecision =>
      exact iff_of_true ⟨_, by decide, by decide, executable_pass hclass⟩ trivial
  | s9CardRevealThird =>
      exact iff_of_true ⟨_, by decide, by decide, executable_cardReveal (.inr (.inr hclass))⟩
        trivial
  | s11RotateTurn =>
      exact iff_of_true ⟨_, by decide, by decide, executable_rotateTurn hwf hclass⟩ trivial
  | s12TableClose =>
      exact iff_of_true ⟨_, by decide, by decide, executable_tableClose hclass⟩ trivial

/-- A `Timeout` of the game is accepted at S8 from the decision deadline
on. -/
theorem timeout_accepted_iff {a : TimeoutAction} (hgame : a.gameId = state.gameId) :
    (∃ state', Step ruleSet state (.timeout a, height) state') ↔
      state.stateClass = .s8BetDecision ∧
        matured height state.decisionDeadlineBlockHeight = true := by
  by_cases hclass : state.stateClass = .s8BetDecision
  · rw [and_iff_right hclass]
    simp only [Step, applyAction, SignedAction.base, SignedAction.actionType, hgame, hclass,
      getLegalActions, applyTimeout]
    cases state.decisionDeadlineBlockHeight with
    | none => simp [matured]
    | some deadline =>
        by_cases hearly : height.val < deadline.val
        · simp [matured, hearly]
        · simp [matured, hearly, Nat.not_lt.mp hearly]
  · refine iff_of_false ?_ fun h => hclass h.1
    rintro ⟨state', hstep⟩
    obtain ⟨_, haccepts⟩ := accepts_of_applyAction hstep
    cases haccepts with
    | timeout h8 => exact hclass h8

/-- A `Recovery` of the game is accepted from the recovery deadline on. -/
theorem recovery_accepted_iff {a : RecoveryAction} (hgame : a.gameId = state.gameId) :
    (∃ state', Step ruleSet state (.recovery a, height) state') ↔
      matured height state.recoveryDeadlineBlockHeight = true := by
  simp only [Step, applyAction, SignedAction.base, SignedAction.actionType, hgame, applyRecovery]
  cases state.recoveryDeadlineBlockHeight with
  | none => simp [matured]
  | some deadline =>
      by_cases hearly : height.val < deadline.val
      · simp [matured, hearly]
      · simp [matured, hearly, Nat.not_lt.mp hearly]

/-! ## The comparison -/

/-- What `eligibility` says at a height is what the engine accepts there,
for every action of the game. -/
def EligibilityAgrees (ruleSet : RuleSet) (state : RoundState) (height : SafeNat) : Prop :=
  ((eligibility state height).canCooperate = true ↔ CanCooperate ruleSet state height) ∧
    (∀ a : TimeoutAction, a.gameId = state.gameId →
      ((eligibility state height).canTimeout = true ↔
        ∃ state', Step ruleSet state (.timeout a, height) state')) ∧
    ∀ a : RecoveryAction, a.gameId = state.gameId →
      ((eligibility state height).canRecover = true ↔
        ∃ state', Step ruleSet state (.recovery a, height) state')

/-- Where the players are allowed something a handler lets them do
something, and a table that can still be closed has not been closed. -/
def OfferKept (ruleSet : RuleSet) (state : RoundState) : Prop :=
  match state.stateClass with
  | .s1SeatOpen =>
      ((state.players.length : Int) < ruleSet.playerCountMax ∧
        ∃ seat : SafeNat, seat ∉ state.players.map (·.seat)) ∨
      ruleSet.playerCountMin ≤ (state.players.length : Int)
  | .s3EntropyCommitWindow => state.players ≠ []
  | .s10SettledRound => Payable ruleSet state
  | .s12TableClose => state.allowedActions ≠ []
  | _ => True

/-- When the three answers are right: a matured decision deadline is one
of S8, and the offer to cooperate is kept. -/
def EligibilityOk (ruleSet : RuleSet) (state : RoundState) (height : SafeNat) : Prop :=
  (state.stateClass = .s8BetDecision ∨
      ∀ deadline, state.decisionDeadlineBlockHeight = some deadline →
        height.val < deadline.val) ∧
    OfferKept ruleSet state

/-- `canTimeout` is right at S8 and wherever no deadline has come. -/
theorem canTimeout_right_iff :
    (∀ a : TimeoutAction, a.gameId = state.gameId →
      ((eligibility state height).canTimeout = true ↔
        ∃ state', Step ruleSet state (.timeout a, height) state')) ↔
      (state.stateClass = .s8BetDecision ∨
        ∀ deadline, state.decisionDeadlineBlockHeight = some deadline →
          height.val < deadline.val) := by
  have hcan : (eligibility state height).canTimeout =
      matured height state.decisionDeadlineBlockHeight := rfl
  rw [hcan]
  constructor
  · intro hall
    have h := hall ⟨actionFor state.gameId none, "", 0⟩ rfl
    rw [timeout_accepted_iff rfl] at h
    by_cases hclass : state.stateClass = .s8BetDecision
    · exact .inl hclass
    · refine .inr fun deadline hdeadline => ?_
      by_contra hdue
      exact hclass (h.mp (matured_iff.mpr ⟨deadline, hdeadline, Nat.not_lt.mp hdue⟩)).1
  · intro h a hgame
    rw [timeout_accepted_iff hgame]
    constructor
    · intro hmatured
      refine ⟨?_, hmatured⟩
      rcases h with hclass | hearly
      · exact hclass
      · obtain ⟨x, hx, hle⟩ := matured_iff.mp hmatured
        have := hearly x hx
        omega
    · exact fun hboth => hboth.2

/-- `canCooperate` is right but for a closed table and for an allowed
action no handler accepts. -/
theorem canCooperate_right_iff (hwf : state.table.WF) (hpending : EntropyPending state)
    (hannotated : Annotated state) :
    ((eligibility state height).canCooperate = true ↔ CanCooperate ruleSet state height) ↔
      OfferKept ruleSet state := by
  have hcan : (eligibility state height).canCooperate = true ↔ state.allowedActions ≠ [] := by
    simp only [eligibility, decide_eq_true_eq, List.length_pos_iff]
  rw [hcan, canCooperate_iff, cooperation_iff hwf hpending, ne_eq, allowed_nil_iff hwf hannotated]
  simp only [CooperationOk, OfferKept]
  cases state.stateClass <;> simp

/-- **Eligibility agrees with the engine** exactly under `EligibilityOk`:
at every reachable state, whatever its deadlines are set to, and at every
height. -/
theorem eligibility_agrees_iff
    (h : Run ruleSet (initialState gameId ruleSetHash deadline) hist state)
    (decision recovery : Option SafeNat) (height : SafeNat) :
    EligibilityAgrees ruleSet (state.withDeadlines decision recovery) height ↔
      EligibilityOk ruleSet (state.withDeadlines decision recovery) height := by
  have hwf : (state.withDeadlines decision recovery).table.WF := (table_run h).2
  have hreached := entropyPending_of_run h
  have hpending : EntropyPending (state.withDeadlines decision recovery) := hreached
  have hlisted := annotated_of_run h
  have hannotated : Annotated (state.withDeadlines decision recovery) := hlisted
  generalize state.withDeadlines decision recovery = state at *
  have hrecover : ∀ a : RecoveryAction, a.gameId = state.gameId →
      ((eligibility state height).canRecover = true ↔
        ∃ state', Step ruleSet state (.recovery a, height) state') :=
    fun a hgame => (recovery_accepted_iff hgame).symm
  rw [EligibilityAgrees, canTimeout_right_iff, canCooperate_right_iff hwf hpending hannotated,
    and_iff_left hrecover, and_comm]
  rfl

/-- On the fresh table of the sample rule set the answers are right. -/
theorem eligibility_agrees_sample :
    EligibilityAgrees defaultRuleSet
      ((initialState "g" "" 244).withDeadlines none (some 244)) 250 :=
  (eligibility_agrees_iff .start none (some 244) 250).mpr
    ⟨.inr (fun _ h => by cases h), .inl ⟨by decide, 0, by decide⟩⟩

/-- With a decision deadline the fresh table is said to be open to a
`Timeout`; the engine knows one at S8 alone. -/
theorem eligible_timeout_refused :
    ¬∀ (ruleSet : RuleSet) (gameId ruleSetHash : String) (deadline : SafeNat)
      (hist : List ((SignedAction × SafeNat) × RoundState)) (state : RoundState)
      (decision recovery : Option SafeNat) (height : SafeNat),
      Run ruleSet (initialState gameId ruleSetHash deadline) hist state →
        EligibilityAgrees ruleSet (state.withDeadlines decision recovery) height := by
  intro hclaim
  have hagrees := hclaim defaultRuleSet "g" "" 244 [] _ (some 5) (some 244) 5 .start
  rcases canTimeout_right_iff.mp hagrees.2.1 with hclass | hearly
  · cases hclass
  · exact absurd (hearly 5 rfl) (by decide)

end CardTable.Ts
