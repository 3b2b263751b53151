import CardTable.Closing
import CardTable.Solvency

/-!
# Fallback — which pre-signed branches can be applied

`packages/state-engine/src/fallback.ts`. At session start every state has
up to three branches named: what the players do next, what silence does,
and the recovery. The enumeration reads the state class and the
deadlines; whether the engine would accept the branch is decided by
another table, `getLegalActions`, and by the handlers. Here the two are
put side by side, branch by branch.
-/

namespace CardTable.Ts

open Basis

/-! ## fallback.ts -/

inductive FallbackKind where
  | cooperative
  | timeout
  | recovery
  deriving DecidableEq, Repr

inductive LockTimeSpec where
  | immediate
  | relativeBlocks (blocks : Int)
  | absoluteHeight (height : SafeNat)
  deriving DecidableEq, Repr

structure FallbackBranch where
  kind : FallbackKind
  sourceStateClass : StateClass
  actionType : ActionType
  lockTimeSpec : LockTimeSpec
  note : String
  deriving DecidableEq, Repr

/-- The rule set with the field the enumeration reads. -/
structure FallbackRules extends RuleSet where
  decisionTimeoutBlocks : Int
  deriving DecidableEq, Repr

/-- The single cooperative action class for a state class. -/
def cooperativeFor : StateClass → Option ActionType
  | .s1SeatOpen => some .join
  | .s2TableLocked | .s3EntropyCommitWindow => some .entropyCommit
  | .s4EntropyRevealWindow => some .entropyReveal
  | .s5DeckCommitted | .s6CardRevealFirst | .s9CardRevealThird => some .cardReveal
  | .s7CardRevealSecond | .s8BetDecision => some .betAction
  | .s10SettledRound => some .settle
  | .s11RotateTurn => some .rotateTurn
  | .s12TableClose => some .tableClose
  | _ => none

/-- The default-consequence timeout for a state class. -/
def timeoutDefaultFor : StateClass → Option ActionType
  | .s3EntropyCommitWindow | .s4EntropyRevealWindow => some .timeout
  | .s7CardRevealSecond | .s8BetDecision | .s9CardRevealThird => some .timeout
  | _ => none

/-- The fallback branches that must be pre-signed for a state. -/
def enumerateFallbackGraph (state : RoundState) (ruleSet : FallbackRules) :
    List FallbackBranch :=
  let cooperative :=
    match cooperativeFor state.stateClass with
    | none => []
    | some action =>
        [⟨.cooperative, state.stateClass, action, .immediate,
          "happy path; signed at session start by the acting player or relevant quorum"⟩]
  let timeout :=
    match timeoutDefaultFor state.stateClass with
    | none => []
    | some action =>
        let blocks := ruleSet.decisionTimeoutBlocks
        [⟨.timeout, state.stateClass, action, .relativeBlocks blocks,
          s!"timeout default after decision_timeout_blocks={blocks} blocks"⟩]
  let recovery :=
    match state.recoveryDeadlineBlockHeight with
    | none => []
    | some height =>
        [⟨.recovery, state.stateClass, .recovery, .absoluteHeight height,
          "global recovery; signed by every seated player at session start"⟩]
  cooperative ++ timeout ++ recovery

/-- The three ways a branch gets into the graph. -/
theorem mem_enumerateFallbackGraph {state : RoundState} {ruleSet : FallbackRules}
    {b : FallbackBranch} (h : b ∈ enumerateFallbackGraph state ruleSet) :
    b.kind = .cooperative ∧ cooperativeFor state.stateClass = some b.actionType ∨
      b.kind = .timeout ∧ timeoutDefaultFor state.stateClass = some b.actionType ∨
      b.kind = .recovery ∧ b.actionType = .recovery := by
  simp only [enumerateFallbackGraph, List.mem_append] at h
  rcases h with (h | h) | h
  · split at h
    · cases h
    · rename_i action haction
      cases List.mem_singleton.mp h
      exact .inl ⟨rfl, haction⟩
  · split at h
    · cases h
    · rename_i action haction
      cases List.mem_singleton.mp h
      exact .inr (.inl ⟨rfl, haction⟩)
  · split at h
    · cases h
    · cases List.mem_singleton.mp h
      exact .inr (.inr ⟨rfl, rfl⟩)

variable {ruleSet : RuleSet} {state state' : RoundState} {gameId ruleSetHash : String}
  {deadline height : SafeNat} {hist : List ((SignedAction × SafeNat) × RoundState)}

/-! ## The entropy windows -/

/-- While entropy is collected somebody still has something to do: at S3
a player who has not committed, at S4, where all have, one who has not
revealed. -/
def EntropyPending (state : RoundState) : Prop :=
  match state.stateClass with
  | .s1SeatOpen => ∀ p ∈ state.players, p.entropyCommitted = false ∧ p.entropyRevealed = false
  | .s3EntropyCommitWindow =>
      (∀ p ∈ state.players, p.entropyRevealed = false) ∧
        (state.players ≠ [] → ∃ p ∈ state.players, p.entropyCommitted = false)
  | .s4EntropyRevealWindow =>
      (∀ p ∈ state.players, p.entropyCommitted = true) ∧
        ∃ p ∈ state.players, p.entropyRevealed = false
  | _ => True

/-- What an accepted commitment leaves. -/
theorem entropyCommit_eq_ok {a : EntropyCommitAction}
    (h : Step ruleSet state (.entropyCommit a, height) state') :
    state.stateClass = .s3EntropyCommitWindow ∧ ∃ seat idx p players,
      findSeat state.players seat = some (idx, p) ∧
      players = state.players.set idx { p with
        entropyCommitted := true, entropyCommitmentHash := some a.commitmentHash } ∧
      state'.players = players ∧
      state'.stateClass = if players.all (·.entropyCommitted)
        then .s4EntropyRevealWindow else .s3EntropyCommitWindow := by
  simp only [Step, applyAction] at h
  split at h
  · cases h
  · split at h
    · cases h
    · obtain ⟨hclass, seat, idx, p, players, hfind, -, hset, rfl⟩ := applyEntropyCommit_eq_ok h
      exact ⟨hclass, seat, idx, p, players, hfind, hset, rfl, rfl⟩

/-- What an accepted reveal leaves. -/
theorem entropyReveal_eq_ok {a : EntropyRevealAction}
    (h : Step ruleSet state (.entropyReveal a, height) state') :
    state.stateClass = .s4EntropyRevealWindow ∧ ∃ seat idx p players,
      findSeat state.players seat = some (idx, p) ∧
      players = state.players.set idx { p with
        entropyRevealed := true, entropyValue := some a.entropy
        participationStatus := .active } ∧
      state'.players = players ∧
      state'.stateClass = if players.all (·.entropyRevealed)
        then .s5DeckCommitted else .s4EntropyRevealWindow := by
  simp only [Step, applyAction] at h
  split at h
  · cases h
  · split at h
    · cases h
    · obtain ⟨hclass, seat, idx, p, players, hfind, -, hset, rfl⟩ := applyEntropyReveal_eq_ok h
      exact ⟨hclass, seat, idx, p, players, hfind, hset, rfl, rfl⟩

/-- A commitment keeps the window, or opens the next with nobody
revealed. -/
theorem EntropyPending.commit {a : EntropyCommitAction} (h : EntropyPending state)
    (hstep : Step ruleSet state (.entropyCommit a, height) state') : EntropyPending state' := by
  obtain ⟨hclass, seat, idx, p, players, hfind, hset, hplayers, hnext⟩ :=
    entropyCommit_eq_ok hstep
  simp only [EntropyPending, hclass] at h
  have hrevealed : ∀ q ∈ players, q.entropyRevealed = false := by
    intro q hq
    rw [hset] at hq
    rcases List.mem_or_eq_of_mem_set hq with hq | rfl
    · exact h.1 q hq
    · exact h.1 p (findSeat_mem hfind)
  by_cases hall : players.all (·.entropyCommitted) = true
  · -- the last commitment
    have hne : players ≠ [] := by
      rw [hset]
      simpa using List.ne_nil_of_mem (findSeat_mem hfind)
    obtain ⟨q, hq⟩ := List.exists_mem_of_ne_nil _ hne
    rw [if_pos hall] at hnext
    simp only [EntropyPending, hnext, hplayers]
    exact ⟨by simpa using hall, q, hq, hrevealed q hq⟩
  · rw [if_neg hall] at hnext
    simp only [EntropyPending, hnext, hplayers]
    exact ⟨hrevealed, fun _ => by simpa using hall⟩

/-- A reveal keeps the window or ends it. -/
theorem EntropyPending.reveal {a : EntropyRevealAction} (h : EntropyPending state)
    (hstep : Step ruleSet state (.entropyReveal a, height) state') : EntropyPending state' := by
  obtain ⟨hclass, seat, idx, p, players, hfind, hset, hplayers, hnext⟩ :=
    entropyReveal_eq_ok hstep
  simp only [EntropyPending, hclass] at h
  by_cases hall : players.all (·.entropyRevealed) = true
  · rw [if_pos hall] at hnext
    simp only [EntropyPending, hnext]
  · rw [if_neg hall] at hnext
    simp only [EntropyPending, hnext, hplayers]
    refine ⟨?_, by simpa using hall⟩
    intro q hq
    rw [hset] at hq
    rcases List.mem_or_eq_of_mem_set hq with hq | rfl
    · exact h.1 q hq
    · exact h.1 p (findSeat_mem hfind)

theorem EntropyPending.step {input : SignedAction × SafeNat} (h : EntropyPending state)
    (hstep : Step ruleSet state input state') : EntropyPending state' := by
  obtain ⟨action, height⟩ := input
  obtain ⟨_, haccepts⟩ := accepts_of_applyAction hstep
  cases haccepts with
  | join hclass =>
      simp only [EntropyPending, hclass] at h ⊢
      intro p hp
      rcases List.mem_append.mp hp with hp | hp
      · exact h p hp
      · rw [List.mem_singleton.mp hp]
        exact ⟨rfl, rfl⟩
  | tableLock hclass =>
      simp only [EntropyPending, hclass] at h
      refine ⟨fun p hp => (h p hp).2, ?_⟩
      intro hne
      obtain ⟨p, hp⟩ := List.exists_mem_of_ne_nil _ hne
      exact ⟨p, hp, (h p hp).1⟩
  | entropyCommit => exact h.commit hstep
  | entropyReveal => exact h.reveal hstep
  | dealConcealed hclass | tableClose hclass => simp only [EntropyPending, hclass]
  | _ => trivial

theorem entropyPending_of_run
    (h : Run ruleSet (initialState gameId ruleSetHash deadline) hist state) :
    EntropyPending state :=
  h.invariant (by simp [EntropyPending, initialState]) EntropyPending.step

/-! ## What the engine accepts -/

/-- Some action of the given type, for the state's game, is accepted at
some height. -/
def Executable (ruleSet : RuleSet) (state : RoundState) (kind : ActionType) : Prop :=
  ∃ action height state', action.actionType = kind ∧ action.base.gameId = state.gameId ∧
    Step ruleSet state (action, height) state'

/-- The common fields of an action for a game. -/
def actionFor (gameId : String) (seat : Option Int) : SignedActionBase :=
  { actionBy seat with gameId := gameId }

/-- A seated player is the one found on his seat. -/
theorem findSeat_of_mem (hwf : state.table.WF) {p : PlayerState} (hp : p ∈ state.players) :
    ∃ idx, findSeat state.players p.seat.val = some (idx, p) := by
  have hsome : (state.players.findIdx? fun q => (q.seat.val : Int) == p.seat.val).isSome := by
    rw [List.findIdx?_isSome]
    exact List.any_eq_true.mpr ⟨p, hp, by simp⟩
  obtain ⟨idx, hidx⟩ := Option.isSome_iff_exists.mp hsome
  obtain ⟨hlt, hseat, _⟩ := List.findIdx?_eq_some_iff_getElem.mp hidx
  have hsame : state.players[idx] = p := by
    refine List.inj_on_of_nodup_map hwf.seatsNodup (List.getElem_mem hlt) hp ?_
    simpa using hseat
  refine ⟨idx, ?_⟩
  simp only [findSeat, hidx, List.getElem?_eq_getElem hlt, hsame]
  rfl

/-- One accepted action shows its type executable. -/
theorem executable_of_ok {kind : ActionType} (action : SignedAction) (height : SafeNat)
    (hkind : action.actionType = kind) (hgame : action.base.gameId = state.gameId)
    (hok : ∃ state', applyAction state action ruleSet height = .ok state') :
    Executable ruleSet state kind := by
  obtain ⟨state', hok⟩ := hok
  exact ⟨action, height, state', hkind, hgame, hok⟩

theorem executable_join_iff (hclass : state.stateClass = .s1SeatOpen) :
    Executable ruleSet state .join ↔
      (state.players.length : Int) < ruleSet.playerCountMax ∧
        ∃ seat : SafeNat, seat ∉ state.players.map (·.seat) := by
  constructor
  · intro h
    obtain ⟨action, height, state', hkind, _, hstep⟩ := h
    obtain ⟨_, haccepts⟩ := accepts_of_applyAction hstep
    cases haccepts with
    | join _ _ hroom _ hfree => exact ⟨hroom, _, hfree⟩
    | _ => cases hkind
  · intro h
    obtain ⟨hroom, seat, hfree⟩ := h
    have hunseated : ¬∃ p, p ∈ state.players ∧ p.seat = seat := by
      simpa using hfree
    have hseat : asSeat (seat.val : Int) = .ok seat := asSafeNat_eq_ok.mpr rfl
    have hfull : ¬ruleSet.playerCountMax ≤ (state.players.length : Int) := by omega
    let a : JoinAction := ⟨actionFor state.gameId (some seat.val), "", ruleSet.stakeAmount.val⟩
    apply executable_of_ok (.join a) 0 rfl rfl
    simp only [applyAction, SignedAction.base, SignedAction.actionType, a, actionFor, actionBy,
      hclass, getLegalActions, applyJoin, hfull]
    simp [hseat, hunseated]

/-- At S3 a commitment is accepted as soon as anybody is seated. -/
theorem executable_entropyCommit_iff (hwf : state.table.WF) (hpending : EntropyPending state)
    (hclass : state.stateClass = .s3EntropyCommitWindow) :
    Executable ruleSet state .entropyCommit ↔ state.players ≠ [] := by
  simp only [EntropyPending, hclass] at hpending
  constructor
  · intro h
    obtain ⟨action, height, state', hkind, _, hstep⟩ := h
    obtain ⟨_, haccepts⟩ := accepts_of_applyAction hstep
    cases haccepts with
    | entropyCommit _ hfind => exact List.ne_nil_of_mem (findSeat_mem hfind)
    | _ => cases hkind
  · intro hne
    obtain ⟨p, hp, hopen⟩ := hpending.2 hne
    obtain ⟨idx, hfind⟩ := findSeat_of_mem hwf hp
    let a : EntropyCommitAction := ⟨actionFor state.gameId (some p.seat.val), ""⟩
    apply executable_of_ok (.entropyCommit a) 0 rfl rfl
    simp [applyAction, SignedAction.base, SignedAction.actionType, a, actionFor, actionBy, hclass,
      getLegalActions, applyEntropyCommit, hfind, hopen]

/-- At S4 some reveal is always accepted. -/
theorem executable_entropyReveal (hwf : state.table.WF) (hpending : EntropyPending state)
    (hclass : state.stateClass = .s4EntropyRevealWindow) :
    Executable ruleSet state .entropyReveal := by
  simp only [EntropyPending, hclass] at hpending
  obtain ⟨hall, p, hp, hopen⟩ := hpending
  obtain ⟨idx, hfind⟩ := findSeat_of_mem hwf hp
  let a : EntropyRevealAction := ⟨actionFor state.gameId (some p.seat.val), ""⟩
  apply executable_of_ok (.entropyReveal a) 0 rfl rfl
  simp [applyAction, SignedAction.base, SignedAction.actionType, a, actionFor, actionBy, hclass,
    getLegalActions, applyEntropyReveal, hfind, hall p hp, hopen]

/-- A card is accepted wherever one is awaited. -/
theorem executable_cardReveal (hclass : state.stateClass = .s5DeckCommitted ∨
    state.stateClass = .s6CardRevealFirst ∨ state.stateClass = .s9CardRevealThird) :
    Executable ruleSet state .cardReveal := by
  let a : CardRevealAction := ⟨actionFor state.gameId none, ⟨0, ⟨"", "", 0⟩, "", ""⟩⟩
  apply executable_of_ok (.cardReveal a) 0 rfl rfl
  rcases hclass with h5 | h6 | h9
  · simp [applyAction, SignedAction.base, SignedAction.actionType, a, actionFor, h5,
      getLegalActions, applyCardReveal]
  · simp [applyAction, SignedAction.base, SignedAction.actionType, a, actionFor, h6,
      getLegalActions, applyCardReveal]
  · simp [applyAction, SignedAction.base, SignedAction.actionType, a, actionFor, h9,
      getLegalActions, applyCardReveal]

/-- At S8 some bet is accepted when the bounds leave one and the pot has
room for the smallest. -/
theorem executable_bet_iff (hclass : state.stateClass = .s8BetDecision) :
    Executable ruleSet state .betAction ↔
      ruleSet.minBet.val ≤ ruleSet.maxBet.val ∧
        state.potValue.val + ruleSet.minBet.val ≤ maxSafeInteger := by
  constructor
  · intro h
    obtain ⟨action, height, state', hkind, _, hstep⟩ := h
    obtain ⟨_, haccepts⟩ := accepts_of_applyAction hstep
    cases haccepts with
    | @bet _ pot _ hmin hmax hpot =>
        have := pot.isLe
        exact ⟨by omega, by omega⟩
    | _ => cases hkind
  · intro h
    obtain ⟨hbounds, hroom⟩ := h
    let a : BetAction := ⟨actionFor state.gameId none, ruleSet.minBet.val⟩
    apply executable_of_ok (.betAction a) 0 rfl rfl
    have hrange : ¬((ruleSet.minBet.val : Int) < ruleSet.minBet.val ∨
        (ruleSet.maxBet.val : Int) < ruleSet.minBet.val) := by omega
    rcases addToPot_cases state.potValue ruleSet.minBet.val with ⟨pot, hpot, _⟩ | ⟨k, _, hbad⟩
    · simp only [applyAction, SignedAction.base, SignedAction.actionType, a, actionFor, hclass,
        getLegalActions, applyBet, hrange, hpot]
      simp
    · omega

/-- What S10 must hold for a settlement to be accepted: three cards, and
amounts that stay amounts. -/
def Payable (ruleSet : RuleSet) (state : RoundState) : Prop :=
  state.visibleCards.length = 3 ∧
    ∀ acting cls, state.actingPlayerSeat = some acting →
      classifyInBetweenRound state.visibleCards = .ok cls →
      InRange (state.potValue.val +
          -exactDelta cls.outcome state.potValue ruleSet.settlementRules) ∧
        ∀ p ∈ state.players, p.seat = acting → InRange (p.stakeAtRisk.val +
          exactDelta cls.outcome state.potValue ruleSet.settlementRules)

theorem executable_settle_iff (hwf : state.table.WF)
    (hclass : state.stateClass = .s10SettledRound) :
    Executable ruleSet state .settle ↔ Payable ruleSet state := by
  have hinv := hwf.phaseInv
  simp only [Table.PhaseInv, RoundState.table, hclass] at hinv
  obtain ⟨⟨_, x, _, hx, _⟩, _⟩ := hinv
  obtain ⟨acting, hacting, _⟩ := Option.map_eq_some_iff.mp hx
  constructor
  · intro h
    obtain ⟨action, height, state', hkind, hgame, hstep⟩ := h
    obtain ⟨_, haccepts⟩ := accepts_of_applyAction hstep
    cases haccepts with
    | @settle a _ _ _ _ _ _ hshown _ _ _ _ _ =>
        refine ⟨hshown, ?_⟩
        intro acting' cls hacting' hcls
        have hgame : a.gameId = state.gameId := hgame
        rw [step_settle_iff hclass hgame] at hstep
        exact (applySettle_accepts_iff hclass hshown hacting' hcls).mp ⟨_, hstep⟩
    | _ => cases hkind
  · intro h
    obtain ⟨hshown, hpays⟩ := h
    obtain ⟨cls, hcls, _⟩ := classify_agree state.visibleCards hshown
    obtain ⟨next, hnext⟩ := (applySettle_accepts_iff hclass hshown hacting hcls).mpr
      (hpays acting cls hacting hcls)
    refine ⟨.settle (actionFor state.gameId none), 0, next, rfl, rfl, ?_⟩
    rw [step_settle_iff hclass rfl]
    exact hnext

/-- At S11 a rotation is always accepted: the round number stays below
the number of players. -/
theorem executable_rotateTurn (hwf : state.table.WF)
    (hclass : state.stateClass = .s11RotateTurn) : Executable ruleSet state .rotateTurn := by
  have hinv := hwf.phaseInv
  simp only [Table.PhaseInv, RoundState.table, hclass] at hinv
  obtain ⟨_, x, _, _, hmem, _⟩ := hinv
  have hne : sortedSeats state.players ≠ [] := by
    intro hnil
    obtain ⟨p, hp, _⟩ := List.mem_map.mp hmem
    have := (sortedSeats_perm state.players).mem_iff.mpr (List.mem_map_of_mem hp)
    rw [hnil] at this
    cases this
  apply executable_of_ok (.rotateTurn (actionFor state.gameId none)) 0 rfl rfl
  obtain ⟨firstSeat, rest, hseats⟩ := List.exists_cons_of_ne_nil hne
  have hstep : ∃ next, applyRotateTurn state = .ok next := by
    simp only [applyRotateTurn, hclass, ne_eq, not_true_eq_false, if_false, hseats]
    by_cases hwrap : state.actingPlayerSeat ≠ none ∧
        seatAfter (firstSeat :: rest) firstSeat state.actingPlayerSeat = firstSeat
    · exact ⟨_, if_pos hwrap⟩
    · rw [if_neg hwrap]
      rcases asSafeNat_toDouble_cases "asRoundNumber" (state.roundNumber.val + 1) with
        ⟨round, hround, _⟩ | ⟨_, _, hover⟩
      · simp [asRoundNumber, hround]
      · have hmax := state.roundNumber.isLe
        exact absurd ⟨hclass, by omega, firstSeat, rest, hseats, hwrap⟩ (not_rotateDiverges hwf)
  simpa [applyAction, SignedAction.base, SignedAction.actionType, actionFor, hclass,
    getLegalActions] using hstep

theorem executable_tableClose (hclass : state.stateClass = .s12TableClose) :
    Executable ruleSet state .tableClose := by
  apply executable_of_ok (.tableClose (actionFor state.gameId none)) 0 rfl rfl
  simp [applyAction, SignedAction.base, SignedAction.actionType, actionFor, hclass,
    getLegalActions, applyTableClose]

/-- A recovery is accepted at its deadline. -/
theorem executable_recovery (hdeadline : state.recoveryDeadlineBlockHeight = some deadline) :
    Executable ruleSet state .recovery := by
  apply executable_of_ok (.recovery ⟨actionFor state.gameId none, ""⟩) deadline rfl rfl
  simp [applyAction, SignedAction.base, SignedAction.actionType, actionFor, applyRecovery,
    hdeadline]

/-- **No timeout is ever accepted**: the engine sets no decision
deadline. -/
theorem not_executable_timeout (hdecision : state.decisionDeadlineBlockHeight = none) :
    ¬Executable ruleSet state .timeout := by
  intro h
  obtain ⟨action, height, state', hkind, _, hstep⟩ := h
  cases action with
  | timeout a =>
      simp only [Step, applyAction] at hstep
      split at hstep
      · cases hstep
      · split at hstep
        · cases hstep
        · simp only [applyTimeout, hdecision] at hstep
          split at hstep
          · cases hstep
          · cases hstep
  | _ => cases hkind

/-! ## Branches -/

/-- When the cooperative branch of a state can be applied. -/
def CooperativeOk (ruleSet : RuleSet) (state : RoundState) : Prop :=
  match state.stateClass with
  | .s1SeatOpen => (state.players.length : Int) < ruleSet.playerCountMax ∧
      ∃ seat : SafeNat, seat ∉ state.players.map (·.seat)
  | .s3EntropyCommitWindow => state.players ≠ []
  | .s8BetDecision => ruleSet.minBet.val ≤ ruleSet.maxBet.val ∧
      state.potValue.val + ruleSet.minBet.val ≤ maxSafeInteger
  | .s10SettledRound => Payable ruleSet state
  | _ => True

/-- When a branch of a state can be applied. -/
def BranchOk (ruleSet : RuleSet) (state : RoundState) : FallbackKind → Prop
  | .cooperative => CooperativeOk ruleSet state
  | .timeout => False
  | .recovery => True

theorem executable_cooperative_iff
    (h : Run ruleSet (initialState gameId ruleSetHash deadline) hist state) {kind : ActionType}
    (hkind : cooperativeFor state.stateClass = some kind) :
    Executable ruleSet state kind ↔ CooperativeOk ruleSet state := by
  have hwf := (table_run h).2
  have hpending := entropyPending_of_run h
  have hphase := hwf.phaseInv
  simp only [Table.PhaseInv, RoundState.table] at hphase
  unfold CooperativeOk
  -- the class names the branch, and each branch has its lemma
  cases hclass : state.stateClass with
  | s0TableOpen | recovered =>
      rw [hclass] at hkind
      cases hkind
  -- no run comes to rest in these two
  | s2TableLocked | s7CardRevealSecond =>
      rw [hclass] at hphase
      exact hphase.elim
  | s1SeatOpen =>
      rw [hclass] at hkind
      cases hkind
      exact executable_join_iff hclass
  | s3EntropyCommitWindow =>
      rw [hclass] at hkind
      cases hkind
      exact executable_entropyCommit_iff hwf hpending hclass
  | s4EntropyRevealWindow =>
      rw [hclass] at hkind
      cases hkind
      exact iff_of_true (executable_entropyReveal hwf hpending hclass) trivial
  | s5DeckCommitted =>
      rw [hclass] at hkind
      cases hkind
      exact iff_of_true (executable_cardReveal (.inl hclass)) trivial
  | s6CardRevealFirst =>
      rw [hclass] at hkind
      cases hkind
      exact iff_of_true (executable_cardReveal (.inr (.inl hclass))) trivial
  | s8BetDecision =>
      rw [hclass] at hkind
      cases hkind
      exact executable_bet_iff hclass
  | s9CardRevealThird =>
      rw [hclass] at hkind
      cases hkind
      exact iff_of_true (executable_cardReveal (.inr (.inr hclass))) trivial
  | s10SettledRound =>
      rw [hclass] at hkind
      cases hkind
      exact executable_settle_iff hwf hclass
  | s11RotateTurn =>
      rw [hclass] at hkind
      cases hkind
      exact iff_of_true (executable_rotateTurn hwf hclass) trivial
  | s12TableClose =>
      rw [hclass] at hkind
      cases hkind
      exact iff_of_true (executable_tableClose hclass) trivial

/-- **Which pre-signed branches can be applied.** In every reachable
state: a recovery branch always; a timeout branch never; the cooperative
branch always, except that at S1 a seat must be free, at S3 somebody
seated, at S8 a bet possible, and at S10 the round payable. -/
theorem branch_executable_iff {rules : FallbackRules}
    (h : Run rules.toRuleSet (initialState gameId ruleSetHash deadline) hist state)
    {b : FallbackBranch} (hb : b ∈ enumerateFallbackGraph state rules) :
    Executable rules.toRuleSet state b.actionType ↔ BranchOk rules.toRuleSet state b.kind := by
  obtain ⟨_, hrecovery, hdecision⟩ := identity_of_run h
  rcases mem_enumerateFallbackGraph hb with ⟨hkind, haction⟩ | ⟨hkind, haction⟩ | ⟨hkind, haction⟩
  · rw [hkind]
    exact executable_cooperative_iff h haction
  · have htimeout : b.actionType = .timeout := by
      revert haction
      cases state.stateClass with
      | _ => simp [timeoutDefaultFor, eq_comm]
    rw [hkind, htimeout]
    exact iff_of_false (not_executable_timeout hdecision) id
  · rw [hkind, haction]
    exact iff_of_true (executable_recovery hrecovery) trivial

/-- The rule set of the tests, with its six blocks. -/
def sampleFallbackRules : FallbackRules := { defaultRuleSet with decisionTimeoutBlocks := 6 }

/-- The recovery branch of a new table. -/
theorem branch_executable_initial :
    ⟨.recovery, .s1SeatOpen, .recovery, .absoluteHeight 244,
        "global recovery; signed by every seated player at session start"⟩ ∈
      enumerateFallbackGraph (initialState "g" "" 244) sampleFallbackRules ∧
    (Executable sampleFallbackRules.toRuleSet (initialState "g" "" 244) .recovery ↔
      BranchOk sampleFallbackRules.toRuleSet (initialState "g" "" 244) .recovery) := by
  refine ⟨by decide, ?_⟩
  exact branch_executable_iff .start (b := ⟨.recovery, .s1SeatOpen, .recovery,
    .absoluteHeight 244, "global recovery; signed by every seated player at session start"⟩)
    (by decide)

/-- At a table waiting for a bet the timeout is signed and can never be
applied. -/
theorem timeout_branch_dead :
    ¬∀ (rules : FallbackRules) (gameId ruleSetHash : String) (deadline : SafeNat)
      (hist : List ((SignedAction × SafeNat) × RoundState)) (state : RoundState),
      Run rules.toRuleSet (initialState gameId ruleSetHash deadline) hist state →
      ∀ b ∈ enumerateFallbackGraph state rules,
        Executable rules.toRuleSet state b.actionType := by
  intro hclaim
  have hout : (playSample (openTable 0 1)).map
      (fun r => (enumerateFallbackGraph r.2 sampleFallbackRules).any
        (fun b => b.actionType == .timeout)) = some true := by
    decide
  obtain ⟨r, hplay, hany⟩ := Option.map_eq_some_iff.mp hout
  obtain ⟨b, hb, htimeout⟩ := List.any_eq_true.mp hany
  have hrun := run_of_playSample hplay
  have hexec := hclaim sampleFallbackRules _ _ _ _ _ hrun b hb
  rw [beq_iff_eq.mp htimeout] at hexec
  exact not_executable_timeout (identity_of_run hrun).2.2 hexec

end CardTable.Ts
