import CardTable.Go.Session
import CardTable.Go.Steps
import CardTable.Basis.Rotation

/-!
# Go.Replay — the live session against its replay

`Submit` is gate, engine and deck commitment; `Session.Replay` is the
engine alone. The engine neither reads nor writes the two fields the deck
commitment is stamped into, so a replay always ends in the session's
state with those two fields blank (`replay_eq_bare`). They stay blank in
the session exactly until every seated player has revealed, and from then
on the replay is not the session's state.
-/

namespace CardTable.Go

open Basis Cards

/-! ## The engine does not see the deck commitment -/

/-- The state with the fields of the deck commitment blank. -/
def RoundState.bare (state : RoundState) : RoundState :=
  { state with combinedEntropy := "", deckCommitmentHash := "" }

theorem bare_eq_self {state : RoundState} (hcombined : state.combinedEntropy = "")
    (hcommitted : state.deckCommitmentHash = "") : state.bare = state := by
  cases state
  cases hcombined
  cases hcommitted
  rfl

section Bare

variable {state : RoundState} {a : SignedAction} {ruleSet : RuleSet} {height : UInt32}

@[simp] theorem bare_stateClass : state.bare.stateClass = state.stateClass := rfl
@[simp] theorem bare_gameId : state.bare.gameId = state.gameId := rfl
@[simp] theorem bare_players : state.bare.players = state.players := rfl
@[simp] theorem bare_actingPlayerSeat : state.bare.actingPlayerSeat = state.actingPlayerSeat := rfl
@[simp] theorem bare_potValue : state.bare.potValue = state.potValue := rfl
@[simp] theorem bare_visibleCards : state.bare.visibleCards = state.visibleCards := rfl
@[simp] theorem bare_concealedDeck : state.bare.concealedDeck = state.concealedDeck := rfl
@[simp] theorem bare_roundNumber : state.bare.roundNumber = state.roundNumber := rfl
@[simp] theorem bare_decisionDeadline :
    state.bare.decisionDeadlineBlockHeight = state.decisionDeadlineBlockHeight := rfl
@[simp] theorem bare_recoveryDeadline :
    state.bare.recoveryDeadlineBlockHeight = state.recoveryDeadlineBlockHeight := rfl

private theorem applyJoin_bare :
    applyJoin state.bare a ruleSet = (applyJoin state a ruleSet).map RoundState.bare := by
  simp only [applyJoin]
  rw [bare_stateClass, bare_players]
  split
  · rfl
  · split
    · rfl
    · split
      · rfl
      · split
        · rfl
        · rfl

private theorem applyTableLock_bare :
    applyTableLock state.bare ruleSet = (applyTableLock state ruleSet).map RoundState.bare := by
  simp only [applyTableLock]
  rw [bare_stateClass, bare_players]
  split
  · rfl
  · split
    · rfl
    · rfl

private theorem applyEntropyCommit_bare :
    applyEntropyCommit state.bare a = (applyEntropyCommit state a).map RoundState.bare := by
  simp only [applyEntropyCommit]
  rw [bare_stateClass, bare_players]
  split
  · rfl
  · split
    · rfl
    · split
      · rfl
      · split
        · rfl
        · rfl

private theorem applyEntropyReveal_bare :
    applyEntropyReveal state.bare a = (applyEntropyReveal state a).map RoundState.bare := by
  simp only [applyEntropyReveal]
  rw [bare_stateClass, bare_players]
  split
  · rfl
  · split
    · rfl
    · split
      · rfl
      · split
        · rfl
        · split
          · rfl
          · rfl

private theorem applyCardReveal_bare :
    applyCardReveal state.bare a = (applyCardReveal state a).map RoundState.bare := by
  simp only [applyCardReveal]
  rw [bare_stateClass, bare_players, bare_visibleCards, bare_actingPlayerSeat]
  split
  · rfl
  · rfl
  · rfl
  · rfl

private theorem applyDealConcealed_bare :
    applyDealConcealed state.bare a ruleSet =
      (applyDealConcealed state a ruleSet).map RoundState.bare := by
  simp only [applyDealConcealed]
  rw [bare_stateClass, bare_concealedDeck]
  split
  · rfl
  · split
    · rfl
    · split
      · rfl
      · split
        · rfl
        · rfl

private theorem applyBet_bare :
    applyBet state.bare a ruleSet = (applyBet state a ruleSet).map RoundState.bare := by
  simp only [applyBet]
  rw [bare_stateClass, bare_potValue]
  split
  · rfl
  · split
    · rfl
    · split
      · rfl
      · rfl

private theorem applyPass_bare :
    applyPass state.bare = (applyPass state).map RoundState.bare := by
  simp only [applyPass]
  rw [bare_stateClass]
  split
  · rfl
  · rfl

private theorem applyFold_bare :
    applyFold state.bare a = (applyFold state a).map RoundState.bare := by
  simp only [applyFold]
  rw [bare_stateClass, bare_players, bare_concealedDeck]
  split
  · rfl
  · split
    · rfl
    · split
      · rfl
      · split
        · rfl
        · split
          · rfl
          · rfl

private theorem applySettle_bare :
    applySettle state.bare ruleSet = (applySettle state ruleSet).map RoundState.bare := by
  simp only [applySettle]
  rw [bare_stateClass, bare_players, bare_visibleCards, bare_potValue, bare_actingPlayerSeat]
  split
  · rfl
  · split
    · rfl
    · split
      · rfl
      · split
        · rfl
        · split
          · rfl
          · split
            · rfl
            · rfl

private theorem applyRotateTurn_bare :
    applyRotateTurn state.bare = (applyRotateTurn state).map RoundState.bare := by
  simp only [applyRotateTurn]
  rw [bare_stateClass, bare_players, bare_actingPlayerSeat, bare_roundNumber]
  split
  · rfl
  · split
    · rfl
    · split
      · rfl
      · rfl

private theorem applyTableClose_bare :
    applyTableClose state.bare = (applyTableClose state).map RoundState.bare := by
  simp only [applyTableClose]
  rw [bare_stateClass]
  split
  · rfl
  · rfl

private theorem applyTimeout_bare :
    applyTimeout state.bare height = (applyTimeout state height).map RoundState.bare := by
  simp only [applyTimeout]
  rw [bare_stateClass, bare_decisionDeadline]
  split
  · rfl
  · split
    · rfl
    · split
      · rfl
      · rfl

private theorem applyRecovery_bare :
    applyRecovery state.bare height = (applyRecovery state height).map RoundState.bare := by
  simp only [applyRecovery]
  rw [bare_recoveryDeadline]
  split
  · rfl
  · split
    · rfl
    · rfl

/-- **The engine does not see the deck commitment**: blanking its fields
before a transition or after it is the same. -/
theorem applyAction_bare :
    applyAction state.bare a ruleSet height =
      (applyAction state a ruleSet height).map RoundState.bare := by
  simp only [applyAction]
  rw [bare_gameId, bare_stateClass]
  split
  · rfl
  · split
    · rfl
    · split
      · exact applyJoin_bare
      · exact applyTableLock_bare
      · exact applyEntropyCommit_bare
      · exact applyEntropyReveal_bare
      · exact applyCardReveal_bare
      · exact applyDealConcealed_bare
      · exact applyBet_bare
      · exact applyPass_bare
      · exact applyFold_bare
      · exact applySettle_bare
      · exact applyRotateTurn_bare
      · exact applyTableClose_bare
      · exact applyTimeout_bare
      · exact applyRecovery_bare

end Bare

/-! ## Which reveals lie behind a state -/

/-- Somebody is seated, and everybody seated has revealed. -/
def AllRevealed (players : List PlayerState) : Prop :=
  players ≠ [] ∧ ∀ p ∈ players, p.entropyRevealed = true

instance (players : List PlayerState) : Decidable (AllRevealed players) :=
  inferInstanceAs (Decidable (_ ∧ _))

/-- The reveals a state class has behind it: none up to S3, not all at
S4, all from S5 on. A recovered game stopped anywhere. -/
def RevealsOf (players : List PlayerState) : StateClass → Prop
  | .s0TableOpen | .s1SeatOpen | .s2TableLocked | .s3EntropyCommitWindow =>
      ∀ p ∈ players, p.entropyRevealed = false
  | .s4EntropyRevealWindow => ∃ p ∈ players, p.entropyRevealed = false
  | .recovered => True
  | _ => AllRevealed players

/-- Players with the same reveal flags. -/
def SameReveals (players players' : List PlayerState) : Prop :=
  players'.map (·.entropyRevealed) = players.map (·.entropyRevealed)

theorem SameReveals.set {players : List PlayerState} {seat : Int} {idx : Nat}
    {p q : PlayerState} (hfind : findSeat players seat = some (idx, p))
    (hq : q.entropyRevealed = p.entropyRevealed) : SameReveals players (players.set idx q) :=
  map_set_of_eq (findSeat_getElem? hfind) hq

theorem SameReveals.forall_iff {players players' : List PlayerState}
    (h : SameReveals players players') (b : Bool) :
    (∀ p ∈ players', p.entropyRevealed = b) ↔ ∀ p ∈ players, p.entropyRevealed = b := by
  have hmap : ∀ l : List PlayerState, (∀ p ∈ l, p.entropyRevealed = b) ↔
      ∀ flag ∈ l.map (·.entropyRevealed), flag = b := by simp
  rw [hmap, hmap, h]

theorem SameReveals.allRevealed_iff {players players' : List PlayerState}
    (h : SameReveals players players') : AllRevealed players' ↔ AllRevealed players := by
  have hlen : players'.length = players.length := by simpa using congrArg List.length h
  have hnil : players' = [] ↔ players = [] := by
    rw [← List.length_eq_zero_iff, ← List.length_eq_zero_iff, hlen]
  simp only [AllRevealed, ne_eq, hnil, h.forall_iff]

/-- Before S5 not everybody has revealed. -/
theorem not_allRevealed {players : List PlayerState}
    (h : ∀ p ∈ players, p.entropyRevealed = false) : ¬AllRevealed players := by
  intro hx
  obtain ⟨hne, hall⟩ := hx
  obtain ⟨p, hp⟩ := List.exists_mem_of_ne_nil players hne
  have := (h p hp).symm.trans (hall p hp)
  cases this

/-- **What an accepted action does to the reveals**: they match the new
state class, and they become complete in the step from S4 to S5. -/
theorem Accepts.reveals {ruleSet : RuleSet} {height : UInt32} {state state' : RoundState}
    {a : SignedAction} (h : Accepts ruleSet height state a state')
    (hm : RevealsOf state.players state.stateClass) :
    RevealsOf state'.players state'.stateClass ∧
      (AllRevealed state'.players ↔ AllRevealed state.players ∨
        state.stateClass = .s4EntropyRevealWindow ∧ state'.stateClass = .s5DeckCommitted) := by
  cases h with
  | @join seat hkind hclass =>
      simp only [RevealsOf, hclass] at hm
      have hnew : ∀ p ∈ state.players ++ [joinedPlayer a seat], p.entropyRevealed = false := by
        intro p hp
        rcases List.mem_append.mp hp with hp | hp
        · exact hm p hp
        · cases List.mem_singleton.mp hp
          rfl
      exact ⟨by simpa [RevealsOf, hclass] using hnew,
        by simp [not_allRevealed hnew, not_allRevealed hm, hclass]⟩
  | @entropyCommit seat idx p next hkind hclass _ hfind hnext =>
      simp only [RevealsOf, hclass] at hm
      have hsame : SameReveals state.players _ := SameReveals.set (q := { p with
          entropyCommitted := true
          entropyCommitmentHash := a.commitmentHash }) hfind rfl
      have hnew := (hsame.forall_iff false).mpr hm
      refine ⟨?_, by simp [not_allRevealed hnew, not_allRevealed hm, hclass]⟩
      rcases hnext with rfl | rfl
      · exact hnew
      · have hne : ∀ q, state.players.set idx q ≠ [] := by
          intro q
          simpa using List.ne_nil_of_mem (findSeat_mem hfind)
        obtain ⟨q, hq⟩ := List.exists_mem_of_ne_nil _ (hne _)
        exact ⟨q, hq, hnew q hq⟩
  | @entropyReveal seat idx p players next hkind hclass hseat hfind hplayers hnext =>
      simp only [RevealsOf, hclass] at hm
      have hbefore : ¬AllRevealed state.players := by
        intro hx
        obtain ⟨_, hall⟩ := hx
        obtain ⟨q, hq, hfalse⟩ := hm
        rw [hall q hq] at hfalse
        cases hfalse
      have hne : players ≠ [] := by
        rw [hplayers]
        simpa using List.ne_nil_of_mem (findSeat_mem hfind)
      by_cases hall : players.all (·.entropyRevealed) = true
      · -- the last reveal
        have hcomplete : AllRevealed players := ⟨hne, by simpa using hall⟩
        simp only [hall, if_true] at hnext
        subst hnext
        exact ⟨hcomplete, by simp [hcomplete, hclass, RoundState.advance]⟩
      · have hopen : ∃ q ∈ players, q.entropyRevealed = false := by simpa using hall
        have hnot : ¬AllRevealed players := by
          intro hx
          obtain ⟨_, hrev⟩ := hx
          exact hall (by simpa using hrev)
        simp only [hall, Bool.false_eq_true, if_false] at hnext
        subst hnext
        exact ⟨hopen, by simp [hnot, hbefore, RoundState.advance]⟩
  | @fold seat idx p hkind hclass _ hfind =>
      have hsame : SameReveals state.players _ :=
        SameReveals.set (q := { p with participationStatus := .folded }) hfind rfl
      have hall : AllRevealed state.players := by
        rcases hclass with hclass | hclass
        · simpa [RevealsOf, hclass] using hm
        · simpa [RevealsOf, hclass] using hm
      have hnew := hsame.allRevealed_iff.mpr hall
      exact ⟨hnew, by simp [hall, hnew]⟩
  | settle hkind hclass _ _ _ _ _ hplayers =>
      have hsame : SameReveals state.players _ := settlePlayers_map (fun _ _ => rfl) hplayers
      have hall : AllRevealed state.players := by simpa [RevealsOf, hclass] using hm
      have hnew := hsame.allRevealed_iff.mpr hall
      exact ⟨hnew, by simp [hall, hnew]⟩
  | recovery hkind => exact ⟨trivial, by simp⟩
  | _ hkind hclass =>
      -- the players and their flags stay as they are
      exact ⟨by simpa [RevealsOf, RoundState.advance, hclass] using hm,
        by simp [hclass, RoundState.advance]⟩

/-! ## The session -/

/-- The engine's loop, continued. -/
theorem replayFrom_append {ruleSet : RuleSet} {state state' : RoundState} {i j : Int}
    {xs ys : List (SignedAction × UInt32)}
    (h : replayFrom ruleSet state i xs = (state', j, none)) :
    replayFrom ruleSet state i (xs ++ ys) = replayFrom ruleSet state' j ys := by
  induction xs generalizing state i with
  | nil =>
      simp only [replayFrom, Prod.mk.injEq, and_true] at h
      obtain ⟨rfl, rfl⟩ := h
      rfl
  | cons x xs ih =>
      obtain ⟨a, height⟩ := x
      simp only [replayFrom, List.cons_append] at h ⊢
      split at h
      · simp at h
      · exact ih h

namespace Session

/-- What binding the deck does to a state: nothing, or it fills in the
two fields. -/
theorem bindDeck_eq_ok {ruleSet : RuleSet} {prior next final : RoundState}
    (h : bindDeck ruleSet prior next = .ok final) :
    final.bare = next.bare ∧
      if Unbound prior next then final.combinedEntropy ≠ "" ∧ final.deckCommitmentHash ≠ ""
      else final = next := by
  simp only [bindDeck] at h
  split at h
  · rename_i hunbound
    obtain ⟨entropies, dc, _, _, hdc, rfl⟩ := materialise_eq_ok h
    obtain ⟨_, _, _, deck, _, rfl⟩ := buildDeckCommitment_eq_ok_iff.mp hdc
    refine ⟨rfl, ?_⟩
    have hfilled : ∀ {b : List UInt8}, b.length = 32 → Hex.encode b ≠ "" := by
      intro b hb hempty
      rw [Hex.encode_eq_empty_iff.mp hempty] at hb
      cases hb
    simp only [hunbound, if_true]
    exact ⟨hfilled (length_domainHash _ _), hfilled (length_domainHash _ _)⟩
  · rename_i hbound
    cases h
    simp [hbound]

/-- What every run keeps: the replay of the transcript is the state with
the deck commitment blank, and the commitment is there exactly when every
seated player has revealed. -/
structure Tracks (gameId : String) (ruleSet : RuleSet) (ruleSetHash : String)
    (recoveryDeadline : UInt32) (s : Session) : Prop where
  game : s.gameId = gameId
  rules : s.ruleSet = ruleSet
  lengths : s.transcript.length = s.heights.length
  replayed : replayFrom ruleSet (initialState gameId ruleSetHash recoveryDeadline) 0
    (s.transcript.zip s.heights) = (s.state.bare, (s.transcript.length : Int), none)
  reveals : RevealsOf s.state.players s.state.stateClass
  combined : s.state.combinedEntropy ≠ "" ↔ AllRevealed s.state.players
  committed : s.state.deckCommitmentHash ≠ "" ↔ AllRevealed s.state.players

variable {gameId : String} {ruleSet : RuleSet} {ruleSetHash : String} {recoveryDeadline : UInt32}
  {s s' : Session} {call : SignedAction × UInt32}

theorem tracks_new :
    Tracks gameId ruleSet ruleSetHash recoveryDeadline
      (new gameId ruleSet ruleSetHash recoveryDeadline) where
  game := rfl
  rules := rfl
  lengths := rfl
  replayed := rfl
  reveals := by simp [RevealsOf, new, initialState]
  combined := by simp [AllRevealed, new, initialState]
  committed := by simp [AllRevealed, new, initialState]

/-- The step from S4 to S5 is taken with the deck unbound. -/
theorem Tracks.unbound_iff (h : Tracks gameId ruleSet ruleSetHash recoveryDeadline s)
    {next : RoundState} (hkeep : next.combinedEntropy = s.state.combinedEntropy) :
    Unbound s.state next ↔ s.state.stateClass = .s4EntropyRevealWindow ∧
      next.stateClass = .s5DeckCommitted := by
  constructor
  · intro hx
    obtain ⟨h4, h5, _⟩ := hx
    exact ⟨h4, h5⟩
  · intro hx
    obtain ⟨h4, h5⟩ := hx
    refine ⟨h4, h5, ?_⟩
    have hopen := h.reveals
    simp only [RevealsOf, h4] at hopen
    obtain ⟨p, hp, hfalse⟩ := hopen
    have hnot : ¬AllRevealed s.state.players := by
      intro hx
      obtain ⟨_, hall⟩ := hx
      rw [hall p hp] at hfalse
      cases hfalse
    rw [hkeep]
    exact Decidable.not_not.mp (mt h.combined.mp hnot)

/-- One accepted call keeps `Tracks`. -/
theorem Tracks.submit (h : Tracks gameId ruleSet ruleSetHash recoveryDeadline s)
    (hok : s.submit call.1 call.2 = .ok s') :
    Tracks gameId ruleSet ruleSetHash recoveryDeadline s' := by
  obtain ⟨_, _, next, final, hnext, hbind, rfl⟩ := submit_eq_ok.mp hok
  obtain ⟨_, haccepts⟩ := accepts_of_applyAction hnext
  obtain ⟨hcombined, hcommitted⟩ := haccepts.keepsDeck
  obtain ⟨hreveals, hall⟩ := haccepts.reveals h.reveals
  obtain ⟨hbare, hfields⟩ := bindDeck_eq_ok hbind
  have hplayers : final.bare.players = next.bare.players := by rw [hbare]
  have hclass : final.bare.stateClass = next.bare.stateClass := by rw [hbare]
  rw [bare_players, bare_players] at hplayers
  rw [bare_stateClass, bare_stateClass] at hclass
  have hfilled : (final.combinedEntropy ≠ "" ↔ AllRevealed next.players) ∧
      (final.deckCommitmentHash ≠ "" ↔ AllRevealed next.players) := by
    have hunbound := h.unbound_iff hcombined
    split at hfields
    · rename_i hu
      have : AllRevealed next.players := hall.mpr (.inr (hunbound.mp hu))
      exact ⟨iff_of_true hfields.1 this, iff_of_true hfields.2 this⟩
    · rename_i hu
      have hsame : AllRevealed next.players ↔ AllRevealed s.state.players := by
        rw [hall, ← hunbound]
        simp [hu]
      rw [hfields, hcombined, hcommitted, hsame]
      exact ⟨h.combined, h.committed⟩
  refine ⟨h.game, h.rules, ?_, ?_, ?_, ?_, ?_⟩
  · simp [h.lengths]
  · -- the replay takes the same step from the blanked state
    have hstep : applyAction s.state.bare call.1 ruleSet call.2 = .ok next.bare := by
      rw [applyAction_bare, ← h.rules, hnext]
      rfl
    rw [List.zip_append h.lengths, replayFrom_append h.replayed]
    simp only [List.zip_cons_cons, List.zip_nil_right, replayFrom, hstep, hbare]
    simp
  · rw [hplayers, hclass]
    exact hreveals
  · rw [hplayers]
    exact hfilled.1
  · rw [hplayers]
    exact hfilled.2

/-- **Every run keeps `Tracks`.** -/
theorem tracks_of_run {hist : List ((SignedAction × UInt32) × Session)}
    (h : Run gameId ruleSet ruleSetHash recoveryDeadline hist s) :
    Tracks gameId ruleSet ruleSetHash recoveryDeadline s := by
  apply h.invariant tracks_new
  intro s call s' htracks hstep
  rcases hstep with hok | ⟨_, _, rfl⟩
  · exact htracks.submit hok
  · exact htracks

/-- **A replay ends without error in the session's state with the deck
commitment blank.** -/
theorem Tracks.replay_eq (h : Tracks gameId ruleSet ruleSetHash recoveryDeadline s) :
    s.replay ruleSetHash recoveryDeadline = (s.state.bare, none) := by
  simp [replay, Go.replay, h.lengths, h.game, h.rules, h.replayed]

theorem Tracks.faithful_iff (h : Tracks gameId ruleSet ruleSetHash recoveryDeadline s) :
    s.replay ruleSetHash recoveryDeadline = (s.state, none) ↔
      ¬AllRevealed s.state.players := by
  rw [h.replay_eq, Prod.mk.injEq, and_iff_left rfl]
  constructor
  -- everybody has revealed: the session has a deck and the replay has none
  · intro hbare hall
    have hblank := congrArg RoundState.combinedEntropy hbare
    exact h.combined.mpr hall hblank.symm
  · intro hnot
    have hcombined := Decidable.not_not.mp (mt h.combined.mp hnot)
    have hcommitted := Decidable.not_not.mp (mt h.committed.mp hnot)
    exact bare_eq_self hcombined hcommitted

/-- The sample game is a run that reaches S5. -/
theorem sample_run : ∃ hist s, Run sampleGame defaultRuleSet zeroHash 244 hist s ∧
    AllRevealed s.state.players ∧ s.state.stateClass = .s5DeckCommitted := by
  have hplays : (playCalls (new sampleGame defaultRuleSet zeroHash 244) sampleCalls).any
      (fun r => decide (AllRevealed r.2.state.players ∧
        r.2.state.stateClass = .s5DeckCommitted)) = true := by
    decide +kernel
  cases hplay : playCalls (new sampleGame defaultRuleSet zeroHash 244) sampleCalls with
  | none =>
      rw [hplay] at hplays
      cases hplays
  | some r =>
      rw [hplay] at hplays
      exact ⟨r.1, r.2, run_of_playCalls hplay, of_decide_eq_true hplays⟩

/-- **When a replay is faithful.** After any run of `Submit` calls, the
replay returns no error and a state equal to the session's in every field
exactly when nobody is seated or somebody has yet to reveal. -/
theorem replay_faithful_iff {hist : List ((SignedAction × UInt32) × Session)}
    (h : Run gameId ruleSet ruleSetHash recoveryDeadline hist s) :
    s.replay ruleSetHash recoveryDeadline = (s.state, none) ↔
      ¬AllRevealed s.state.players :=
  (tracks_of_run h).faithful_iff

theorem replay_faithful_iff_sample :
    ∃ hist s, Run sampleGame defaultRuleSet zeroHash 244 hist s ∧
      (s.replay zeroHash 244 = (s.state, none) ↔ ¬AllRevealed s.state.players) := by
  obtain ⟨hist, s, hrun, _⟩ := sample_run
  exact ⟨hist, s, hrun, replay_faithful_iff hrun⟩

/-- After the last reveal the replay has lost the deck commitment. -/
theorem replay_unfaithful :
    ¬∀ (gameId : String) (ruleSet : RuleSet) (ruleSetHash : String) (recoveryDeadline : UInt32)
      (hist : List ((SignedAction × UInt32) × Session)) (s : Session),
      Run gameId ruleSet ruleSetHash recoveryDeadline hist s →
        s.replay ruleSetHash recoveryDeadline = (s.state, none) := by
  intro hclaim
  obtain ⟨hist, s, hrun, hall, _⟩ := sample_run
  have hfaithful := hclaim _ _ _ _ hist s hrun
  exact (tracks_of_run hrun).faithful_iff.mp hfaithful hall

end Session

end CardTable.Go
