import CardTable.Go.Replay
import CardTable.Go.Serialise

/-!
# Go.Binding — which state an action was signed for

A signed action names the game, the round and the hash of the state it
was signed for. `Submit` checks the first and neither of the others: an
action signed for one state of a game is judged, at any other state of
that game, as if it had been signed for it (`submit_forState`), and every
reachable session accepts one that was not.
-/

namespace CardTable.Go

open Basis

/-- The same action signed for another round and state. -/
def SignedAction.forState (a : SignedAction) (roundNumber : Int) (stateHash : String) :
    SignedAction :=
  { a with roundNumber := roundNumber, referencedStateHash := stateHash }

/-- No engine function reads the round or the state hash of an action. -/
theorem applyAction_forState (state : RoundState) (a : SignedAction) (ruleSet : RuleSet)
    (height : UInt32) (roundNumber : Int) (stateHash : String) :
    applyAction state (a.forState roundNumber stateHash) ruleSet height =
      applyAction state a ruleSet height := rfl

namespace Session

/-- The action names the session's game, round and state. -/
def BoundTo (s : Session) (a : SignedAction) : Prop :=
  a.gameId = s.gameId ∧ a.roundNumber = s.state.roundNumber ∧
    ∀ h, computeStateHash s.state = .ok h → a.referencedStateHash = h

/-- What `Submit` accepts was signed for the state it is applied to. -/
def RejectsStale (s : Session) : Prop :=
  ∀ a height s', s.submit a height = .ok s' → s.BoundTo a

/-- **A session judges an action without looking at its round and its
state hash**, and takes the same step; only the transcript tells the two
apart. -/
theorem submit_forState (s : Session) (a : SignedAction) (height : UInt32) (roundNumber : Int)
    (stateHash : String) :
    s.submit (a.forState roundNumber stateHash) height =
      (s.submit a height).map (fun s' =>
        { s' with transcript := s.transcript ++ [a.forState roundNumber stateHash] }) := by
  have hgate : s.verifyCrypto (a.forState roundNumber stateHash) = s.verifyCrypto a := rfl
  have hnonce : (a.forState roundNumber stateHash).actionNonce = a.actionNonce := rfl
  simp only [submit, hgate, hnonce, applyAction_forState]
  split
  · rfl
  · cases s.verifyCrypto a with
    | halt k => rfl
    | err e => rfl
    | ok u =>
        cases applyAction s.state a s.ruleSet height with
        | error e => rfl
        | ok next =>
            simp only [Outcome.ok_bind, Outcome.ofExcept_ok]
            cases bindDeck s.ruleSet s.state next with
            | halt k => rfl
            | err e => rfl
            | ok final => rfl

/-! ## Every session accepts a stale action -/

/-- What no step of a session changes. -/
structure Fixed (gameId : String) (recoveryDeadline : UInt32) (s : Session) : Prop where
  game : s.gameId = gameId
  stateGame : s.state.gameId = gameId
  deadline : s.state.recoveryDeadlineBlockHeight = some recoveryDeadline

variable {gameId : String} {ruleSet : RuleSet} {ruleSetHash : String} {recoveryDeadline : UInt32}
  {s s' : Session} {hist : List ((SignedAction × UInt32) × Session)}

theorem fixed_of_run (h : Run gameId ruleSet ruleSetHash recoveryDeadline hist s) :
    Fixed gameId recoveryDeadline s := by
  apply h.invariant ⟨rfl, rfl, rfl⟩
  intro s call s' hfixed hstep
  rcases hstep with hok | ⟨_, _, rfl⟩
  · obtain ⟨_, _, next, final, hnext, hbind, rfl⟩ := submit_eq_ok.mp hok
    obtain ⟨_, haccepts⟩ := accepts_of_applyAction hnext
    obtain ⟨hbare, _⟩ := bindDeck_eq_ok hbind
    have hgame : final.bare.gameId = next.bare.gameId := by rw [hbare]
    have hdeadline : final.bare.recoveryDeadlineBlockHeight =
        next.bare.recoveryDeadlineBlockHeight := by rw [hbare]
    obtain ⟨hkeepGame, hkeepDeadline, _⟩ := haccepts.keepsIdentity
    exact ⟨hfixed.game, hgame.trans (hkeepGame.trans hfixed.stateGame),
      hdeadline.trans (hkeepDeadline.trans hfixed.deadline)⟩
  · exact hfixed

/-- There is always a nonce that was not used. -/
theorem exists_fresh (nonces : List String) : ∃ nonce, nonce ∉ nonces := by
  have hlong : ∃ n, ∀ x ∈ nonces, x.length < n := by
    induction nonces with
    | nil => exact ⟨0, by simp⟩
    | cons x rest ih =>
        obtain ⟨n, hn⟩ := ih
        refine ⟨max n (x.length + 1), ?_⟩
        intro y hy
        rcases List.mem_cons.mp hy with rfl | hy
        · omega
        · have := hn y hy
          omega
  obtain ⟨n, hn⟩ := hlong
  refine ⟨String.ofList (List.replicate n 'x'), ?_⟩
  intro hmem
  have := hn _ hmem
  simp at this

/-- A recovery signed for the next round and for no state at all. -/
def staleRecovery (s : Session) (nonce : String) : SignedAction :=
  (SignedAction.forState { bareAction s.gameId .recovery none with actionNonce := nonce })
    (s.state.roundNumber + 1) ""

theorem submit_staleRecovery (h : Fixed gameId recoveryDeadline s) {nonce : String}
    (hfresh : nonce ∉ s.seenNonces) :
    ∃ s', s.submit (staleRecovery s nonce) recoveryDeadline = .ok s' := by
  have happly : applyAction s.state (staleRecovery s nonce) s.ruleSet recoveryDeadline =
      .ok { s.state with
        stateClass := .recovered
        allowedActions := []
        priorStateHash := some s.state.stateHash } := by
    have hgame : (staleRecovery s nonce).gameId = s.state.gameId := h.game.trans h.stateGame.symm
    have hkind : (staleRecovery s nonce).actionType = .recovery := rfl
    simp [applyAction, hgame, hkind, applyRecovery, h.deadline]
  have hbind : ∀ next : RoundState, next.stateClass = .recovered →
      bindDeck s.ruleSet s.state next = .ok next := by
    intro next hnext
    simp [bindDeck, Unbound, hnext]
  exact ⟨_, submit_eq_ok.mpr ⟨hfresh, rfl, _, _, happly, hbind _ rfl, rfl⟩⟩

/-- **Every reachable session accepts an action that was not signed for
its state**: its round is another, and where the state has a canonical
hash the action's is another. -/
theorem accepts_stale (h : Fixed gameId recoveryDeadline s) :
    ∃ a height s', s.submit a height = .ok s' ∧ a.roundNumber ≠ s.state.roundNumber ∧
      ∀ stateHash, computeStateHash s.state = .ok stateHash →
        a.referencedStateHash ≠ stateHash := by
  obtain ⟨nonce, hfresh⟩ := exists_fresh s.seenNonces
  obtain ⟨s', hok⟩ := submit_staleRecovery h hfresh
  refine ⟨staleRecovery s nonce, recoveryDeadline, s', hok, ?_, ?_⟩
  · show s.state.roundNumber + 1 ≠ s.state.roundNumber
    omega
  · intro stateHash hhash hempty
    have hempty : "" = stateHash := hempty
    exact computeStateHash_ne_empty hhash hempty.symm

/-- **No reachable session rejects every stale action.** -/
theorem never_rejects_stale (h : Run gameId ruleSet ruleSetHash recoveryDeadline hist s) :
    ¬s.RejectsStale := by
  intro hrejects
  obtain ⟨a, height, s', hok, hround, _⟩ := accepts_stale (fixed_of_run h)
  obtain ⟨_, hbound, _⟩ := hrejects a height s' hok
  exact hround hbound

theorem never_rejects_stale_new :
    ¬(new sampleGame defaultRuleSet zeroHash 244).RejectsStale :=
  never_rejects_stale .start

/-- A `Join` signed for round 5 is accepted in round 0. -/
theorem stale_join_accepted :
    ¬∀ (gameId : String) (ruleSet : RuleSet) (ruleSetHash : String) (recoveryDeadline : UInt32)
      (hist : List ((SignedAction × UInt32) × Session)) (s : Session),
      Run gameId ruleSet ruleSetHash recoveryDeadline hist s → s.RejectsStale := by
  intro hclaim
  let join : SignedAction :=
    { bareAction "g" .join (some 0) with
      roundNumber := 5, actionNonce := "1", playerPubkey := "A", stakeAmount := 1000 }
  have haccepted : ((new "g" defaultRuleSet "" 244).submit join 100).value?.isSome = true := by
    decide
  obtain ⟨s', hok⟩ := Option.isSome_iff_exists.mp haccepted
  have hbound := hclaim _ _ _ _ _ _ .start join 100 s' (Outcome.value?_eq_some.mp hok)
  have hround : (5 : Int) = 0 := hbound.2.1
  cases hround

end Session

end CardTable.Go
