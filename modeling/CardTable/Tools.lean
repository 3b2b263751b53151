import CardTable.Audit

/-!
# Tools — the two command-line auditors

`cmd/indexer` replays an exported transcript through the Go engine and
`tools/transcript-verifier` through `verifyAndApply`. Both build the same
rule set and, since the export carries no heights, both judge every
action at height 100. The reading of the file and the printing of the
summary are left out.
-/

namespace CardTable

open Basis

/-! ## cmd/indexer -/

/-- The replay loop of `main`. -/
def Go.indexer (gameId ruleSetHash : String) (recoveryHeight : UInt32)
    (actions : List Go.SignedAction) : Except ProtocolError Go.RoundState :=
  actions.foldlM (fun state a => Go.applyAction state a Go.defaultRuleSet 100)
    (Go.initialState gameId ruleSetHash recoveryHeight)

/-! ## transcript-verifier -/

namespace Ts

def asGameId (hex : String) : Js String :=
  if isHex64 hex then .ok hex else .halt "asGameId: expected 64 lowercase hex chars"

def asRuleSetHash (hex : String) : Js String :=
  if isHex64 hex then .ok hex else .halt "asRuleSetHash: expected 64 lowercase hex chars"

def asBlockHeight (n : Int) : Js SafeNat :=
  match SafeNat.ofInt? n with
  | none => .halt s!"asBlockHeight: expected integer in [0, 5e8), got {n}"
  | some height =>
      if 500000000 ≤ n then .halt s!"asBlockHeight: expected integer in [0, 5e8), got {n}"
      else .ok height

/-- The verification loop of `main`. -/
def transcriptVerifier (gameId ruleSetHash : String) (recoveryHeight : Int)
    (actions : List SignedAction) : Js RoundState := do
  let height ← asBlockHeight 100
  let gameId ← asGameId gameId
  let ruleSetHash ← asRuleSetHash ruleSetHash
  let recoveryHeight ← asBlockHeight recoveryHeight
  actions.foldlM (fun state a => verifyAndApply state a defaultRuleSet height)
    (initialState gameId ruleSetHash recoveryHeight)

end Ts

/-- The two tools are built with one rule set. -/
theorem defaultRuleSet_toGo : Ts.defaultRuleSet.toGo = Go.defaultRuleSet := by decide

/-! ## What both tools report -/

/-- The state class, the round, the pot and the number of players. -/
def Go.RoundState.summary (state : Go.RoundState) : StateClass × Int × UInt64 × Nat :=
  (state.stateClass, state.roundNumber, state.potValue, state.players.length)

/-- Both tools accept the whole transcript and report the session's
summary. -/
def AuditsCleanly (gameId ruleSetHash : String) (recoveryHeight : UInt32) (s : Go.Session) :
    Prop :=
  (∃ state, Go.indexer gameId ruleSetHash recoveryHeight s.transcript = .ok state ∧
    state.summary = s.state.summary) ∧
  ∃ actions state, s.transcript.mapM Go.SignedAction.toTs = some actions ∧
    Ts.transcriptVerifier gameId ruleSetHash recoveryHeight.toNat actions = .ok state ∧
    state.toGo.summary = s.state.summary

/-- One call of `Submit`; if it is accepted, the action is auditable and
a `Recovery` is due at height 100 already. -/
def ToolStep (s : Go.Session) (call : Go.SignedAction × UInt32) (s' : Go.Session) : Prop :=
  (s.submit call.1 call.2 = .ok s' ∧ Auditable Ts.defaultRuleSet s.state call.1 ∧
      RecoveryDue (fun _ => 100) s.state call) ∨
    ∃ e, s.submit call.1 call.2 = .err e ∧ s' = s

/-- The runs of a new session under the rule set of the tools. -/
abbrev ToolRun (gameId ruleSetHash : String) (recoveryHeight : UInt32) :
    List ((Go.SignedAction × UInt32) × Go.Session) → Go.Session → Prop :=
  Path ToolStep (Go.Session.new gameId Go.defaultRuleSet ruleSetHash recoveryHeight)

section Tools

variable {gameId ruleSetHash : String} {recoveryHeight : UInt32} {s s' : Go.Session}
  {call : Go.SignedAction × UInt32}

/-- **The indexer follows one accepted call**, with the deck commitment
blank. -/
theorem indexer_submit (hdecision : s.state.decisionDeadlineBlockHeight = none)
    (hrules : s.ruleSet = Go.defaultRuleSet)
    (h : Go.indexer gameId ruleSetHash recoveryHeight s.transcript = .ok s.state.bare)
    (hok : s.submit call.1 call.2 = .ok s')
    (hdue : RecoveryDue (fun _ => 100) s.state call) :
    Go.indexer gameId ruleSetHash recoveryHeight s'.transcript = .ok s'.state.bare := by
  obtain ⟨_, _, next, final, hnext, hbind, rfl⟩ := Go.Session.submit_eq_ok.mp hok
  have hjudged := Go.applyAction_height hdecision hdue hnext
  have hstep : Go.applyAction s.state.bare call.1 Go.defaultRuleSet 100 = .ok next.bare := by
    rw [Go.applyAction_bare, ← hrules, hjudged]
    rfl
  obtain ⟨hbare, _⟩ := Go.Session.bindDeck_eq_ok hbind
  simp only [Go.indexer, List.foldlM_append] at h ⊢
  rw [h, hbare]
  show Go.applyAction s.state.bare call.1 Go.defaultRuleSet 100 >>= _ = _
  rw [hstep]
  rfl

/-- The constructors let a well-formed command line through. -/
theorem transcriptVerifier_eq {actions : List Ts.SignedAction} (hgame : Ts.isHex64 gameId = true)
    (hhash : Ts.isHex64 ruleSetHash = true) (hheight : recoveryHeight.toNat < 500000000) :
    Ts.transcriptVerifier gameId ruleSetHash recoveryHeight.toNat actions =
      verifyAll Ts.defaultRuleSet
        (Ts.initialState gameId ruleSetHash (blockHeight recoveryHeight))
        (actions.map (·, blockHeight 100)) := by
  have hof : SafeNat.ofInt? recoveryHeight.toNat = some (blockHeight recoveryHeight) :=
    SafeNat.ofInt?_val (blockHeight recoveryHeight)
  have hlow : ¬(500000000 : Int) ≤ recoveryHeight.toNat := by omega
  have hrecovery : Ts.asBlockHeight recoveryHeight.toNat = .ok (blockHeight recoveryHeight) := by
    simp [Ts.asBlockHeight, hof, hlow]
  have hheight100 : Ts.asBlockHeight 100 = .ok (blockHeight 100) := by decide
  simp only [Ts.transcriptVerifier, Ts.asGameId, Ts.asRuleSetHash, hgame, hhash, hrecovery,
    hheight100, if_true, Outcome.ok_bind, verifyAll, List.foldlM_map]

/-- A list paired with a constant. -/
theorem zip_map_const {α β γ : Type} {xs : List α} {ys : List β} (c : γ)
    (hlen : xs.length = ys.length) : xs.zip (ys.map fun _ => c) = xs.map (·, c) := by
  induction xs generalizing ys with
  | nil => rfl
  | cons x xs ih =>
      cases ys with
      | nil => cases hlen
      | cons y ys =>
          rw [List.map_cons, List.zip_cons_cons, List.map_cons, ih (Nat.succ.inj hlen)]

/-- **The export is enough for a run of auditable actions** whose
recoveries are due at the height the tools assume. -/
theorem transcript_audits {hist : List ((Go.SignedAction × UInt32) × Go.Session)}
    (h : ToolRun gameId ruleSetHash recoveryHeight hist s) (hgame : Ts.isHex64 gameId = true)
    (hhash : Ts.isHex64 ruleSetHash = true) (hheight : recoveryHeight.toNat < 500000000) :
    AuditsCleanly gameId ruleSetHash recoveryHeight s := by
  have hboth : Audited Ts.defaultRuleSet (fun _ => 100) gameId ruleSetHash recoveryHeight s ∧
      Go.indexer gameId ruleSetHash recoveryHeight s.transcript = .ok s.state.bare := by
    apply h.invariant (I := fun s =>
      Audited Ts.defaultRuleSet (fun _ => 100) gameId ruleSetHash recoveryHeight s ∧
        Go.indexer gameId ruleSetHash recoveryHeight s.transcript = .ok s.state.bare)
    · refine ⟨?_, rfl⟩
      have hnew : Audited Ts.defaultRuleSet (fun _ => 100) gameId ruleSetHash recoveryHeight
          (Go.Session.new gameId Ts.defaultRuleSet.toGo ruleSetHash recoveryHeight) := audited_new
      rwa [defaultRuleSet_toGo] at hnew
    · intro s call s' hx hstep
      obtain ⟨haudited, hindexed⟩ := hx
      rcases hstep with ⟨hok, haud, hdue⟩ | ⟨_, _, rfl⟩
      · refine ⟨haudited.submit hok haud hdue, ?_⟩
        have hrules : s.ruleSet = Go.defaultRuleSet := by
          rw [haudited.tracks.rules, defaultRuleSet_toGo]
        exact indexer_submit haudited.sound.decision hrules hindexed hok hdue
      · exact ⟨haudited, hindexed⟩
  obtain ⟨haudited, hindexed⟩ := hboth
  obtain ⟨actions, ts, hactions, hlen, hts, hmirrors⟩ := haudited.followed
  refine ⟨⟨_, hindexed, rfl⟩, actions, ts, hactions, ?_, by rw [hmirrors.state]⟩
  rw [transcriptVerifier_eq hgame hhash hheight, ← hts, zip_map_const _ hlen]

end Tools

/-- The table is locked, and the game is recovered at `height`. -/
def recoveredCalls (height : UInt32) : List (Go.SignedAction × UInt32) :=
  Go.sampleCalls.take 3 ++
    [({ Go.bareAction Go.sampleGame .recovery none with actionNonce := "4" }, height)]

/-- A recovery that was due at height 90 audits. -/
theorem transcript_audits_early :
    ∃ hist s, ToolRun Go.sampleGame Go.zeroHash 90 hist s ∧ s.state.stateClass = .recovered ∧
      AuditsCleanly Go.sampleGame Go.zeroHash 90 s := by
  have hout : (playWhen (fun s call => Auditable Ts.defaultRuleSet s.state call.1 ∧
      RecoveryDue (fun _ => 100) s.state call)
      (Go.Session.new Go.sampleGame Go.defaultRuleSet Go.zeroHash 90) (recoveredCalls 120)).map
        (fun r => r.2.state.stateClass) = some .recovered := by
    decide +kernel
  obtain ⟨r, hplay, hclass⟩ := Option.map_eq_some_iff.mp hout
  have hrun : ToolRun Go.sampleGame Go.zeroHash 90 r.1 r.2 := (path_of_playWhen hplay).mono .inl
  exact ⟨r.1, r.2, hrun, hclass,
    transcript_audits hrun (by decide) (by decide) (by decide)⟩

/-- A recovery at its deadline 244 does not: the tools judge it at 100. -/
theorem transcript_unaudited :
    ¬∀ (gameId ruleSetHash : String) (recoveryHeight : UInt32)
      (hist : List ((Go.SignedAction × UInt32) × Go.Session)) (s : Go.Session),
      Ts.isHex64 gameId = true → Ts.isHex64 ruleSetHash = true →
        recoveryHeight.toNat < 500000000 →
        Go.Session.Run gameId Go.defaultRuleSet ruleSetHash recoveryHeight hist s →
        AuditsCleanly gameId ruleSetHash recoveryHeight s := by
  intro hclaim
  have hout : (Go.Session.playCalls
      (Go.Session.new Go.sampleGame Go.defaultRuleSet Go.zeroHash 244) (recoveredCalls 244)).map
        (fun r => (Go.indexer Go.sampleGame Go.zeroHash 244 r.2.transcript).isOk) =
          some false := by
    decide +kernel
  obtain ⟨r, hplay, hr⟩ := Option.map_eq_some_iff.mp hout
  obtain ⟨⟨state, hindexed, _⟩, _⟩ := hclaim _ _ _ _ _ (by decide) (by decide) (by decide)
    (Go.Session.run_of_playCalls hplay)
  rw [hindexed] at hr
  cases hr

end CardTable
