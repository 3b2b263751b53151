import CardTable.Auditable

/-!
# Audit — the transcript of a session, replayed

A session records every action it accepts with its height;
`replayWithVerification` runs the record from a fresh state. One induction
over the runs of a session covers it and the command-line verifier, which
differ in the height they judge an action at: `judged` is that choice.
-/

namespace CardTable

open Basis
open Ts (uint64 uint32 InRange)

/-! ## Loops of verified actions -/

/-- `verifyAndApply` over a list of actions with their heights. -/
def verifyAll (ruleSet : Ts.RuleSet) (state : Ts.RoundState)
    (inputs : List (Ts.SignedAction × SafeNat)) : Ts.Js Ts.RoundState :=
  inputs.foldlM (fun state input => Ts.verifyAndApply state input.1 ruleSet input.2) state

/-- With a height for every action, the loop of `replayWithVerification`
succeeds where `verifyAll` does. -/
theorem replayFrom_of_verifyAll {ruleSet : Ts.RuleSet} {heights : List SafeNat}
    {actions : List Ts.SignedAction} {i : Nat} {state state' : Ts.RoundState}
    (hlen : heights.length = i + actions.length)
    (h : verifyAll ruleSet state (actions.zip (heights.drop i)) = .ok state') :
    Ts.replayFrom ruleSet heights state i actions = .ok state' := by
  induction actions generalizing i state with
  | nil => simpa [verifyAll, Ts.replayFrom] using h
  | cons action rest ih =>
      have hi : i < heights.length := by
        rw [hlen, List.length_cons]
        omega
      rw [List.drop_eq_getElem_cons hi, List.zip_cons_cons, verifyAll, List.foldlM_cons] at h
      obtain ⟨next, hnext, h⟩ := Outcome.bind_eq_ok.mp h
      have hlen' : heights.length = i + 1 + rest.length := by
        rw [hlen, List.length_cons]
        omega
      simp only [Ts.replayFrom, List.getElem?_eq_getElem hi, Option.some_or, hnext]
      exact ih hlen' h

/-! ## Audited sessions -/

/-- A session the harness has followed when it judges an action recorded
at height `h` at height `judged h`. -/
structure Audited (ruleSet : Ts.RuleSet) (judged : UInt32 → UInt32) (gameId ruleSetHash : String)
    (deadline : UInt32) (s : Go.Session) : Prop where
  tracks : Go.Session.Tracks gameId ruleSet.toGo ruleSetHash deadline s
  sound : Go.Session.Sound s
  followed : ∃ actions ts, s.transcript.mapM Go.SignedAction.toTs = some actions ∧
    actions.length = s.heights.length ∧
    verifyAll ruleSet (Ts.initialState gameId ruleSetHash (blockHeight deadline))
      (actions.zip (s.heights.map fun h => blockHeight (judged h))) = .ok ts ∧
    Mirrors ruleSet deadline s.state ts

/-- A `Recovery` is judged no earlier than its deadline. -/
def RecoveryDue (judged : UInt32 → UInt32) (state : Go.RoundState)
    (call : Go.SignedAction × UInt32) : Prop :=
  call.1.actionType = .recovery →
    ∀ deadline ∈ state.recoveryDeadlineBlockHeight, ¬judged call.2 < deadline

instance (judged : UInt32 → UInt32) (state : Go.RoundState) (call : Go.SignedAction × UInt32) :
    Decidable (RecoveryDue judged state call) :=
  -- not by going through every `UInt32`
  let _ := Option.decidableForallMem (p := fun deadline => ¬judged call.2 < deadline)
    state.recoveryDeadlineBlockHeight
  inferInstanceAs (Decidable (_ → ∀ deadline ∈ _, ¬_))

section Audited

variable {ruleSet : Ts.RuleSet} {judged : UInt32 → UInt32} {gameId ruleSetHash : String}
  {deadline : UInt32} {s s' : Go.Session} {call : Go.SignedAction × UInt32}

theorem audited_new :
    Audited ruleSet judged gameId ruleSetHash deadline
      (Go.Session.new gameId ruleSet.toGo ruleSetHash deadline) where
  tracks := Go.Session.tracks_new
  sound := Go.Session.sound_new
  followed := ⟨[], _, rfl, rfl, rfl, mirrors_initial ruleSet deadline gameId ruleSetHash⟩

/-- **One accepted call keeps `Audited`.** -/
theorem Audited.submit (h : Audited ruleSet judged gameId ruleSetHash deadline s)
    (hok : s.submit call.1 call.2 = .ok s') (haud : Auditable ruleSet s.state call.1)
    (hdue : RecoveryDue judged s.state call) :
    Audited ruleSet judged gameId ruleSetHash deadline s' := by
  refine ⟨h.tracks.submit hok, h.sound.submit h.tracks hok, ?_⟩
  obtain ⟨actions, ts, hactions, hlen, hts, hmirrors⟩ := h.followed
  obtain ⟨_, hgate, next, final, hnext, hbind, rfl⟩ := Go.Session.submit_eq_ok.mp hok
  have hjudged := Go.applyAction_height h.sound.decision hdue hnext
  obtain ⟨t, ts', ht, hverify, hmirrors'⟩ :=
    hmirrors.step h.tracks h.sound haud hgate hjudged hbind
  refine ⟨actions ++ [t], ts', ?_, ?_, ?_, hmirrors'⟩
  · simp [hactions, ht]
  · simp [hlen]
  · have hzip : actions.length = (s.heights.map fun h => blockHeight (judged h)).length := by
      rw [hlen, List.length_map]
    simp only [List.map_append, List.map_singleton, List.zip_append hzip, verifyAll,
      List.foldlM_append] at hts ⊢
    rw [hts, Outcome.ok_bind]
    simp [hverify]

end Audited

/-! ## The audit of a run -/

/-- One call of `Submit`; if it is accepted, the action is auditable. -/
def AuditStep (ruleSet : Ts.RuleSet) (s : Go.Session) (call : Go.SignedAction × UInt32)
    (s' : Go.Session) : Prop :=
  (s.submit call.1 call.2 = .ok s' ∧ Auditable ruleSet s.state call.1) ∨
    ∃ e, s.submit call.1 call.2 = .err e ∧ s' = s

/-- The runs of a new session whose accepted actions are all auditable. -/
abbrev AuditRun (ruleSet : Ts.RuleSet) (gameId ruleSetHash : String) (deadline : UInt32) :
    List ((Go.SignedAction × UInt32) × Go.Session) → Go.Session → Prop :=
  Path (AuditStep ruleSet) (Go.Session.new gameId ruleSet.toGo ruleSetHash deadline)

/-- What `replayWithVerification` says to the recorded transcript and
heights; `none` when an action cannot be read back. -/
def auditTranscript (ruleSet : Ts.RuleSet) (ruleSetHash : String) (deadline : UInt32)
    (s : Go.Session) : Option (Ts.Js Ts.RoundState) :=
  (s.transcript.mapM Go.SignedAction.toTs).map fun actions =>
    Ts.replayWithVerification s.gameId ruleSetHash ruleSet (blockHeight deadline) actions
      (s.heights.map blockHeight)

/-- The transcript replays to the state that corresponds to the
session's, field by field. -/
def ReplaysCleanly (ruleSet : Ts.RuleSet) (ruleSetHash : String) (deadline : UInt32)
    (s : Go.Session) : Prop :=
  ∃ state, auditTranscript ruleSet ruleSetHash deadline s = some (.ok state) ∧
    state.toGo = s.state

/-- **A run of auditable actions replays cleanly**, whatever the rule
set, the heights and the calls rejected in between. -/
theorem transcript_replays {ruleSet : Ts.RuleSet} {gameId ruleSetHash : String}
    {deadline : UInt32} {hist : List ((Go.SignedAction × UInt32) × Go.Session)} {s : Go.Session}
    (h : AuditRun ruleSet gameId ruleSetHash deadline hist s) :
    ReplaysCleanly ruleSet ruleSetHash deadline s := by
  have haudited : Audited ruleSet id gameId ruleSetHash deadline s := by
    apply h.invariant audited_new
    intro s call s' haudited hstep
    rcases hstep with ⟨hok, haud⟩ | ⟨_, _, rfl⟩
    · refine haudited.submit hok haud ?_
      -- the engine has judged it at the recorded height itself
      obtain ⟨_, _, next, _, hnext, _, _⟩ := Go.Session.submit_eq_ok.mp hok
      exact (Go.accepts_of_applyAction hnext).2.due
    · exact haudited
  obtain ⟨actions, ts, hactions, hlen, hts, hmirrors⟩ := haudited.followed
  refine ⟨ts, ?_, hmirrors.state⟩
  simp only [auditTranscript, hactions, haudited.tracks.game, Option.map_some, Option.some.injEq]
  apply replayFrom_of_verifyAll
  · simp [hlen]
  · exact hts

/-- Play calls that must all be admitted and accepted. -/
def playWhen (admits : Go.Session → Go.SignedAction × UInt32 → Prop)
    [∀ s call, Decidable (admits s call)] (s : Go.Session)
    (calls : List (Go.SignedAction × UInt32)) :
    Option (List ((Go.SignedAction × UInt32) × Go.Session) × Go.Session) :=
  play (fun s call => if admits s call then (s.submit call.1 call.2).value? else none) s calls

theorem path_of_playWhen {admits : Go.Session → Go.SignedAction × UInt32 → Prop}
    [∀ s call, Decidable (admits s call)] {s t : Go.Session}
    {calls : List (Go.SignedAction × UInt32)}
    {hist : List ((Go.SignedAction × UInt32) × Go.Session)}
    (h : playWhen admits s calls = some (hist, t)) :
    Path (fun s call s' => s.submit call.1 call.2 = .ok s' ∧ admits s call) s hist t := by
  refine (path_of_play h).mono ?_
  intro s call s' hstep
  split at hstep
  · rename_i hadmits
    exact ⟨Outcome.value?_eq_some.mp hstep, hadmits⟩
  · cases hstep

/-- The sample game is auditable up to its last reveal. -/
theorem transcript_replays_sample :
    ∃ hist s, AuditRun Ts.defaultRuleSet Go.sampleGame Go.zeroHash 244 hist s ∧
      s.state.stateClass = .s5DeckCommitted ∧
      ReplaysCleanly Ts.defaultRuleSet Go.zeroHash 244 s := by
  have hout : (playWhen (fun s call => Auditable Ts.defaultRuleSet s.state call.1)
      (Go.Session.new Go.sampleGame Ts.defaultRuleSet.toGo Go.zeroHash 244) Go.sampleCalls).map
        (fun r => r.2.state.stateClass) = some .s5DeckCommitted := by
    decide +kernel
  obtain ⟨r, hplay, hclass⟩ := Option.map_eq_some_iff.mp hout
  have hrun : AuditRun Ts.defaultRuleSet Go.sampleGame Go.zeroHash 244 r.1 r.2 :=
    (path_of_playWhen hplay).mono .inl
  exact ⟨r.1, r.2, hrun, hclass, transcript_replays hrun⟩

/-- The two players join and lock the table; the first commitment is
written in capitals. -/
def uppercaseCalls : List (Go.SignedAction × UInt32) :=
  Go.sampleCalls.take 3 ++
    [({ Go.bareAction Go.sampleGame .entropyCommit (some 0) with
      actionNonce := "4", commitmentHash := Go.hex64 'A' }, 100)]

/-- The relay accepts what the harness calls `INVALID_SIGNATURE`. -/
theorem transcript_rejected :
    ¬∀ (ruleSet : Ts.RuleSet) (gameId ruleSetHash : String) (deadline : UInt32)
      (hist : List ((Go.SignedAction × UInt32) × Go.Session)) (s : Go.Session),
      Go.Session.Run gameId ruleSet.toGo ruleSetHash deadline hist s →
        ReplaysCleanly ruleSet ruleSetHash deadline s := by
  intro hclaim
  have hout : (Go.Session.playCalls
      (Go.Session.new Go.sampleGame Ts.defaultRuleSet.toGo Go.zeroHash 244) uppercaseCalls).map
        (fun r => (auditTranscript Ts.defaultRuleSet Go.zeroHash 244 r.2).map
          (fun verdict => verdict.value?.isSome)) = some (some false) := by
    decide +kernel
  obtain ⟨r, hplay, hr⟩ := Option.map_eq_some_iff.mp hout
  obtain ⟨state, hverdict, _⟩ := hclaim _ _ _ _ _ _ (Go.Session.run_of_playCalls hplay)
  rw [hverdict] at hr
  cases hr

end CardTable
