import CardTable.Go.Replay

/-!
# Go.Log — what a session keeps of its calls

A session keeps four things: the state, the nonces it has seen, the
accepted actions and their heights. `Submit` writes them one after the
other and may return before, between or after; `submit` says at once what
a call comes to. Here `Submit` is read statement by statement, with
writes that stay made when the method returns early, and shown to be
`submit`. From there the log of every run is the state in another form:
folding the gate, the engine and the deck commitment over it gives the
state back.
-/

namespace CardTable.Go.Session

open Basis

/-! ## Submit, statement by statement -/

/-- What `Submit` returns: a state, and an error or nil. -/
structure Reply where
  state : RoundState
  error : Option ProtocolError
  deriving DecidableEq

/-- A method of the session under its lock. It has no error of its own:
errors are returned, and what was written before them stays written. -/
abbrev Method := StateT Session (Outcome Unit Empty)

/-- A call whose error the method looks at; where the call does not
return, neither does the method. -/
def attempt {ε α : Type} (call : Call ε α) : Method (Except ε α) := fun s =>
  match call with
  | .ok a => .ok (.ok a, s)
  | .err e => .ok (.error e, s)
  | .halt k => .halt k

/-- The body of `Submit`. -/
def submitBody (action : SignedAction) (height : UInt32) : Method Reply := do
  let s ← get
  if action.actionNonce ∈ s.seenNonces then
    return ⟨s.state, some ⟨.staleState, "action nonce already accepted"⟩⟩
  else match ← attempt (s.verifyCrypto action) with
  | .error perr => return ⟨(← get).state, some perr⟩
  | .ok () =>
    let prior := s.state
    match applyAction s.state action s.ruleSet height with
    | .error err => return ⟨(← get).state, some err⟩
    | .ok next =>
      match ← attempt (bindDeck s.ruleSet prior next) with
      | .error perr => return ⟨(← get).state, some perr⟩
      | .ok next =>
        modify fun s => { s with seenNonces := action.actionNonce :: s.seenNonces }
        modify fun s => { s with transcript := s.transcript ++ [action] }
        modify fun s => { s with heights := s.heights ++ [height] }
        modify fun s => { s with state := next }
        return ⟨next, none⟩

@[simp] theorem attempt_ok {ε α : Type} (a : α) (s : Session) :
    (attempt (.ok a : Call ε α)).run s = .ok (.ok a, s) := rfl

@[simp] theorem attempt_err {ε α : Type} (e : ε) (s : Session) :
    (attempt (.err e : Call ε α)).run s = .ok (.error e, s) := rfl

@[simp] theorem attempt_halt {ε α : Type} (k : Unit) (s : Session) :
    (attempt (.halt k : Call ε α)).run s = .halt k := rfl

/-- What a call that has passed every check writes. -/
def record (s : Session) (action : SignedAction) (height : UInt32) (final : RoundState) :
    Session :=
  { s with
    state := final
    seenNonces := action.actionNonce :: s.seenNonces
    transcript := s.transcript ++ [action]
    heights := s.heights ++ [height] }

/-- **`Submit` writes everything or nothing.** Statement by statement it
comes to what `submit` says: the recorded session and its state, or the
error and the session as it was. -/
theorem submitBody_eq (s : Session) (a : SignedAction) (height : UInt32) :
    (submitBody a height).run s =
      match s.submit a height with
      | .ok s' => .ok (⟨s'.state, none⟩, s')
      | .err e => .ok (⟨s.state, some e⟩, s)
      | .halt k => .halt k := by
  simp only [submitBody, submit, StateT.run_bind, StateT.run_get, Outcome.pure_eq,
    Outcome.ok_bind]
  by_cases hseen : a.actionNonce ∈ s.seenNonces
  · simp [hseen]
  · simp only [hseen, if_false]
    cases hgate : s.verifyCrypto a with
    | halt k => rfl
    | err e => rfl
    | ok u =>
        cases hnext : applyAction s.state a s.ruleSet height with
        | error e => simp
        | ok next =>
            cases hfinal : bindDeck s.ruleSet s.state next with
            | halt k => simp [hfinal]
            | err e => simp [hfinal]
            | ok final => simp [hfinal]

/-- One call of `Submit` that returns. -/
def Called (s : Session) (call : SignedAction × UInt32) (s' : Session) : Prop :=
  ∃ reply, (submitBody call.1 call.2).run s = .ok (reply, s')

theorem called_iff_step {s s' : Session} {call : SignedAction × UInt32} :
    Called s call s' ↔ Step s call s' := by
  simp only [Called, Step, submitBody_eq]
  cases s.submit call.1 call.2 with
  | ok t => simp [eq_comm]
  | err e => simp [eq_comm]
  | halt k => simp

/-! ## The fold over the log -/

/-- What the gate, the engine and the deck commitment make of a call, on
the state alone. -/
def judge (gameId : String) (ruleSet : RuleSet) (state : RoundState)
    (call : SignedAction × UInt32) : Call ProtocolError RoundState := do
  Session.verifyCrypto ⟨gameId, ruleSet, state, [], [], []⟩ call.1
  let next ← Outcome.ofExcept (applyAction state call.1 ruleSet call.2)
  bindDeck ruleSet state next

/-- **A call with a new nonce is judged on the state alone.** -/
theorem submit_eq_judge {s : Session} {a : SignedAction} {height : UInt32}
    (hfresh : a.actionNonce ∉ s.seenNonces) :
    s.submit a height = (judge s.gameId s.ruleSet s.state (a, height)).map (s.record a height) := by
  have hgate : Session.verifyCrypto ⟨s.gameId, s.ruleSet, s.state, [], [], []⟩ a =
      s.verifyCrypto a := rfl
  simp only [submit, judge, hfresh, if_false, hgate]
  cases s.verifyCrypto a with
  | halt k => rfl
  | err e => rfl
  | ok u =>
      cases applyAction s.state a s.ruleSet height with
      | error e => rfl
      | ok next =>
          simp only [Outcome.ok_bind, Outcome.ofExcept_ok]
          cases bindDeck s.ruleSet s.state next with
          | halt k => rfl
          | err e => rfl
          | ok final => rfl

/-- The log and the state say the same: the log's entries pair up, no
nonce was used twice and the nonces seen are those of the log, and the
state is the fold over it. -/
structure Logged (gameId : String) (ruleSet : RuleSet) (ruleSetHash : String)
    (recoveryDeadline : UInt32) (s : Session) : Prop where
  game : s.gameId = gameId
  rules : s.ruleSet = ruleSet
  lengths : s.transcript.length = s.heights.length
  distinct : (s.transcript.map (·.actionNonce)).Nodup
  seen : ∀ nonce, nonce ∈ s.seenNonces ↔ nonce ∈ s.transcript.map (·.actionNonce)
  folded : (s.transcript.zip s.heights).foldlM (judge gameId ruleSet)
    (initialState gameId ruleSetHash recoveryDeadline) = .ok s.state

variable {gameId : String} {ruleSet : RuleSet} {ruleSetHash : String} {recoveryDeadline : UInt32}
  {s s' : Session} {call : SignedAction × UInt32}

theorem logged_new :
    Logged gameId ruleSet ruleSetHash recoveryDeadline
      (new gameId ruleSet ruleSetHash recoveryDeadline) where
  game := rfl
  rules := rfl
  lengths := rfl
  distinct := List.nodup_nil
  seen := by simp [new]
  folded := rfl

/-- One accepted call keeps `Logged`. -/
theorem Logged.submit (h : Logged gameId ruleSet ruleSetHash recoveryDeadline s)
    (hok : s.submit call.1 call.2 = .ok s') :
    Logged gameId ruleSet ruleSetHash recoveryDeadline s' := by
  obtain ⟨hfresh, _⟩ := submit_eq_ok.mp hok
  rw [submit_eq_judge hfresh] at hok
  cases hjudge : judge s.gameId s.ruleSet s.state call with
  | halt k => simp [hjudge, Outcome.map] at hok
  | err e => simp [hjudge, Outcome.map] at hok
  | ok final =>
      simp only [hjudge, Outcome.map, Outcome.ok.injEq] at hok
      subst hok
      -- the nonces seen are the nonces logged, so a fresh one is new to both
      have hnew : call.1.actionNonce ∉ s.transcript.map (·.actionNonce) :=
        fun hmem => hfresh ((h.seen _).mpr hmem)
      refine ⟨h.game, h.rules, ?_, ?_, ?_, ?_⟩
      · simp [record, h.lengths]
      · simp only [record, List.map_append, List.map_cons, List.map_nil]
        rw [List.nodup_append]
        refine ⟨h.distinct, by simp, ?_⟩
        intro x hx y hy heq
        subst heq
        exact hnew (List.mem_singleton.mp hy ▸ hx)
      · intro nonce
        simp [record, h.seen, or_comm]
      · simp only [record]
        -- the fold over a longer log ends with this call
        rw [List.zip_append h.lengths, List.foldlM_append, h.folded]
        rw [h.game, h.rules] at hjudge
        simp [hjudge]

theorem logged_of_run {hist : List ((SignedAction × UInt32) × Session)}
    (h : Run gameId ruleSet ruleSetHash recoveryDeadline hist s) :
    Logged gameId ruleSet ruleSetHash recoveryDeadline s := by
  apply h.invariant logged_new
  intro s call s' hlogged hstep
  rcases hstep with hok | ⟨_, _, rfl⟩
  · exact hlogged.submit hok
  · exact hlogged

/-- **The log of a session.** After any calls of `Submit`, in any order
and from anybody: the state is the fold of the log, the log has one
height for each action, its nonces are distinct and are the nonces seen.
A call that returns an error leaves the session as it was; and as long as
no action with its nonce is in the log, an action is accepted exactly
when the gate, the engine and the deck commitment accept it. -/
theorem session_log {hist : List ((SignedAction × UInt32) × Session)}
    (h : Path Called (new gameId ruleSet ruleSetHash recoveryDeadline) hist s) :
    Logged gameId ruleSet ruleSetHash recoveryDeadline s ∧
      (∀ a height reply s', (submitBody a height).run s = .ok (reply, s') →
        reply.error ≠ none → s' = s ∧ reply.state = s.state) ∧
      ∀ a height, a.actionNonce ∉ s.transcript.map (·.actionNonce) →
        ((∃ reply s', (submitBody a height).run s = .ok (reply, s') ∧ reply.error = none) ↔
          ∃ next, judge gameId ruleSet s.state (a, height) = .ok next) := by
  have hlogged := logged_of_run (h.mono called_iff_step.mp)
  refine ⟨hlogged, ?_, ?_⟩
  · intro a height reply s' hcall herror
    rw [submitBody_eq] at hcall
    cases hsubmit : s.submit a height with
    | ok t =>
        simp only [hsubmit, Outcome.ok.injEq, Prod.mk.injEq] at hcall
        obtain ⟨rfl, _⟩ := hcall
        exact absurd rfl herror
    | err e =>
        simp only [hsubmit, Outcome.ok.injEq, Prod.mk.injEq] at hcall
        obtain ⟨rfl, rfl⟩ := hcall
        exact ⟨rfl, rfl⟩
    | halt k => simp [hsubmit] at hcall
  · intro a height hnew
    have hfresh : a.actionNonce ∉ s.seenNonces := fun hmem => hnew ((hlogged.seen _).mp hmem)
    rw [submitBody_eq, submit_eq_judge hfresh, hlogged.game, hlogged.rules]
    cases judge gameId ruleSet s.state (a, height) with
    | ok final => simp [Outcome.map]
    | err e => simp [Outcome.map, eq_comm]
    | halt k => simp [Outcome.map]

/-- The sample game, and a call refused after it. -/
theorem session_log_sample :
    ∃ hist s, Path Called (new sampleGame defaultRuleSet zeroHash 244) hist s ∧
      Logged sampleGame defaultRuleSet zeroHash 244 s := by
  obtain ⟨hist, s, hrun, _⟩ := sample_run
  have hcalls : Path Called (new sampleGame defaultRuleSet zeroHash 244) hist s :=
    hrun.mono called_iff_step.mpr
  exact ⟨hist, s, hcalls, (session_log hcalls).1⟩

end CardTable.Go.Session
