import CardTable.Go.Binding
import CardTable.Go.Dispatch
import CardTable.Go.Spv

/-!
# Go.Heights — from the node to `Submit`

The height an action is judged at has come a long way: the node is asked
by the loop of the header cache (`internal/spv/cache.go`), the cache is
served by `/headers/latest` (`internal/spv/server.go`), that is polled by
the relay (`internal/spv/http_height.go`), and a handler reads what the
poll left before it takes the session's lock. Every hand-over is a step
of its own, and the node may change its chain between any two of them.

The relay is the one of `cmd/relay` with `--spv-url` set. The tip crosses
HTTP as a JSON number that both sides keep in a `uint32`; a poll that
fails in any way is one that is lost.
-/

namespace CardTable.Go

open Basis Spv

/-! ## The poll -/

/-- How far a `refresh` of the height source has come. -/
inductive Poll where
  | asked
  | answered (tip : UInt32)
  deriving DecidableEq

/-- `HTTPHeightSource`: the cached tip, and the poll of its loop. -/
structure HTTPHeightSource where
  tip : UInt32
  poll : Option Poll
  deriving DecidableEq

/-- `NewHTTPHeightSource`. -/
def newHTTPHeightSource : HTTPHeightSource := ⟨0, none⟩

/-- `SetInitial`. -/
def HTTPHeightSource.setInitial (s : HTTPHeightSource) (h : UInt32) : HTTPHeightSource :=
  { s with tip := h }

/-- `Current`. -/
def HTTPHeightSource.current (s : HTTPHeightSource) : UInt32 := s.tip

/-- What the server answers on `/headers/latest`. -/
def latest (s : Spv.State) : UInt32 := s.cache.tip

/-! ## The deployment -/

/-- The node and its SPV service, the relay, and what its handlers have
read and not yet submitted with. -/
structure Deployment where
  service : Spv.State
  source : HTTPHeightSource
  relay : Relay
  inHand : Connection → Option UInt32

/-- What happens next. -/
inductive DeploymentAct where
  | service (e : Event)
  | ask
  | serve
  | lose
  | store
  | read (conn : Connection)
  | relay (act : RelayAct)

/-- The chain a step puts the node on. -/
def DeploymentAct.chain? : DeploymentAct → Option NodeChain
  | .service (.change chain) => some chain
  | _ => none

/-- A refresh of the cache is under way. -/
def Spv.State.Refreshing (s : Spv.State) (r : Nat) : Prop :=
  s.calls r = some .refreshing ∨ ∃ h, s.calls r = some (.tipInHand h)

/-- A refresh is begun by the loop of the cache, once the last one has
returned. -/
def Spv.State.Begins (s : Spv.State) : Event → Prop
  | .refresh _ => ∀ r, ¬s.Refreshing r
  | _ => True

/-- An action is submitted at the height its handler has read. -/
def Deployment.Judges (s : Deployment) : RelayAct → Prop
  | .dispatch conn (.action (.ok _)) height => s.inHand conn = some height
  | _ => True

namespace Deployment

/-- A deployment that was just started. -/
def start (chain : NodeChain) (startHeight : UInt32) (session : Session) (queueDepth : Int) :
    Deployment where
  service := Spv.start chain
  source := newHTTPHeightSource.setInitial startHeight
  relay := .new session queueDepth
  inHand := fun _ => none

/-- A handler reads `CurrentHeight`. -/
def read (s : Deployment) (conn : Connection) : Deployment :=
  { s with inHand := Function.update s.inHand conn (some s.source.current) }

/-- One step of the node, the service, the poll, or a handler. -/
def Step (s : Deployment) : DeploymentAct → Deployment → Prop
  | .service e, s' => s.service.Begins e ∧ ∃ service, Moves s.service e service ∧
      s' = { s with service := service }
  | .ask, s' => s.source.poll = none ∧ s' = { s with source := ⟨s.source.tip, some .asked⟩ }
  | .serve, s' => s.source.poll = some .asked ∧
      s' = { s with source := ⟨s.source.tip, some (.answered (latest s.service))⟩ }
  | .lose, s' => s.source.poll ≠ none ∧ s' = { s with source := ⟨s.source.tip, none⟩ }
  | .store, s' => ∃ h, s.source.poll = some (.answered h) ∧ s' = { s with source := ⟨h, none⟩ }
  | .read conn, s' => s' = s.read conn
  | .relay act, s' => s.Judges act ∧ ∃ relay, s.relay.Step act relay ∧
      s' = { s with relay := relay }

/-- The runs of a relay with a new session. -/
abbrev Run (chain : NodeChain) (startHeight : UInt32) (session : Session) (queueDepth : Int) :
    List (DeploymentAct × Deployment) → Deployment → Prop :=
  Path Step (start chain startHeight session queueDepth)

/-- The chains the node was put on, after the first one. -/
def chainsOf (hist : List (DeploymentAct × Deployment)) : List NodeChain :=
  hist.filterMap fun step => step.1.chain?

@[simp] theorem read_self (s : Deployment) (conn : Connection) :
    (s.read conn).inHand conn = some s.source.tip :=
  Function.update_self ..

theorem read_other (s : Deployment) {conn other : Connection} (h : other ≠ conn) :
    (s.read conn).inHand other = s.inHand other :=
  Function.update_of_ne h ..

/-! ## Where a height comes from -/

/-- Every height on its way satisfies `P`. -/
structure Sourced (P : UInt32 → Prop) (s : Deployment) : Prop where
  node : P s.service.node.best
  calls : ∀ r h, s.service.calls r = some (.tipInHand h) → P h
  cache : P s.service.cache.tip
  poll : ∀ h, s.source.poll = some (.answered h) → P h
  tip : P s.source.tip
  inHand : ∀ conn h, s.inHand conn = some h → P h

variable {P Q : UInt32 → Prop} {s s' : Deployment} {act : DeploymentAct}

theorem Sourced.mono (h : Sourced P s) (himp : ∀ n, P n → Q n) : Sourced Q s where
  node := himp _ h.node
  calls := fun r n hn => himp n (h.calls r n hn)
  cache := himp _ h.cache
  poll := fun n hn => himp n (h.poll n hn)
  tip := himp _ h.tip
  inHand := fun conn n hn => himp n (h.inHand conn n hn)

/-- The chain the node is on is changed by a change only. -/
theorem node_of_moves {s s' : Spv.State} {e : Event} (h : Moves s e s') :
    s'.node = s.node ∨ e = .change s'.node := by
  cases h with
  | change => exact .inr rfl
  | _ => exact .inl rfl

/-- The service hands on what it was told. -/
theorem Sourced.service (h : Sourced P s) {e : Event} {service : Spv.State}
    (hmoves : Moves s.service e service) (hnew : P service.node.best) :
    Sourced P { s with service := service } where
  node := hnew
  calls := by
    intro r n hn
    rcases hmoves.tipInHand hn with hold | ⟨_, rfl⟩
    · exact h.calls r n hold
    · exact h.node
  cache := by
    rcases hmoves.tip with hold | ⟨r, _, hcall⟩
    · show P service.cache.tip
      rw [hold]
      exact h.cache
    · exact h.calls r _ hcall
  poll := h.poll
  tip := h.tip
  inHand := h.inHand

/-- **No step makes a height up**: what is on its way was, or it is what
the node tells. -/
theorem Sourced.step (h : Sourced P s) (hstep : Step s act s')
    (hnew : ∀ chain, act.chain? = some chain → P chain.best) : Sourced P s' := by
  cases act with
  | service e =>
      obtain ⟨-, service, hmoves, rfl⟩ := hstep
      apply h.service hmoves
      rcases node_of_moves hmoves with hsame | rfl
      · rw [hsame]
        exact h.node
      · exact hnew _ rfl
  | ask =>
      obtain ⟨-, rfl⟩ := hstep
      refine { h with poll := ?_ }
      intro n hn
      cases hn
  | serve =>
      obtain ⟨-, rfl⟩ := hstep
      refine { h with poll := ?_ }
      intro n hn
      cases hn
      exact h.cache
  | lose =>
      obtain ⟨-, rfl⟩ := hstep
      refine { h with poll := ?_ }
      intro n hn
      cases hn
  | store =>
      obtain ⟨n, hn, rfl⟩ := hstep
      refine { h with poll := ?_, tip := h.poll n hn }
      intro m hm
      cases hm
  | read conn =>
      obtain rfl := hstep
      refine { h with inHand := ?_ }
      intro other n hn
      by_cases hother : other = conn
      · subst hother
        rw [read_self] at hn
        cases hn
        exact h.tip
      · rw [read_other s hother] at hn
        exact h.inHand other n hn
  | relay act =>
      obtain ⟨-, relay, -, rfl⟩ := hstep
      exact { h with }

/-- A height the relay may show: the one it was started with, the zero of
an empty cache, or the height of a chain the node was on. -/
def Shown (chain : NodeChain) (startHeight : UInt32) (hist : List (DeploymentAct × Deployment))
    (h : UInt32) : Prop :=
  h = startHeight ∨ h = 0 ∨ ∃ c ∈ chain :: chainsOf hist, h = c.best

variable {chain : NodeChain} {startHeight : UInt32} {session : Session} {queueDepth : Int}
  {hist : List (DeploymentAct × Deployment)}

theorem chainsOf_snoc (hist : List (DeploymentAct × Deployment)) (act : DeploymentAct)
    (s : Deployment) : chainsOf (hist ++ [(act, s)]) = chainsOf hist ++ act.chain?.toList :=
  filterMap_snoc _ _ _

theorem Shown.snoc {h : UInt32} (hshown : Shown chain startHeight hist h) :
    Shown chain startHeight (hist ++ [(act, s)]) h := by
  rcases hshown with hstart | hzero | ⟨c, hc, hbest⟩
  · exact .inl hstart
  · exact .inr (.inl hzero)
  · refine .inr (.inr ⟨c, ?_, hbest⟩)
    rw [chainsOf_snoc, ← List.cons_append]
    exact List.mem_append_left _ hc

/-- Every height on its way in a run was shown. -/
theorem sourced_of_run (hrun : Run chain startHeight session queueDepth hist s) :
    Sourced (Shown chain startHeight hist) s := by
  induction hrun with
  | start =>
      refine ⟨.inr (.inr ⟨chain, List.mem_cons_self, rfl⟩), ?_, .inr (.inl rfl), ?_, .inl rfl, ?_⟩
      · intro r n hcall
        cases hcall
      · intro n hpoll
        cases hpoll
      · intro conn n hread
        cases hread
  | @snoc hist s s' act hp hstep ih =>
      have hkept : Sourced (Shown chain startHeight (hist ++ [(act, s')])) s :=
        ih.mono fun _ => Shown.snoc
      apply hkept.step hstep
      intro c hc
      refine .inr (.inr ⟨c, ?_, rfl⟩)
      rw [chainsOf_snoc, hc, ← List.cons_append]
      exact List.mem_append_right _ (List.mem_singleton_self c)

/-! ## No early recovery -/

/-- Nothing but a `Recovery` leads to the recovered state. -/
theorem recovery_of_recovered {ruleSet : RuleSet} {height : UInt32} {state state' : RoundState}
    {a : SignedAction} (h : Accepts ruleSet height state a state')
    (hrecovered : state'.stateClass = .recovered) : a.actionType = .recovery := by
  cases h with
  | join _ hclass | dealConcealed _ hclass | tableClose _ hclass =>
      rw [show state.stateClass = .recovered from hrecovered] at hclass
      cases hclass
  | entropyCommit _ _ _ _ hnext =>
      rcases hnext with rfl | rfl
      · cases hrecovered
      · cases hrecovered
  | entropyReveal _ _ _ _ _ hnext =>
      subst hnext
      simp only [RoundState.advance] at hrecovered
      split at hrecovered
      · cases hrecovered
      · cases hrecovered
  | tableLock | firstCard | secondCard | thirdCard | bet | pass | fold | settle | rotate | finish
  | timeout => cases hrecovered
  | recovery hkind => exact hkind

/-- What an accepted call keeps of a session, and what it may not do too
early. -/
theorem due_of_submit {s s' : Session} {a : SignedAction} {height deadline : UInt32}
    (hok : s.submit a height = .ok s')
    (hdeadline : s.state.recoveryDeadlineBlockHeight = some deadline) :
    s'.state.recoveryDeadlineBlockHeight = some deadline ∧
      (s'.state.stateClass = .recovered → ¬height < deadline) := by
  obtain ⟨_, _, next, final, hnext, hbind, rfl⟩ := Session.submit_eq_ok.mp hok
  obtain ⟨_, haccepts⟩ := accepts_of_applyAction hnext
  obtain ⟨hbare, _⟩ := Session.bindDeck_eq_ok hbind
  have hkept : final.bare.recoveryDeadlineBlockHeight = next.bare.recoveryDeadlineBlockHeight := by
    rw [hbare]
  have hclass : final.bare.stateClass = next.bare.stateClass := by rw [hbare]
  constructor
  · exact hkept.trans (haccepts.keepsIdentity.2.1.trans hdeadline)
  · intro hrecovered
    have hkind := recovery_of_recovered haccepts (hclass.symm.trans hrecovered)
    exact haccepts.due hkind deadline hdeadline

/-- A step of the relay that touches the session is an accepted call. -/
theorem session_of_step {r r' : Relay} {act : RelayAct} (h : r.Step act r') :
    r'.session = r.session ∨ ∃ conn a height, act = .dispatch conn (.action (.ok a)) height ∧
      r.session.submit a height = .ok r'.session := by
  cases act with
  | connect conn =>
      obtain ⟨_, -, rfl⟩ := h
      exact .inl rfl
  | send conn call =>
      obtain ⟨_, _, _, -, -, -, rfl⟩ := h
      exact .inl rfl
  | receive ch got =>
      obtain ⟨_, -, rfl⟩ := h
      exact .inl rfl
  | disconnect conn =>
      obtain ⟨-, -, _, -, rfl⟩ := h
      exact .inl rfl
  | dispatch conn f height =>
      obtain ⟨-, -, next, sends, hdispatch, rfl⟩ := h
      simp only [Go.dispatch] at hdispatch
      split at hdispatch
      · cases hdispatch
        exact .inl rfl
      · cases hdispatch
        exact .inl rfl
      · split at hdispatch
        · cases hdispatch
        · cases hdispatch
          exact .inl rfl
        · rename_i a _ _ hok
          cases hdispatch
          exact .inr ⟨conn, a, height, rfl, hok⟩
      · cases hdispatch
        exact .inl rfl
      · cases hdispatch
        exact .inl rfl

/-- A step that touches the session is an accepted call, judged at a
height some handler had in hand. -/
theorem session_of_deployment (hstep : Step s act s') :
    s'.relay.session = s.relay.session ∨ ∃ a height conn, s.inHand conn = some height ∧
      s.relay.session.submit a height = .ok s'.relay.session := by
  cases act with
  | service e =>
      obtain ⟨-, _, -, rfl⟩ := hstep
      exact .inl rfl
  | ask | serve | lose =>
      obtain ⟨-, rfl⟩ := hstep
      exact .inl rfl
  | store =>
      obtain ⟨_, -, rfl⟩ := hstep
      exact .inl rfl
  | read conn =>
      obtain rfl := hstep
      exact .inl rfl
  | relay act =>
      obtain ⟨hjudges, relay, hrelay, rfl⟩ := hstep
      rcases session_of_step hrelay with hsame | ⟨conn, a, height, rfl, hok⟩
      · exact .inl hsame
      · exact .inr ⟨a, height, conn, hjudges, hok⟩

/-- The session of a deployment takes the steps of a session. -/
theorem session_run {gameId ruleSetHash : String} {ruleSet : RuleSet} {recoveryDeadline : UInt32}
    (hrun : Run chain startHeight (.new gameId ruleSet ruleSetHash recoveryDeadline) queueDepth
      hist s) :
    ∃ calls, Session.Run gameId ruleSet ruleSetHash recoveryDeadline calls s.relay.session := by
  induction hrun with
  | start => exact ⟨[], .start⟩
  | @snoc hist s s' act hp hstep ih =>
      obtain ⟨calls, hcalls⟩ := ih
      rcases session_of_deployment hstep with hsame | ⟨a, height, _, _, hok⟩
      · rw [hsame]
        exact ⟨calls, hcalls⟩
      · exact ⟨_, hcalls.next (a, height) (.inl hok)⟩

/-- What holds of the session: its deadline, and that the recovered state
was not reached below every height shown. -/
def Due (P : UInt32 → Prop) (deadline : UInt32) (s : Deployment) : Prop :=
  s.relay.session.state.recoveryDeadlineBlockHeight = some deadline ∧
    (s.relay.session.state.stateClass = .recovered → ∃ h, P h ∧ ¬h < deadline)

theorem Due.step {deadline : UInt32} (hsourced : Sourced P s) (h : Due P deadline s)
    (hstep : Step s act s') : Due P deadline s' := by
  rcases session_of_deployment hstep with hsame | ⟨a, height, conn, hread, hok⟩
  · simp only [Due, hsame]
    exact h
  · obtain ⟨hkept, hdue⟩ := due_of_submit hok h.1
    refine ⟨hkept, ?_⟩
    intro hrecovered
    exact ⟨height, hsourced.inHand conn height hread, hdue hrecovered⟩

theorem due_of_run {deadline : UInt32}
    (hdeadline : session.state.recoveryDeadlineBlockHeight = some deadline)
    (hopen : session.state.stateClass ≠ .recovered)
    (hrun : Run chain startHeight session queueDepth hist s) :
    Due (Shown chain startHeight hist) deadline s := by
  induction hrun with
  | start => exact ⟨hdeadline, fun hrecovered => absurd hrecovered hopen⟩
  | @snoc hist s s' act hp hstep ih =>
      have hlater : ∀ h, Shown chain startHeight hist h →
          Shown chain startHeight (hist ++ [(act, s')]) h := fun _ => Shown.snoc
      refine Due.step ((sourced_of_run hp).mono hlater) ⟨ih.1, ?_⟩ hstep
      intro hrecovered
      obtain ⟨h, hshown, hdue⟩ := ih.2 hrecovered
      exact ⟨h, hlater h hshown, hdue⟩

/-- **No early recovery.** However the steps of the node, the header
cache, the poll and the handlers interleave, and whatever the clients
send: a session is recovered only if the height the relay was started
with, or the height of a chain its node was on before, had reached the
recovery deadline. -/
theorem no_early_recovery {gameId ruleSetHash : String} {ruleSet : RuleSet}
    {recoveryDeadline : UInt32}
    (hrun : Run chain startHeight (.new gameId ruleSet ruleSetHash recoveryDeadline) queueDepth
      hist s)
    (hrecovered : s.relay.session.state.stateClass = .recovered) :
    ¬startHeight < recoveryDeadline ∨
      ∃ c ∈ chain :: chainsOf hist, ¬c.best < recoveryDeadline := by
  have hopen : (Session.new gameId ruleSet ruleSetHash recoveryDeadline).state.stateClass ≠
      .recovered := by
    intro h
    cases h
  obtain ⟨-, hdue⟩ := due_of_run rfl hopen hrun
  obtain ⟨h, hshown, hreached⟩ := hdue hrecovered
  rcases hshown with rfl | rfl | ⟨c, hc, rfl⟩
  · exact .inl hreached
  -- a deadline of zero is reached at every height
  · left
    rw [UInt32.lt_iff_toNat_lt] at hreached ⊢
    have hzero : (0 : UInt32).toNat = 0 := rfl
    omega
  · exact .inr ⟨c, hc, hreached⟩

/-! ## The height catches up -/

/-- A refresh under way was, or has just begun. -/
theorem refreshing_of_moves {s s' : Spv.State} {e : Event} (h : Moves s e s') {r : Nat}
    (hr : s'.Refreshing r) : s.Refreshing r ∨ e = .refresh r := by
  cases h with
  | change => exact .inl hr
  | refresh =>
      rcases hr with hr | ⟨n, hr⟩
      · rcases of_setCall hr with ⟨rfl, _⟩ | hr
        · exact .inr rfl
        · exact .inl (.inl hr)
      · rcases of_setCall hr with ⟨_, heq⟩ | hr
        · cases heq
        · exact .inl (.inr ⟨n, hr⟩)
  | height hcall =>
      rcases hr with hr | ⟨n, hr⟩
      · rcases of_setCall hr with ⟨_, heq⟩ | hr
        · cases heq
        · exact .inl (.inl hr)
      · rcases of_setCall hr with ⟨rfl, _⟩ | hr
        · exact .inl (.inl hcall)
        · exact .inl (.inr ⟨n, hr⟩)
  | noHeight | setTip | hit | miss | noHeader | header | store =>
      rcases hr with hr | ⟨n, hr⟩
      · rcases of_setCall hr with ⟨_, heq⟩ | hr
        · cases heq
        · exact .inl (.inl hr)
      · rcases of_setCall hr with ⟨_, heq⟩ | hr
        · cases heq
        · exact .inl (.inr ⟨n, hr⟩)

/-- One refresh at a time. -/
def Orderly (s : Deployment) : Prop :=
  ∀ r r', s.service.Refreshing r → s.service.Refreshing r' → r = r'

theorem Orderly.step (h : Orderly s) (hstep : Step s act s') : Orderly s' := by
  cases act with
  | service e =>
      obtain ⟨hbegins, service, hmoves, rfl⟩ := hstep
      intro r r' hr hr'
      rcases refreshing_of_moves hmoves hr with hold | rfl
      · rcases refreshing_of_moves hmoves hr' with hold' | rfl
        · exact h r r' hold hold'
        · exact absurd hold (hbegins r)
      · rcases refreshing_of_moves hmoves hr' with hold' | heq
        · exact absurd hold' (hbegins r')
        · exact Event.refresh.inj heq
  | ask | serve | lose =>
      obtain ⟨-, rfl⟩ := hstep
      exact h
  | store =>
      obtain ⟨_, -, rfl⟩ := hstep
      exact h
  | read conn =>
      obtain rfl := hstep
      exact h
  | relay act =>
      obtain ⟨-, relay, -, rfl⟩ := hstep
      exact h

theorem orderly_of_run (hrun : Run chain startHeight session queueDepth hist s) : Orderly s := by
  refine hrun.invariant ?_ Orderly.step
  intro r r' hr _
  rcases hr with hr | ⟨_, hr⟩
  · cases hr
  · cases hr

/-- **How far the height of the node has come**: on rung 4 to the hands
of the refresh, then to the cache, the answer to the poll, the height
source, and on the ground to the hands of the handler. -/
structure Rung (conn : Connection) (n : Nat) (s : Deployment) : Prop where
  orderly : Orderly s
  calls : n ≤ 4 → ∀ r h, s.service.calls r = some (.tipInHand h) → h = s.service.node.best
  cache : n ≤ 3 → s.service.cache.tip = s.service.node.best
  poll : n ≤ 2 → ∀ h, s.source.poll = some (.answered h) → h = s.service.node.best
  tip : n ≤ 1 → s.source.tip = s.service.node.best
  inHand : n = 0 → s.inHand conn = some s.service.node.best

variable {conn : Connection} {n r : Nat}

/-- While the node stays on its chain, no step takes the height back. -/
theorem Rung.keep (h : Rung conn n s) (hstep : Step s act s') (hcalm : act.chain? = none) :
    Rung conn n s' := by
  have horderly := h.orderly.step hstep
  cases act with
  | service e =>
      obtain ⟨-, service, hmoves, rfl⟩ := hstep
      have hnode : service.node = s.service.node := by
        rcases node_of_moves hmoves with hsame | rfl
        · exact hsame
        · cases hcalm
      refine ⟨horderly, ?_, ?_, ?_, ?_, ?_⟩
      · intro hn r v hv
        simp only [hnode]
        rcases hmoves.tipInHand hv with hold | ⟨_, rfl⟩
        · exact h.calls hn r v hold
        · rfl
      · intro hn
        simp only [hnode]
        rcases hmoves.tip with hold | ⟨r, _, hcall⟩
        · rw [hold]
          exact h.cache hn
        · exact h.calls (by omega) r _ hcall
      · simp only [hnode]
        exact h.poll
      · simp only [hnode]
        exact h.tip
      · simp only [hnode]
        exact h.inHand
  | ask | lose =>
      obtain ⟨-, rfl⟩ := hstep
      refine { h with orderly := horderly, poll := ?_ }
      intro _ v hv
      cases hv
  | serve =>
      obtain ⟨-, rfl⟩ := hstep
      refine { h with orderly := horderly, poll := ?_ }
      intro hn v hv
      cases hv
      exact h.cache (by omega)
  | store =>
      obtain ⟨v, hv, rfl⟩ := hstep
      refine { h with orderly := horderly, poll := ?_, tip := ?_ }
      · intro _ w hw
        cases hw
      · intro hn
        exact h.poll (by omega) v hv
  | read other =>
      obtain rfl := hstep
      refine { h with orderly := horderly, inHand := ?_ }
      intro hn
      by_cases hother : conn = other
      · subst hother
        rw [read_self]
        exact congrArg some (h.tip (by omega))
      · rw [read_other s hother]
        exact h.inHand hn
  | relay act =>
      obtain ⟨-, relay, -, rfl⟩ := hstep
      exact { h with orderly := horderly }

/-- The node answers a refresh: no other is under way. -/
theorem Rung.answered (h : Rung conn 5 s) (hstep : Step s (.service (.answerHeight r false)) s') :
    Rung conn 4 s' := by
  have hkept := h.keep hstep rfl
  obtain ⟨-, service, hmoves, rfl⟩ := hstep
  refine ⟨hkept.orderly, ?_, (absurd · (by decide)), (absurd · (by decide)),
    (absurd · (by decide)), (absurd · (by decide))⟩
  intro _ r' v hv
  cases hmoves with
  | height hcall =>
      rcases of_setCall hv with ⟨_, heq⟩ | hold
      · cases heq
        rfl
      · obtain rfl := h.orderly r r' (.inl hcall) (.inr ⟨v, hold⟩)
        rw [hcall] at hold
        cases hold

theorem Rung.cached (h : Rung conn 4 s) (hstep : Step s (.service (.setTip r)) s') :
    Rung conn 3 s' := by
  have hkept := h.keep hstep rfl
  obtain ⟨-, service, hmoves, rfl⟩ := hstep
  refine ⟨hkept.orderly, fun _ => hkept.calls (by decide), ?_, (absurd · (by decide)),
    (absurd · (by decide)), (absurd · (by decide))⟩
  intro _
  cases hmoves with
  | setTip hcall => exact h.calls (by decide) r _ hcall

theorem Rung.served (h : Rung conn 3 s) (hstep : Step s .serve s') : Rung conn 2 s' := by
  have hkept := h.keep hstep rfl
  obtain ⟨-, rfl⟩ := hstep
  refine ⟨hkept.orderly, fun _ => hkept.calls (by decide), fun _ => hkept.cache (by decide), ?_,
    (absurd · (by decide)), (absurd · (by decide))⟩
  intro _ v hv
  cases hv
  exact h.cache (by decide)

theorem Rung.stored (h : Rung conn 2 s) (hstep : Step s .store s') : Rung conn 1 s' := by
  have hkept := h.keep hstep rfl
  obtain ⟨v, hv, rfl⟩ := hstep
  refine ⟨hkept.orderly, fun _ => hkept.calls (by decide), fun _ => hkept.cache (by decide),
    fun _ => hkept.poll (by decide), ?_, (absurd · (by decide))⟩
  intro _
  exact h.poll (by decide) v hv

theorem Rung.taken (h : Rung conn 1 s) (hstep : Step s (.read conn) s') : Rung conn 0 s' := by
  have hkept := h.keep hstep rfl
  obtain rfl := hstep
  refine ⟨hkept.orderly, fun _ => hkept.calls (by decide), fun _ => hkept.cache (by decide),
    fun _ => hkept.poll (by decide), fun _ => hkept.tip (by decide), ?_⟩
  intro _
  rw [read_self]
  exact congrArg some (h.tip (by decide))

/-- What takes the height of the node to a handler: the answer to a
refresh and its write, a poll and its write, and a read. -/
def errand (r : Nat) (conn : Connection) : List DeploymentAct :=
  [.service (.answerHeight r false), .service (.setTip r), .serve, .store, .read conn]

/-- Each part of the errand takes the height one rung down. -/
theorem Rung.take {rest : List DeploymentAct} (hsuffix : (act :: rest) <:+ errand r conn)
    (h : Rung conn (rest.length + 1) s) (hstep : Step s act s') : Rung conn rest.length s' := by
  simp only [errand, List.suffix_cons_iff, List.cons.injEq, List.suffix_nil, reduceCtorEq,
    or_false] at hsuffix
  rcases hsuffix with ⟨rfl, rfl⟩ | ⟨rfl, rfl⟩ | ⟨rfl, rfl⟩ | ⟨rfl, rfl⟩ | ⟨rfl, rfl⟩
  · exact h.answered hstep
  · exact h.cached hstep
  · exact h.served hstep
  · exact h.stored hstep
  · exact h.taken hstep

/-- **A recovery that is due is accepted.** -/
theorem recovery_accepted {s : Session} {a : SignedAction} {height deadline : UInt32}
    (hkind : a.actionType = .recovery) (hgame : a.gameId = s.state.gameId)
    (hfresh : a.actionNonce ∉ s.seenNonces)
    (hdeadline : s.state.recoveryDeadlineBlockHeight = some deadline)
    (hdue : ¬height < deadline) :
    ∃ s', s.submit a height = .ok s' ∧ s'.state.stateClass = .recovered := by
  have hgate : s.verifyCrypto a = .ok () := by rw [Session.verifyCrypto, hkind]
  have hengine : applyAction s.state a s.ruleSet height = .ok { s.state with
      stateClass := .recovered
      allowedActions := []
      priorStateHash := some s.state.stateHash } := by
    simp only [applyAction, applyRecovery, hgame, hkind, hdeadline, hdue, ne_eq, not_true_eq_false,
      false_and, if_false]
  have hbind : Session.bindDeck s.ruleSet s.state { s.state with
      stateClass := .recovered
      allowedActions := []
      priorStateHash := some s.state.stateHash } = .ok { s.state with
      stateClass := .recovered
      allowedActions := []
      priorStateHash := some s.state.stateHash } := by
    simp [Session.bindDeck, Session.Unbound]
  exact ⟨_, Session.submit_eq_ok.mpr ⟨hfresh, hgate, _, _, hengine, hbind, rfl⟩, rfl⟩

/-- **The height catches up.** In every run, from any moment on at which
the node stays on its chain: once a refresh of the cache was answered and
written, a poll served and written, and the handler has read, in this
order and whatever happens in between, the height the handler holds is
that of the node; and at that height a `Recovery` of the game under a new
nonce is accepted as soon as it is due. -/
theorem height_catches_up {gameId ruleSetHash : String} {ruleSet : RuleSet}
    {recoveryDeadline : UInt32} {before since : List (DeploymentAct × Deployment)}
    (hbefore : Run chain startHeight (.new gameId ruleSet ruleSetHash recoveryDeadline) queueDepth
      before s)
    (hsince : Path Step s since s') (hcalm : ∀ step ∈ since, step.1.chain? = none)
    (herrand : (errand r conn).Sublist (since.map Prod.fst)) :
    s'.inHand conn = some s'.service.node.best ∧
      ∀ a : SignedAction, a.actionType = .recovery → a.gameId = gameId →
        a.actionNonce ∉ s'.relay.session.seenNonces →
        ¬s'.service.node.best < recoveryDeadline →
        ∃ session, s'.relay.session.submit a s'.service.node.best = .ok session ∧
          session.state.stateClass = .recovered := by
  have hground : Rung conn 0 s' := by
    have htop : Rung conn 5 s := ⟨orderly_of_run hbefore, (absurd · (by decide)),
      (absurd · (by decide)), (absurd · (by decide)), (absurd · (by decide)),
      (absurd · (by decide))⟩
    exact (hsince.restrict hcalm).climbs_down (L := Rung conn) herrand htop
      (fun h hstep => h.keep hstep.1 hstep.2) (fun hsuffix h hstep => h.take hsuffix hstep.1)
  refine ⟨hground.inHand rfl, ?_⟩
  intro a hkind hgame hfresh hdue
  obtain ⟨calls, hsession⟩ := session_run (hbefore.trans hsince)
  have hfixed := Session.fixed_of_run hsession
  exact recovery_accepted hkind (hgame.trans hfixed.stateGame.symm) hfresh hfixed.deadline hdue

/-! ## A recovery at the second block -/

/-- A chain of one block, and the same with a block on top. -/
def short : NodeChain := ⟨Reorg.genesis, []⟩
def long : NodeChain := ⟨Reorg.genesis, [Reorg.winning]⟩

/-- A session that may be recovered from height 1 on. -/
def soonDue : Session := .new sampleGame defaultRuleSet zeroHash 1

def recoverGame : SignedAction :=
  { bareAction sampleGame .recovery none with actionNonce := "r" }

/-- No refresh is under way where no call is. -/
theorem begins_of_quiet {s : Spv.State} (h : ∀ r, s.calls r = none) (r : Nat) :
    s.Begins (.refresh r) := by
  intro k hk
  rcases hk with hk | ⟨_, hk⟩
  · rw [h k] at hk
    cases hk
  · rw [h k] at hk
    cases hk

/-- The node finds its second block, and its height is on its errand
while a player connects. -/
theorem errand_run : ∃ before since s s', Run short 0 soonDue 64 before s ∧ Path Step s since s' ∧
    (∀ step ∈ since, step.1.chain? = none) ∧ (errand 0 (1, 0)).Sublist (since.map Prod.fst) ∧
    chainsOf (before ++ since) = [long] ∧ s'.service.node = long ∧
    s'.inHand (1, 0) = some 1 ∧ s'.relay.session = soonDue ∧ (1, 0) ∈ s'.relay.running ∧
    s'.relay.todo (1, 0) = [] := by
  have found := (Path.start : Run short 0 soonDue 64 _ _).next (.service (.change long))
    ⟨trivial, _, .change (by decide), rfl⟩
  have begun := found.next (.service (.refresh 0))
    ⟨begins_of_quiet (fun _ => rfl) 0, _, .refresh rfl, rfl⟩
  have answered := begun.resume.next (.service (.answerHeight 0 false))
    ⟨trivial, _, .height rfl, rfl⟩
  have cached := answered.next (.service (.setTip 0)) ⟨trivial, _, .setTip rfl, rfl⟩
  have asked := cached.next .ask ⟨rfl, rfl⟩
  have connected := asked.next (.relay (.connect (1, 0))) ⟨trivial, _, ⟨_, rfl, rfl⟩, rfl⟩
  have served := connected.next .serve ⟨rfl, rfl⟩
  have stored := served.next .store ⟨_, rfl, rfl⟩
  have taken := stored.next (.read (1, 0)) rfl
  refine ⟨_, _, _, _, begun, taken, ?_, ?_, rfl, rfl, rfl, rfl, by decide, rfl⟩
  · simp [DeploymentAct.chain?]
  · exact .cons_cons _ (.cons_cons _ (.cons _ (.cons _ (.cons_cons _ (.cons_cons _
      (.cons_cons _ .slnil))))))

theorem height_catches_up_sample : ∃ s : Deployment, s.inHand (1, 0) = some 1 ∧
    ∃ session, s.relay.session.submit recoverGame 1 = .ok session ∧
      session.state.stateClass = .recovered := by
  obtain ⟨before, since, s, s', hbefore, hsince, hcalm, herrand, -, hnode, -, hsession,
    -⟩ := errand_run
  obtain ⟨hread, hdue⟩ := height_catches_up hbefore hsince hcalm herrand
  rw [hnode] at hread hdue
  rw [hsession] at hdue
  refine ⟨s', hread, ?_⟩
  rw [hsession]
  exact hdue recoverGame rfl rfl (by decide) (by decide)

/-- The recovery is judged at that height. -/
theorem no_early_recovery_sample : ∃ hist s, Run short 0 soonDue 64 hist s ∧
    s.relay.session.state.stateClass = .recovered ∧
    (¬(0 : UInt32) < 1 ∨ ∃ c ∈ short :: chainsOf hist, ¬c.best < 1) := by
  obtain ⟨before, since, s, s', hbefore, hsince, -, -, -, -, hread, hsession, hrunning, hidle⟩ :=
    errand_run
  obtain ⟨session, hok, hrecovered⟩ := @recovery_accepted soonDue recoverGame 1 1 rfl rfl
    (by decide) rfl (by decide)
  rw [← hsession] at hok
  have hdispatch : ∃ sends, Go.dispatch s'.relay.session 1 (.action (.ok recoverGame)) 1 =
      some (session, sends) := by
    simp only [Go.dispatch, hok]
    exact ⟨_, rfl⟩
  obtain ⟨sends, hdispatch⟩ := hdispatch
  have recovered := (hbefore.trans hsince).next
    (.relay (.dispatch (1, 0) (.action (.ok recoverGame)) 1))
    ⟨hread, _, ⟨hrunning, hidle, _, _, hdispatch, rfl⟩, rfl⟩
  exact ⟨_, _, recovered, hrecovered, no_early_recovery recovered hrecovered⟩

end Deployment

end CardTable.Go
