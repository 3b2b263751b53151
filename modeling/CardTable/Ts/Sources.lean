import CardTable.Ts.Page

/-!
# Ts.Sources — the two sources of truth of the page

The page can change over from its own engine to a relay and back at any
moment, and the clients it has let go of live on: their sockets still
deliver, their digests still resolve, and what awaited them still goes
on. None of it reaches the state of the game shown, which comes from one
source at a time.
-/

namespace CardTable.Ts

open Basis

/-! ## What a task can do -/

/-- The acts that change over between the two sources. -/
def PageAct.switches : PageAct → Bool
  | .reset | .connect _ _ | .disconnect => true
  | _ => false

namespace Page

/-- Of every client: whether it is listened to, the decodes that wait and
the events emitted. -/
def logs (p : Page) : List (Bool × List Digesting × List RelayEvent) :=
  p.clients.map fun c => (c.listening, c.digesting, c.emitted)

/-- **The wiring of a page**: exactly the client it holds is listened to,
and a relay is named exactly while there is one. -/
structure Wired (p : Page) : Prop where
  listening : ∀ i c, p.clients[i]? = some c → (c.listening = true ↔ p.relay = some i)
  held : ∀ i, p.relay = some i → i < p.clients.length
  shown : p.relayUrl.isSome = p.relay.isSome
  rules : p.ruleSet = defaultRuleSet

/-- What the page's own game is made of. -/
def own (p : Page) : RoundState × SafeNat × Option SettlementResult × Nat :=
  (p.table.state, p.height, p.settlement, p.nonceCounter)

/-- A task seen by the page's own game. -/
def ownStep (b : Browser) (p : Page) : PageAct → Page
  | .player act => p.play b act
  | .setHeight h => p.setHeight h
  | _ => p

/-- Two pages that hold one game. -/
structure SameGame (p r : Page) : Prop where
  own : p.own = r.own
  rules : p.ruleSet = r.ruleSet

theorem SameGame.refl (p : Page) : SameGame p p := ⟨rfl, rfl⟩

/-- What no task but a change-over touches. -/
structure SameWiring (p p' : Page) : Prop where
  relay : p'.relay = p.relay
  relayUrl : p'.relayUrl = p.relayUrl
  rules : p'.ruleSet = p.ruleSet
  listening : p'.clients.map (·.listening) = p.clients.map (·.listening)

/-- The settlement shown after a move of the engine. -/
def shownAfter (ruleSet : RuleSet) (state : RoundState) (a : SignedAction)
    (shown : Option SettlementResult) : Option SettlementResult :=
  match a with
  | .settle _ => (computeSettlement state ruleSet).value?
  | _ => shown

/-- A move of the page's own engine. -/
structure Moves (p p' : Page) (a : SignedAction) : Prop where
  alone : p.relay = none
  step : Step p.ruleSet p.table.state (a, p.height) p'.table.state
  settlement : p'.settlement = shownAfter p.ruleSet p.table.state a p.settlement

/-- What a task makes of the state and the settlement when no frame is
delivered. -/
def Advances (p p' : Page) : Prop :=
  (p'.table.state = p.table.state ∧ p'.settlement = p.settlement) ∨ ∃ a, Moves p p' a

variable {b : Browser} {p p' : Page}

theorem SameWiring.of_logs (hrelay : p'.relay = p.relay) (hurl : p'.relayUrl = p.relayUrl)
    (hrules : p'.ruleSet = p.ruleSet) (hlogs : p'.logs = p.logs) : SameWiring p p' := by
  refine ⟨hrelay, hurl, hrules, ?_⟩
  have hfst := congrArg (List.map Prod.fst) hlogs
  rw [logs, logs, List.map_map, List.map_map] at hfst
  exact hfst

theorem SameWiring.wired (h : SameWiring p p') (hp : p.Wired) : p'.Wired := by
  have hlen : p'.clients.length = p.clients.length := by
    simpa using congrArg List.length h.listening
  refine ⟨?_, ?_, ?_, ?_⟩
  · intro i c hc
    have hat := congrArg (·[i]?) h.listening
    simp only [List.getElem?_map, hc, Option.map_some] at hat
    obtain ⟨d, hd, hsame⟩ := Option.map_eq_some_iff.mp hat.symm
    rw [h.relay, ← hp.listening i d hd, hsame]
  · rw [h.relay, hlen]
    exact hp.held
  · rw [h.relayUrl, h.relay]
    exact hp.shown
  · rw [h.rules]
    exact hp.rules

/-- An action of the page is one of the game it shows. -/
theorem gameId_action {nonce : String} {act : PlayerAct} {a : SignedAction}
    (h : p.action nonce act = .ok a) : a.base.gameId = p.table.state.gameId := by
  cases act with
  | revealCard ordinal =>
      obtain ⟨card, -, h⟩ := Outcome.bind_eq_ok.mp h
      cases h
      rfl
  | _ =>
      cases h
      rfl

/-- Exactly `settle` builds a `Settle`. -/
theorem settle_action {nonce : String} {act : PlayerAct} {a : SignedAction}
    (h : p.action nonce act = .ok a) :
    act.settles = true ↔ ∃ settle, a = .settle settle := by
  cases act with
  | revealCard ordinal =>
      obtain ⟨card, -, h⟩ := Outcome.bind_eq_ok.mp h
      cases h
      simp [PlayerAct.settles]
  | _ =>
      cases h
      simp [PlayerAct.settles]

/-- An action goes to the relay or to the engine. The engine's settlement
is always shown. -/
theorem advances_apply {a : SignedAction} {computeSettle : Bool}
    (hgame : a.base.gameId = p.table.state.gameId)
    (hsettle : computeSettle = true ↔ ∃ settle, a = .settle settle) :
    Advances p (p.apply b a computeSettle) ∧ (p.apply b a computeSettle).logs = p.logs ∧
      SameWiring p (p.apply b a computeSettle) := by
  have hkept : ∀ q : Page, q.relay = p.relay → q.relayUrl = p.relayUrl → q.ruleSet = p.ruleSet →
      q.clients = p.clients → q.logs = p.logs ∧ SameWiring p q := by
    intro q hrelay hurl hrules hclients
    have hlogs : q.logs = p.logs := by rw [logs, logs, hclients]
    exact ⟨hlogs, .of_logs hrelay hurl hrules hlogs⟩
  cases hrelay : p.relay with
  | some i =>
      simp only [apply, hrelay]
      exact ⟨.inl ⟨rfl, rfl⟩, hkept _ hrelay.symm rfl rfl rfl⟩
  | none =>
      cases happly : applyAction p.table.state a p.ruleSet p.height with
      | halt k =>
          have hsame : p.apply b a computeSettle = p := by simp only [apply, hrelay, happly]
          rw [hsame]
          exact ⟨.inl ⟨rfl, rfl⟩, hkept p rfl rfl rfl rfl⟩
      | err e =>
          have hfail : p.apply b a computeSettle = p.fail e.code.text e.context := by
            simp only [apply, hrelay, happly]
          rw [hfail]
          exact ⟨.inl ⟨rfl, rfl⟩, hkept _ rfl rfl rfl rfl⟩
      | ok next =>
          by_cases hkind : ∃ settle, a = .settle settle
          · have htrue := hsettle.mpr hkind
            obtain ⟨settle, rfl⟩ := hkind
            obtain ⟨x, rfl⟩ := applySettle_eq_ok.mp ((settle_accepted_iff p.height hgame).mp happly)
            have hshown := computeSettlement_eq_ok.mpr ⟨x, rfl⟩
            simp only [apply, hrelay, happly, htrue, x.phase, decide_true, Bool.and_self, if_true,
              hshown]
            refine ⟨.inr ⟨_, hrelay, happly, ?_⟩, hkept _ hrelay.symm rfl rfl rfl⟩
            rw [shownAfter, hshown]
            rfl
          · have hfalse : computeSettle = false := by
              rw [← Bool.not_eq_true, hsettle]
              exact hkind
            simp only [apply, hrelay, happly, hfalse, Bool.false_and, Bool.false_eq_true, if_false]
            refine ⟨.inr ⟨a, hrelay, happly, ?_⟩, hkept _ hrelay.symm rfl rfl rfl⟩
            cases a with
            | settle settle => exact absurd ⟨settle, rfl⟩ hkind
            | _ => rfl

theorem advances_play (act : PlayerAct) :
    Advances p (p.play b act) ∧ (p.play b act).logs = p.logs ∧ SameWiring p (p.play b act) := by
  -- raising the counter is seen by none of the three
  have hraise : SameWiring p p.raise := .of_logs rfl rfl rfl rfl
  cases hbuilt : p.raise.built act with
  | ok a =>
      obtain ⟨nonce, -, haction⟩ := Outcome.bind_eq_ok.mp hbuilt
      obtain ⟨hadvances, hlogs, hsame⟩ :=
        advances_apply (b := b) (gameId_action haction) (settle_action haction)
      simp only [play, hbuilt]
      refine ⟨?_, hlogs, hsame.relay, hsame.relayUrl, hsame.rules, hsame.listening⟩
      rcases hadvances with hidle | ⟨a, halone, hstep, hshown⟩
      · exact .inl hidle
      · exact .inr ⟨a, halone, hstep, hshown⟩
  | err e | halt e =>
      have hplay : p.play b act = p.raise := by simp only [play, hbuilt]
      rw [hplay]
      exact ⟨.inl ⟨rfl, rfl⟩, rfl, hraise⟩

/-- A client replaced by one with the same log. -/
theorem logs_set {i : Nat} {c : Client} (c' : Client) (hc : p.clients[i]? = some c)
    (hlistening : c'.listening = c.listening) (hdigesting : c'.digesting = c.digesting)
    (hemitted : c'.emitted = c.emitted) :
    (p.clients.set i c').map (fun c => (c.listening, c.digesting, c.emitted)) = p.logs := by
  rw [List.map_set, hlistening, hdigesting, hemitted]
  apply List.ext_getElem?
  intro j
  by_cases hij : i = j
  · subst hij
    simp [logs, List.getElem?_set, hc]
    exact (List.getElem?_eq_some_iff.mp hc).1
  · rw [List.getElem?_set_ne hij]
    rfl

/-- **A client's task**: the client takes a step of its own, and the store
hears of it while the listener is there. -/
structure Hears (b : Browser) (p p' : Page) (i : Nat) (act : SocketAct) : Prop where
  step : ∃ c v c', p.clients[i]? = some c ∧ RelayClient.Step b.json (c.atTable p.table) act v ∧
    p'.clients = p.clients.set i c' ∧ c'.listening = c.listening ∧ c'.digesting = v.digesting ∧
    c'.emitted = v.emitted ∧ p'.table = if c.listening then v.store else p.table
  height : p'.height = p.height
  settlement : p'.settlement = p.settlement
  nonces : p'.nonceCounter = p.nonceCounter

theorem advances_of_own (h : p'.own = p.own) : Advances p p' := by
  simp only [own, Prod.mk.injEq] at h
  exact .inl ⟨h.1, h.2.2.1⟩

theorem finish_quiet (sending : Sending) : (p.finish b sending).own = p.own ∧
    (p.finish b sending).logs = p.logs ∧ SameWiring p (p.finish b sending) := by
  cases sending with
  | refused message => exact ⟨rfl, rfl, .of_logs rfl rfl rfl rfl⟩
  | digest i frame =>
      cases hfind : p.clients[i]?.filter (·.socket) with
      | none =>
          have hfail : p.finish b (.digest i frame) = p.fail "STATE_NOT_FOUND" b.nullSocket := by
            simp only [finish, hfind]
          rw [hfail]
          exact ⟨rfl, rfl, .of_logs rfl rfl rfl rfl⟩
      | some c =>
          obtain ⟨hc, -⟩ := Option.filter_eq_some_iff.mp hfind
          have hlogs := logs_set { c with posted := c.posted ++ [frame] } hc rfl rfl rfl
          have hposted : p.finish b (.digest i frame) =
              { p with clients := p.clients.set i { c with posted := c.posted ++ [frame] } } := by
            simp only [finish, hfind]
          rw [hposted]
          exact ⟨rfl, hlogs, .of_logs rfl rfl rfl hlogs⟩

theorem resume_quiet {i : Nat} {c : Client} (hc : p.clients[i]? = some c)
    (h : p.resume i c = some p') : p'.own = p.own ∧ p'.logs = p.logs ∧ SameWiring p p' := by
  have hlogs := logs_set { c with opening := .resumed } hc rfl rfl rfl
  simp only [resume] at h
  cases hopening : c.opening with
  | resolved | rejected =>
      simp only [hopening, Option.some.injEq] at h
      subst h
      exact ⟨rfl, hlogs, .of_logs rfl rfl rfl hlogs⟩
  | pending | resumed =>
      simp only [hopening] at h
      cases h

theorem setHeight_quiet (h : Int) : (p.setHeight h).table.state = p.table.state ∧
    (p.setHeight h).settlement = p.settlement ∧ (p.setHeight h).logs = p.logs ∧
    SameWiring p (p.setHeight h) := by
  simp only [setHeight]
  split
  · exact ⟨rfl, rfl, rfl, .of_logs rfl rfl rfl rfl⟩
  · exact ⟨rfl, rfl, rfl, .of_logs rfl rfl rfl rfl⟩

/-- **What a task can do** that is not a change-over. -/
theorem quiet_cases {act : PageAct} (h : PageStep b p act p') (hquiet : act.switches = false) :
    SameWiring p p' ∧ ((∃ i sact, act = .socket i sact ∧ Hears b p p' i sact) ∨
      ((∀ i sact, act ≠ .socket i sact) ∧ p'.logs = p.logs ∧ Advances p p' ∧
        SameGame p' (p.ownStep b act))) := by
  cases act with
  | reset | connect | disconnect => cases hquiet
  | player act =>
      obtain rfl := h
      obtain ⟨hadvances, hlogs, hsame⟩ := advances_play (b := b) (p := p) act
      exact ⟨hsame, .inr ⟨nofun, hlogs, hadvances, .refl _⟩⟩
  | setHeight height =>
      obtain rfl := h
      obtain ⟨hstate, hshown, hlogs, hsame⟩ := setHeight_quiet (p := p) height
      exact ⟨hsame, .inr ⟨nofun, hlogs, .inl ⟨hstate, hshown⟩, .refl _⟩⟩
  | resumed i =>
      obtain ⟨c, hc, h⟩ := h
      obtain ⟨hown, hlogs, hsame⟩ := resume_quiet hc h
      exact ⟨hsame, .inr ⟨nofun, hlogs, advances_of_own hown, hown, hsame.rules⟩⟩
  | closing i =>
      obtain ⟨c, hc, rfl⟩ := h
      have hlogs := logs_set { c with isOpen := false } hc rfl rfl rfl
      exact ⟨.of_logs rfl rfl rfl hlogs, .inr ⟨nofun, hlogs, advances_of_own rfl, rfl, rfl⟩⟩
  | sent k =>
      obtain ⟨sending, -, rfl⟩ := h
      let q : Page := { p with sending := p.sending.eraseIdx k }
      obtain ⟨hown, hlogs, hsame⟩ := finish_quiet (b := b) (p := q) sending
      exact ⟨⟨hsame.relay, hsame.relayUrl, hsame.rules, hsame.listening⟩,
        .inr ⟨nofun, hlogs, advances_of_own hown, hown, hsame.rules⟩⟩
  | socket i sact =>
      obtain ⟨c, v, hc, hstep, rfl⟩ := h
      have hlistening : (c.handle sact).listening = c.listening := by
        cases sact with
        | _ => rfl
      refine ⟨⟨rfl, rfl, rfl, ?_⟩, .inl ⟨i, sact, rfl, ⟨c, v, _, hc, hstep, rfl, hlistening, rfl, rfl,
        rfl⟩, rfl, rfl, rfl⟩⟩
      show (p.clients.set i _).map _ = _
      rw [List.map_set]
      apply List.ext_getElem?
      intro j
      by_cases hij : i = j
      · subst hij
        simp [List.getElem?_set, hc, hlistening]
        exact (List.getElem?_eq_some_iff.mp hc).1
      · rw [List.getElem?_set_ne hij]

/-! ## The wiring over a run -/

theorem wired_openPage : openPage.Wired where
  listening _ _ hc := nomatch hc
  held _ hrelay := nomatch hrelay
  shown := rfl
  rules := rfl

/-- A page that lets its client go listens to none. -/
theorem letGo_deaf (hp : p.Wired) {i : Nat} {c : Client} (hc : p.letGo[i]? = some c) :
    c.listening = false := by
  simp only [letGo] at hc
  cases hrelay : p.relay with
  | none =>
      simp only [hrelay] at hc
      rw [← Bool.not_eq_true, hp.listening i c hc, hrelay]
      nofun
  | some k =>
      simp only [hrelay, List.getElem?_modify] at hc
      obtain ⟨d, hd, rfl⟩ := Option.map_eq_some_iff.mp hc
      by_cases hki : k = i
      · rw [if_pos hki]
      · rw [if_neg hki]
        show d.listening = false
        rw [← Bool.not_eq_true, hp.listening i d hd, hrelay, Option.some.injEq]
        exact hki

theorem length_letGo (p : Page) : p.letGo.length = p.clients.length := by
  rw [letGo]
  split
  · rw [List.length_modify]
  · rfl

theorem wired_step {act : PageAct} (hp : p.Wired) (h : PageStep b p act p') : p'.Wired := by
  by_cases hquiet : act.switches = false
  · exact (quiet_cases h hquiet).1.wired hp
  cases act with
  | reset =>
      obtain rfl := h
      refine ⟨?_, nofun, rfl, rfl⟩
      intro i c hc
      simp [letGo_deaf hp hc, reset, openPage]
  | disconnect =>
      obtain rfl := h
      refine ⟨?_, nofun, rfl, hp.rules⟩
      intro i c hc
      simp [letGo_deaf hp hc, disconnect]
  | connect url refused =>
      obtain rfl := h
      refine ⟨?_, ?_, rfl, hp.rules⟩
      · intro i c hc
        simp only [connect] at hc ⊢
        rcases Nat.lt_trichotomy i p.letGo.length with hlt | heq | hgt
        · rw [List.getElem?_append_left hlt] at hc
          rw [length_letGo] at hlt
          simp only [letGo_deaf hp hc, Bool.false_eq_true, Option.some.injEq, false_iff]
          omega
        · subst heq
          rw [List.getElem?_concat_length] at hc
          obtain rfl := Option.some.inj hc
          simp [length_letGo]
        · rw [List.getElem?_eq_none (by simp; omega)] at hc
          cases hc
      · intro i hi
        simp only [connect, Option.some.injEq] at hi ⊢
        rw [List.length_append, length_letGo, List.length_singleton]
        omega
  | _ => exact absurd rfl hquiet

end Page

/-! ## One client on its own -/

namespace RelayClient

variable {S : Type} {json : Json S} {c c' : RelayClient S} {act : SocketAct}

/-- A step emits the same events whatever store listens. -/
theorem step_over (hs : Step json c act c') : ∃ events,
    c'.emitted = c.emitted ++ events ∧ c'.store = events.foldl (onRelayEvent json) c.store ∧
      ∀ store, Step json { c with store := store } act
        { c' with store := events.foldl (onRelayEvent json) store } := by
  cases act with
  | message data =>
      obtain rfl := hs
      cases data with
      | text data => exact ⟨[.error _], rfl, rfl, fun _ => rfl⟩
      | binary data =>
          simp only [Step, handleMessage]
          cases decodeStart data with
          | ok d => exact ⟨[], (List.append_nil _).symm, rfl, fun _ => rfl⟩
          | error e => exact ⟨[.error _], rfl, rfl, fun _ => rfl⟩
  | digested older =>
      obtain ⟨d, hat, rfl⟩ := hs
      simp only [Step, resume]
      cases hresume : d.resume with
      | ok f => exact ⟨[.frame f], rfl, rfl, fun _ => ⟨d, hat, by rw [hresume]; rfl⟩⟩
      | error e => exact ⟨[.error _], rfl, rfl, fun _ => ⟨d, hat, by rw [hresume]; rfl⟩⟩
  | opened =>
      obtain rfl := hs
      exact ⟨[.opened], rfl, rfl, fun _ => rfl⟩
  | closed code reason =>
      obtain rfl := hs
      exact ⟨[.closed code reason], rfl, rfl, fun _ => rfl⟩
  | failed =>
      obtain rfl := hs
      exact ⟨[.error _], rfl, rfl, fun _ => rfl⟩

/-- What events make of the state depends on no other part of the
store. -/
theorem state_events (events : List RelayEvent) (store : TableStore S) :
    (events.foldl (onRelayEvent json) store).state =
      stateAfter json store.state (events.filterMap RelayEvent.frame?) := by
  induction events generalizing store with
  | nil => rfl
  | cons ev events ih =>
      rw [List.foldl_cons, ih, filterMap_cons_toList, stateAfter_append]
      congr 1
      exact state_emit ⟨[], [], store⟩ ev

end RelayClient

/-! ## The frames of one socket -/

/-- The task as one of a client's socket. -/
def PageAct.at (i : Nat) : PageAct → Option SocketAct
  | .socket j act => if j = i then some act else none
  | _ => none

/-- The frames that arrive on a client's socket. -/
def framesAt (i : Nat) (hist : List (PageAct × Page)) : List WireFrame :=
  hist.filterMap fun step => ((step.1.at i).bind SocketAct.message?).bind Message.frame?

/-- **The condition on a task**: the digests of a client resolve in the
order of their messages. -/
def PageAct.InOrder (i : Nat) (p : Page) (act : PageAct) : Prop :=
  ∀ sact c, act.at i = some sact → p.clients[i]? = some c → (c.atTable p.table).InOrder sact

namespace Page

variable {b : Browser} {p p' p₀ : Page} {hist : List (PageAct × Page)}

/-- A client seen alone: a run of its own that emits what it has emitted
on the page since `p₀`, and shows the same state. -/
structure Alone (b : Browser) (p₀ : Page) (i : Nat) (hist : List (PageAct × Page)) (p : Page)
    (alone : List (SocketAct × RelayClient RoundState)) (v : RelayClient RoundState) (c : Client) :
    Prop where
  run : RelayClient.Run b.json p₀.table alone v
  acts : alone.map Prod.fst = hist.filterMap (·.1.at i)
  relay : p.relay = some i
  client : p.clients[i]? = some c
  digesting : c.digesting = v.digesting
  emitted : c.emitted = v.emitted
  state : p.table.state = v.store.state
  order : (∀ step ∈ stepsOf p₀ hist, step.2.1.InOrder i step.1) →
    ∀ step ∈ stepsOf (RelayClient.connecting p₀.table) alone, step.1.InOrder step.2.1

variable {i : Nat} {c c' : Client} {v : RelayClient RoundState}
  {alone : List (SocketAct × RelayClient RoundState)} {act : PageAct}

/-- A task of anything else leaves the client's side as it is. -/
theorem Alone.elsewhere (h : Alone b p₀ i hist p alone v c) (hp : Path (PageStep b) p₀ hist p)
    (hat : act.at i = none) (hrelay : p'.relay = p.relay) (hc' : p'.clients[i]? = some c')
    (hdigesting : c'.digesting = c.digesting) (hemitted : c'.emitted = c.emitted)
    (hstate : p'.table.state = p.table.state) :
    Alone b p₀ i (hist ++ [(act, p')]) p' alone v c' where
  run := h.run
  acts := by rw [filterMap_snoc, hat, h.acts, Option.toList_none, List.append_nil]
  relay := hrelay.trans h.relay
  client := hc'
  digesting := hdigesting.trans h.digesting
  emitted := hemitted.trans h.emitted
  state := hstate.trans h.state
  order := by
    intro hall
    rw [hp.stepsOf_snoc] at hall
    exact h.order fun step hstep => hall step (List.mem_append_left _ hstep)

/-- A task of the client is one of its run alone. -/
theorem Alone.heard {sact : SocketAct} (h : Alone b p₀ i hist p alone v c)
    (hp : Path (PageStep b) p₀ hist p) (hrelay : p'.relay = p.relay)
    (hlistening : c.listening = true) (hhears : Hears b p p' i sact) :
    ∃ alone v c, Alone b p₀ i (hist ++ [(.socket i sact, p')]) p' alone v c := by
  obtain ⟨d, w, d', hd, hstep, hset, -, hdigesting', hemitted', htable⟩ := hhears.step
  obtain rfl : c = d := Option.some.inj (h.client.symm.trans hd)
  obtain ⟨events, hevents, hstore, hany⟩ := RelayClient.step_over hstep
  have hview : ({ c.atTable p.table with store := v.store } : RelayClient RoundState) = v := by
    simp only [Client.atTable, h.digesting, h.emitted]
  have hnext := hany v.store
  rw [hview] at hnext
  refine ⟨_, _, d', h.run.next sact hnext, ?_, hrelay.trans h.relay, ?_, hdigesting', hemitted',
    ?_, ?_⟩
  · rw [List.map_append, filterMap_snoc, h.acts]
    simp [PageAct.at]
  · rw [hset, List.getElem?_set_self (List.getElem?_eq_some_iff.mp h.client).1]
  · rw [htable, if_pos hlistening, hstore, RelayClient.state_events, RelayClient.state_events]
    exact congrArg (RelayClient.stateAfter b.json · _) h.state
  · intro hall step hstep'
    rw [hp.stepsOf_snoc] at hall
    rw [h.run.stepsOf_snoc] at hstep'
    rcases List.mem_append.mp hstep' with hold | hnew
    · exact h.order (fun step hstep => hall step (List.mem_append_left _ hstep)) step hold
    · obtain rfl := List.mem_singleton.mp hnew
      have hlast := hall (p, _, p') (List.mem_append_right _ (List.mem_singleton_self _))
      have hview' := hlast sact c (by simp [PageAct.at]) h.client
      cases sact with
      | digested older =>
          simp only [RelayClient.InOrder, Client.atTable, h.digesting] at hview'
          exact hview'
      | _ => trivial

/-- **The client beside the page**: while no change-over comes, the page
shows what its client would show if nothing else happened. -/
theorem attached {c₀ : Client} (hrun : Path (PageStep b) p₀ hist p) (hwired : p₀.Wired)
    (hrelay : p₀.relay = some i) (hc₀ : p₀.clients[i]? = some c₀) (hidle : c₀.digesting = [])
    (hsilent : c₀.emitted = []) (hquiet : ∀ step ∈ hist, step.1.switches = false) :
    ∃ alone v c, Alone b p₀ i hist p alone v c := by
  induction hrun with
  | start => exact ⟨[], _, c₀, .start, rfl, hrelay, hc₀, hidle, hsilent, rfl, fun _ _ h => nomatch h⟩
  | @snoc hist p p' act hp hs ih =>
      rw [List.forall_mem_append] at hquiet
      obtain ⟨alone, v, c, h⟩ := ih hquiet.1
      have hwired' : p.Wired := hp.invariant hwired wired_step
      obtain ⟨hsame, hcases⟩ := quiet_cases hs (hquiet.2 _ List.mem_cons_self)
      rcases hcases with ⟨j, sact, rfl, hhears⟩ | ⟨hnot, hlogs, hadvances⟩
      · by_cases hji : j = i
        · subst hji
          exact h.heard hp hsame.relay ((hwired'.listening j c h.client).mpr h.relay) hhears
        · obtain ⟨d, w, d', hd, -, hset, -, -, -, htable⟩ := hhears.step
          have hdeaf : d.listening = false := by
            rw [← Bool.not_eq_true, hwired'.listening j d hd, h.relay, Option.some.injEq]
            exact fun heq => hji heq.symm
          refine ⟨alone, v, c, h.elsewhere hp (by simp [PageAct.at, hji]) hsame.relay ?_ rfl rfl ?_⟩
          · rw [hset, List.getElem?_set_ne hji, h.client]
          · rw [htable, hdeaf, if_neg (by simp)]
      · have hlog := congrArg (·[i]?) hlogs
        simp only [logs, List.getElem?_map, h.client, Option.map_some] at hlog
        obtain ⟨c', hc', heq⟩ := Option.map_eq_some_iff.mp hlog
        simp only [Prod.mk.injEq] at heq
        obtain ⟨-, hdigesting, hemitted⟩ := heq
        refine ⟨alone, v, c', h.elsewhere hp ?_ hsame.relay hc' hdigesting hemitted ?_⟩
        · cases act with
          | socket j sact => exact absurd rfl (hnot j sact)
          | _ => rfl
        · rcases hadvances with ⟨hstate, -⟩ | ⟨_, hmoves⟩
          · exact hstate
          · exact absurd (hmoves.alone.symm.trans h.relay) (by simp)

/-- The frames of a run alone are those on the client's socket. -/
theorem Alone.received (h : Alone b p₀ i hist p alone v c) :
    RelayClient.received alone = framesAt i hist := by
  have hmap : RelayClient.received alone =
      (alone.map Prod.fst).filterMap fun act => act.message?.bind Message.frame? := by
    rw [RelayClient.received, List.filterMap_map]
    rfl
  rw [hmap, h.acts, List.filterMap_filterMap, framesAt]
  congr 1
  funext step
  cases step.1.at i with
  | none => rfl
  | some act => rfl

/-! ## The two sources -/

/-- **A relay is the source of truth.** From a `connect` to the next
change-over, in every run of the page, the state shown is what the frames
of this client's socket make of the state at the `connect`; players' acts,
sends and earlier clients have no part in it. While its digests resolve
in order, these frames are handed on in the order they arrive, and with
none awaited the state shown is the last table state that arrived. -/
theorem relay_is_source {before after : List (PageAct × Page)} {url : String}
    {refused : Option String} (hrun : Path (PageStep b) openPage
      (before ++ (.connect url refused, p₀) :: after) p)
    (hquiet : ∀ step ∈ after, step.1.switches = false) :
    ∃ i c, p₀.relay = some i ∧ p.relay = some i ∧ p.clients[i]? = some c ∧
      p.table.state = RelayClient.stateAfter b.json (lastState openPage before).table.state
        c.delivered ∧
      ((∀ step ∈ stepsOf p₀ after, step.2.1.InOrder i step.1) →
        c.delivered <+: framesAt i after ∧
        (c.digesting = [] → c.delivered = framesAt i after ∧
          ∀ first f rest state, framesAt i after = first ++ f :: rest → f.type = msgTableState →
            (∀ g ∈ rest, g.type ≠ msgTableState) → b.json.state f.payload = .ok state →
            p.table.state = state)) := by
  obtain ⟨q, hbefore, hrest⟩ := hrun.append_inv
  obtain ⟨hconnect, hafter⟩ := hrest.cons_inv
  have hq : lastState openPage before = q := hbefore.lastState_eq
  have hwired : q.Wired := hbefore.invariant wired_openPage wired_step
  have hwired₀ : p₀.Wired := wired_step hwired hconnect
  obtain rfl := hconnect
  obtain ⟨alone, v, c, h⟩ := attached hafter hwired₀ rfl
    (by simp only [connect]; rw [← length_letGo q, List.getElem?_concat_length]) rfl rfl hquiet
  have hdelivered : c.delivered = v.delivered := by
    rw [Client.delivered, h.emitted, RelayClient.delivered]
  have hstate : p.table.state = RelayClient.stateAfter b.json q.table.state c.delivered := by
    rw [h.state, RelayClient.state_eq h.run, hdelivered]
    rfl
  refine ⟨_, c, rfl, h.relay, h.client, by rw [hq]; exact hstate, ?_⟩
  intro hall
  have haccount := RelayClient.account h.run (h.order hall)
  rw [h.received, ← hdelivered] at haccount
  refine ⟨⟨_, haccount⟩, ?_⟩
  intro hidle
  have hwaiting : v.waiting = [] := by
    rw [RelayClient.waiting, ← h.digesting, hidle]
    rfl
  rw [hwaiting, List.append_nil] at haccount
  refine ⟨haccount, ?_⟩
  intro first f rest state hframes htype hlast hparse
  rw [hstate, haccount, hframes]
  exact RelayClient.stateAfter_last htype hlast hparse

/-- A browser whose relay sends one-digit texts for open tables. -/
def sampleBrowser : Browser where
  json := {
    state := fun payload =>
      if payload = [0x31] then .ok { startState with stateClass := .s1SeatOpen }
      else .error "Unexpected token"
    reply := fun _ => .error "Unexpected token" }
  stringify _ := []
  nullSocket := "Cannot read properties of null (reading 'send')"

/-- A seat taken on the page itself, a relay, its table state, and an act
sent to it meanwhile: the table state is shown. -/
theorem relay_is_source_sample : ∃ before after p₀ p,
    Path (PageStep sampleBrowser) openPage
      (before ++ (.connect "ws://localhost:8081/ws" none, p₀) :: after) p ∧
    before.map Prod.fst = [.player (.seatJoin 0)] ∧
    after.map Prod.fst = [.socket 0 .opened,
      .socket 0 (.message (.binary (RelayClient.sent (RelayClient.digitState 0x31)))),
      .player .tableLock, .socket 0 (.digested 0)] ∧
    p.table.state = { startState with stateClass := .s1SeatOpen } := by
  have hrun := (Path.start : Path (PageStep sampleBrowser) openPage _ _)
    |>.next (.player (.seatJoin 0)) rfl
    |>.next (.connect "ws://localhost:8081/ws" none) rfl
    |>.next (.socket 0 .opened) ⟨_, _, rfl, rfl, rfl⟩
    |>.next (.socket 0 (.message (.binary (RelayClient.sent (RelayClient.digitState 0x31)))))
      ⟨_, _, rfl, RelayClient.step_sent (RelayClient.digitState_small _) _, rfl⟩
    |>.next (.player .tableLock) rfl
    |>.next (.socket 0 (.digested 0)) ⟨_, _, rfl, RelayClient.step_awaiting rfl, rfl⟩
  refine ⟨[_], [_, _, _, _], _, _, hrun, rfl, rfl, ?_⟩
  obtain ⟨i, c, hi, -, hc, -, hsource⟩ :=
    @relay_is_source _ _ _ [_] [_, _, _, _] _ _ hrun (by simp [PageAct.switches])
  obtain rfl : 0 = i := Option.some.inj hi
  obtain rfl := Option.some.inj hc
  obtain ⟨-, hall⟩ := hsource (by
    intro step hstep
    simp only [stepsOf, List.mem_cons, List.not_mem_nil, or_false] at hstep
    rcases hstep with rfl | rfl | rfl | rfl
    · rintro _ c ⟨⟩ -
      trivial
    · rintro _ c ⟨⟩ -
      trivial
    · rintro _ c ⟨⟩
    · rintro _ c ⟨⟩ - d - - o ho
      cases ho)
  obtain ⟨-, hlast⟩ := hall rfl
  refine hlast [] (RelayClient.digitState 0x31) [] _ ?_ rfl (by intro _ hg; cases hg) rfl
  simp [framesAt, PageAct.at, SocketAct.message?,
    RelayClient.sent_frame (RelayClient.digitState_small _)]

/-! ## The page's own engine -/

variable {r : Page}

theorem SameGame.parts (h : SameGame p r) : p.table.state = r.table.state ∧ p.height = r.height ∧
    p.settlement = r.settlement ∧ p.nonceCounter = r.nonceCounter := by
  have hown := h.own
  simpa only [Page.own, Prod.mk.injEq] using hown

theorem SameGame.apply (h : SameGame p r) (hp : p.relay = none) (hr : r.relay = none)
    (a : SignedAction) (computeSettle : Bool) :
    SameGame (p.apply b a computeSettle) (r.apply b a computeSettle) := by
  obtain ⟨hstate, hheight, hshown, hcounter⟩ := h.parts
  simp only [Page.apply, hp, hr, ← hstate, ← hheight, ← h.rules]
  cases applyAction p.table.state a p.ruleSet p.height with
  | halt k => exact h
  | err e => exact ⟨h.own, h.rules⟩
  | ok next =>
      dsimp only
      split
      · cases computeSettlement p.table.state p.ruleSet with
        | halt k => exact h
        | err e => exact ⟨by simp [Page.own, hheight, hshown, hcounter], rfl⟩
        | ok shown => exact ⟨by simp [Page.own, hheight, hcounter], rfl⟩
      · exact ⟨by simp [Page.own, hheight, hshown, hcounter], rfl⟩

theorem SameGame.play (h : SameGame p r) (hp : p.relay = none) (hr : r.relay = none)
    (act : PlayerAct) : SameGame (p.play b act) (r.play b act) := by
  obtain ⟨hstate, hheight, hshown, hcounter⟩ := h.parts
  have hraised : SameGame p.raise r.raise :=
    ⟨by simp [Page.own, raise, hstate, hheight, hshown, hcounter], h.rules⟩
  have hbuilt : p.raise.built act = r.raise.built act := by
    simp only [built, raise, hcounter]
    congr 1
    funext nonce
    cases act with
    | _ => simp only [action, base, bettor, hstate, h.rules]
  simp only [Page.play, hbuilt]
  cases r.raise.built act with
  | ok a => exact hraised.apply hp hr a act.settles
  | err e => exact hraised
  | halt k => exact hraised

theorem SameGame.setHeight (h : SameGame p r) (height : Int) :
    SameGame (p.setHeight height) (r.setHeight height) := by
  obtain ⟨hstate, -, hshown, hcounter⟩ := h.parts
  simp only [Page.setHeight]
  split
  · exact ⟨by simp [Page.own, hstate, hshown, hcounter], h.rules⟩
  · exact h

theorem SameGame.ownStep (h : SameGame p r) (hp : p.relay = none) (hr : r.relay = none)
    (act : PageAct) : SameGame (p.ownStep b act) (r.ownStep b act) := by
  cases act with
  | player act => exact h.play hp hr act
  | setHeight height => exact h.setHeight height
  | _ => exact h

theorem ownStep_relay (act : PageAct) : (p.ownStep b act).relay = p.relay := by
  cases act with
  | player act => exact (advances_play act).2.2.relay
  | setHeight height => exact (setHeight_quiet height).2.2.2.relay
  | _ => rfl

/-- The page's own game: the acts of its players, and nothing else. -/
def ownGame (b : Browser) (p₀ : Page) (hist : List (PageAct × Page)) : Page :=
  (hist.map Prod.fst).foldl (ownStep b) p₀

theorem ownGame_relay (hist : List (PageAct × Page)) : (ownGame b p₀ hist).relay = p₀.relay := by
  induction hist using List.reverseRecOn with
  | nil => rfl
  | append_singleton hist step ih =>
      rw [ownGame, List.map_append, List.foldl_append]
      exact (ownStep_relay step.1).trans ih

/-- The settlement shown after some moves. -/
def settlementAfter (shown : Option SettlementResult) (state : RoundState)
    (moves : List ((SignedAction × SafeNat) × RoundState)) : Option SettlementResult :=
  (stepsOf state moves).foldl (fun shown step => shownAfter defaultRuleSet step.1 step.2.1.1 shown)
    shown

/-- A page without a relay plays its own game, by moves of the engine. -/
theorem detached (hrun : Path (PageStep b) p₀ hist p) (hwired : p₀.Wired) (halone : p₀.relay = none)
    (hquiet : ∀ step ∈ hist, step.1.switches = false) :
    p.relay = none ∧ SameGame p (ownGame b p₀ hist) ∧
      ∃ moves, Run defaultRuleSet p₀.table.state moves p.table.state ∧
        p.settlement = settlementAfter p₀.settlement p₀.table.state moves := by
  induction hrun with
  | start => exact ⟨halone, .refl _, [], .start, rfl⟩
  | @snoc hist p p' act hp hs ih =>
      rw [List.forall_mem_append] at hquiet
      obtain ⟨hrelay, hgame, moves, hmoves, hshown⟩ := ih hquiet.1
      have hwired' : p.Wired := hp.invariant hwired wired_step
      obtain ⟨hsame, hcases⟩ := quiet_cases hs (hquiet.2 _ List.mem_cons_self)
      have hfold : ownGame b p₀ (hist ++ [(act, p')]) = (ownGame b p₀ hist).ownStep b act := by
        rw [ownGame, List.map_append, List.foldl_append]
        rfl
      have hnext : SameGame p' (p.ownStep b act) := by
        rcases hcases with ⟨j, sact, rfl, hhears⟩ | ⟨-, -, -, hnext⟩
        · obtain ⟨d, w, d', hd, -, -, -, -, -, htable⟩ := hhears.step
          have hdeaf : d.listening = false := by
            rw [← Bool.not_eq_true, hwired'.listening j d hd, hrelay]
            nofun
          rw [hdeaf, if_neg (by simp)] at htable
          exact ⟨by simp [own, ownStep, htable, hhears.height, hhears.settlement, hhears.nonces],
            hsame.rules⟩
        · exact hnext
      have hstep := hgame.ownStep (b := b) hrelay ((ownGame_relay hist).trans halone) act
      refine ⟨hsame.relay.trans hrelay, ?_, ?_⟩
      · rw [hfold]
        exact ⟨hnext.own.trans hstep.own, hnext.rules.trans hstep.rules⟩
      · rcases hcases with ⟨j, sact, rfl, -⟩ | ⟨-, -, hadvances, -⟩
        · obtain ⟨hstate, -, hsettlement, -⟩ := hnext.parts
          rw [hstate, hsettlement]
          exact ⟨moves, hmoves, hshown⟩
        · rcases hadvances with ⟨hstate, hsettlement⟩ | ⟨a, hmove⟩
          · rw [hstate, hsettlement]
            exact ⟨moves, hmoves, hshown⟩
          · have hmoved := hmove.step
            rw [hwired'.rules] at hmoved
            refine ⟨_, hmoves.snoc hmoved, ?_⟩
            rw [hmove.settlement, hwired'.rules, hshown, settlementAfter, settlementAfter,
              hmoves.stepsOf_snoc, List.foldl_append]
            rfl

/-- **The engine is the source of truth.** From a page without a relay to
the next change-over, in every run, the state, the height, the settlement
and the nonce counter are those of a page on which only the players act:
no client the page has let go of and no send under way has a part in
them. The state moves by accepted actions of the engine, and the
settlement shown is the preview of the last of them that settled. -/
theorem engine_is_source {before after : List (PageAct × Page)}
    (hrun : Path (PageStep b) openPage (before ++ after) p)
    (halone : (lastState openPage before).relay = none)
    (hquiet : ∀ step ∈ after, step.1.switches = false) :
    p.own = (ownGame b (lastState openPage before) after).own ∧
      ∃ moves, Run defaultRuleSet (lastState openPage before).table.state moves p.table.state ∧
        p.settlement = settlementAfter (lastState openPage before).settlement
          (lastState openPage before).table.state moves := by
  obtain ⟨q, hbefore, hafter⟩ := hrun.append_inv
  rw [hbefore.lastState_eq] at halone ⊢
  have hwired : q.Wired := hbefore.invariant wired_openPage wired_step
  obtain ⟨-, hgame, hmoves⟩ := detached hafter hwired halone hquiet
  exact ⟨hgame.own, hmoves⟩

/-- After a relay that came to nothing, the seats are taken on the page,
whatever the socket says late. -/
theorem engine_is_source_sample : ∃ before after p,
    Path (PageStep sampleBrowser) openPage (before ++ after) p ∧
    before.map Prod.fst = [.connect "ws://localhost:8081/ws" none, .disconnect] ∧
    after.map Prod.fst = [.player (.seatJoin 0), .socket 0 .failed, .player (.seatJoin 1)] ∧
    p.table.state.players.map (·.seat) = [0, 1] ∧
    ∃ moves, Run defaultRuleSet startState moves p.table.state := by
  have hrun := (Path.start : Path (PageStep sampleBrowser) openPage _ _)
    |>.next (.connect "ws://localhost:8081/ws" none) rfl
    |>.next .disconnect rfl
    |>.next (.player (.seatJoin 0)) rfl
    |>.next (.socket 0 .failed) ⟨_, _, rfl, rfl, rfl⟩
    |>.next (.player (.seatJoin 1)) rfl
  obtain ⟨-, moves, hmoves, -⟩ :=
    @engine_is_source _ _ [_, _] [_, _, _] hrun rfl (by simp [PageAct.switches])
  refine ⟨[_, _], [_, _, _], _, hrun, rfl, rfl, ?_, moves, hmoves⟩
  decide +kernel

end Page

end CardTable.Ts
