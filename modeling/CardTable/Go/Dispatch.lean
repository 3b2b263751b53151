import CardTable.Go.Delivery
import CardTable.Go.Session

/-!
# Go.Dispatch — many clients on one table

`dispatch` of `internal/relay/server.go` and of
`internal/wsadapter/server.go`, which are the same router over the same
session and hub. Each connection has a handler that takes one frame at a
time. An action is submitted in one step, under the session's lock; what
the handler then sends (the ack, the action to the peers, the new state
to everyone) are steps of their own, each under the hub's lock. Between
them any other handler may run.

Frames are kept by their contents: no property here depends on the JSON
they are carried in.
-/

namespace CardTable.Go

open Basis

/-- The code of an error reply: an engine code, or that the type of the
message is unknown. -/
inductive ReplyCode where
  | engine (code : ErrorCode)
  | unsupportedVersion
  deriving DecidableEq

/-- A frame the relay sends. -/
inductive Outbound where
  | pong (payload : List UInt8)
  | actionAccepted (action : SignedAction)
  | peerAction (action : SignedAction)
  | tableState (state : RoundState)
  | transcriptResponse (entries : List SignedAction)
  | errorReply (code : ReplyCode) (context : String)
  deriving DecidableEq

/-- A frame a client sends. The payload of an action is what
`json.Unmarshal` made of it. -/
inductive Inbound where
  | ping (payload : List UInt8)
  | action (parsed : Except String SignedAction)
  | transcriptRequest
  | other (type : UInt16)

/-- A call on the hub that a handler is about to make. -/
inductive Sending where
  | sendTo (receiver : UInt64) (f : Outbound)
  | publish (sender : UInt64) (f : Outbound)
  | publishAll (f : Outbound)

def Sending.frame : Sending → Outbound
  | .sendTo _ f | .publish _ f | .publishAll f => f

/-- `replyError`. -/
def replyError (receiver : UInt64) (code : ReplyCode) (context : String) : Sending :=
  .sendTo receiver (.errorReply code context)

/-- The number of an unknown type, as `%#x` prints it. -/
def hexLiteral (n : UInt16) : String := "0x" ++ String.ofList (Nat.toDigits 16 n.toNat)

/-- `dispatch` up to its last use of the session: the session it leaves
and what it goes on to send; `none` when `Submit` does not return. -/
def dispatch (s : Session) (sender : UInt64) (f : Inbound) (height : UInt32) :
    Option (Session × List Sending) :=
  match f with
  | .ping payload => some (s, [.sendTo sender (.pong payload)])
  | .action (.error msg) => some (s, [replyError sender (.engine .serialisationError) msg])
  | .action (.ok action) =>
      match s.submit action height with
      | .halt _ => none
      | .err perr => some (s, [replyError sender (.engine perr.code) perr.context])
      | .ok next => some (next,
          [ -- ack to the sender
            .sendTo sender (.actionAccepted action),
            -- fan out to the peers
            .publish sender (.peerAction action),
            -- broadcast the new state to everyone
            .publishAll (.tableState next.state) ])
  | .transcriptRequest => some (s, [.sendTo sender (.transcriptResponse s.transcript)])
  | .other type =>
      let code := hexLiteral type
      some (s, [replyError sender .unsupportedVersion s!"unsupported type {code}"])

/-! ## The relay -/

/-- A connection: the id and the channel `Subscribe` gave its handler. -/
abbrev Connection := UInt64 × Nat

/-- A relay: the session, the hub, the handlers that run and what each
has still to send. -/
structure Relay where
  session : Session
  hub : Hub Outbound
  running : List Connection
  todo : Connection → List Sending

/-- A step of the relay. -/
inductive RelayAct where
  | connect (conn : Connection)
  | dispatch (conn : Connection) (f : Inbound) (height : UInt32)
  | send (conn : Connection) (call : HubCall Outbound)
  | receive (ch : Nat) (got : Option Outbound)
  | disconnect (conn : Connection)

/-- The hub is called as the handler was about to. -/
def Sending.Becomes : Sending → HubCall Outbound → Prop
  | .sendTo receiver f, .sendTo receiver' f' _ => receiver' = receiver ∧ f' = f
  | .publish sender f, .publish sender' f' _ _ => sender' = sender ∧ f' = f
  | .publishAll f, .publishAll f' _ _ => f' = f
  | _, _ => False

namespace Relay

/-- A new relay. -/
def new (session : Session) (queueDepth : Int) : Relay where
  session := session
  hub := .new Outbound queueDepth
  running := []
  todo := fun _ => []

/-- One step of any of the handlers or consumers. -/
def Step (r : Relay) : RelayAct → Relay → Prop
  | .connect conn, r' => ∃ hub, r.hub.Step (.subscribe conn.1 conn.2) hub ∧
      r' = { r with hub := hub, running := conn :: r.running }
  -- the handler takes the next frame once it is done with the last one
  | .dispatch conn f height, r' => conn ∈ r.running ∧ r.todo conn = [] ∧
      ∃ session sends, Go.dispatch r.session conn.1 f height = some (session, sends) ∧
        r' = { r with session := session, todo := Function.update r.todo conn sends }
  | .send conn call, r' => ∃ next rest hub, r.todo conn = next :: rest ∧ next.Becomes call ∧
      r.hub.Step call hub ∧ r' = { r with hub := hub, todo := Function.update r.todo conn rest }
  | .receive ch got, r' => ∃ hub, r.hub.Step (.receive ch got) hub ∧ r' = { r with hub := hub }
  | .disconnect conn, r' => conn ∈ r.running ∧ r.todo conn = [] ∧
      ∃ hub, r.hub.Step (.unsubscribe conn.1) hub ∧
        r' = { r with hub := hub, running := r.running.filter (· ≠ conn) }

/-- The runs of a new relay. -/
abbrev Run (session : Session) (queueDepth : Int) : List (RelayAct × Relay) → Relay → Prop :=
  Path Step (new session queueDepth)

end Relay

/-! ## The hub's part of a run -/

/-- The call a step makes on the hub, if it makes one. -/
def RelayAct.hubCall : RelayAct → Option (HubCall Outbound)
  | .connect conn => some (.subscribe conn.1 conn.2)
  | .dispatch .. => none
  | .send _ call => some call
  | .receive ch got => some (.receive ch got)
  | .disconnect conn => some (.unsubscribe conn.1)

/-- The run of the hub inside a run of the relay. -/
def hubHistory (hist : List (RelayAct × Relay)) : List (HubCall Outbound × Hub Outbound) :=
  hist.filterMap fun step => step.1.hubCall.map (·, step.2.hub)

namespace Relay

/-- What the hub does within a relay is a run of the hub. -/
theorem hub_run {session : Session} {queueDepth : Int} {hist : List (RelayAct × Relay)} {r : Relay}
    (hrun : Run session queueDepth hist r) :
    Hub.Run Outbound queueDepth (hubHistory hist) r.hub := by
  induction hrun with
  | start => exact .start
  | @snoc hist r r' act hp hs ih =>
      rw [hubHistory, filterMap_snoc, ← hubHistory]
      cases act with
      | connect conn =>
          obtain ⟨hub, hstep, rfl⟩ := hs
          exact .snoc ih hstep
      | dispatch conn f height =>
          obtain ⟨-, -, _, _, -, rfl⟩ := hs
          simpa [RelayAct.hubCall] using ih
      | send conn call =>
          obtain ⟨_, _, hub, -, -, hstep, rfl⟩ := hs
          exact .snoc ih hstep
      | receive ch got =>
          obtain ⟨hub, hstep, rfl⟩ := hs
          exact .snoc ih hstep
      | disconnect conn =>
          obtain ⟨-, -, hub, hstep, rfl⟩ := hs
          exact .snoc ih hstep

end Relay

/-! ## Who owes a state -/

/-- The state a frame shows. -/
def tableStateOf : Outbound → Option RoundState
  | .tableState state => some state
  | _ => none

/-- The states of a list of sends. -/
def statesOf (sends : List Sending) : List RoundState :=
  sends.filterMap fun s => tableStateOf s.frame

/-- The state an accepted action led to. -/
def acceptedBy (step : Relay × RelayAct × Relay) : Option RoundState :=
  match step.2.1 with
  | .dispatch _ (.action (.ok action)) height =>
      (step.1.session.submit action height).value?.map (·.state)
  | _ => none

/-- The table state a step broadcasts. -/
def broadcastBy (act : RelayAct) : Option RoundState :=
  (act.hubCall.bind Hub.published).bind tableStateOf

/-- The states the session went through, in the order of acceptance. -/
def accepted (r : Relay) (hist : List (RelayAct × Relay)) : List RoundState :=
  (stepsOf r hist).filterMap acceptedBy

/-- The states broadcast, in order. -/
def broadcasts (hist : List (RelayAct × Relay)) : List RoundState :=
  hist.filterMap fun step => broadcastBy step.1

/-- The handlers with an accepted action whose state is not broadcast
yet, oldest first, after one more step. -/
def awaitStep (waiting : List (Connection × RoundState)) (step : Relay × RelayAct × Relay) :
    List (Connection × RoundState) :=
  match step.2.1 with
  | .dispatch conn _ _ => waiting ++ (acceptedBy step).toList.map (conn, ·)
  | .send conn _ =>
      if (broadcastBy step.2.1).isSome then waiting.eraseP (·.1 = conn) else waiting
  | _ => waiting

def awaiting (r : Relay) (hist : List (RelayAct × Relay)) : List (Connection × RoundState) :=
  (stepsOf r hist).foldl awaitStep []

/-- The step broadcasts no state, or the one accepted first of those
still to be broadcast. -/
def InTurn (waiting : List (Connection × RoundState)) (act : RelayAct) : Prop :=
  ∀ conn call, act = .send conn call → (broadcastBy act).isSome →
    waiting.head?.map Prod.fst = some conn

/-- Every step of the run is in turn. -/
def AllInTurn (r : Relay) (hist : List (RelayAct × Relay)) : Prop :=
  ∀ pre step, pre ++ [step] <+: hist → InTurn (awaiting r pre) step.1

theorem allInTurn_nil (r : Relay) : AllInTurn r [] := by
  intro pre step h
  have hlength := h.length_le
  simp at hlength

theorem allInTurn_snoc {r : Relay} {hist : List (RelayAct × Relay)} {step : RelayAct × Relay} :
    AllInTurn r (hist ++ [step]) ↔ AllInTurn r hist ∧ InTurn (awaiting r hist) step.1 := by
  constructor
  · intro h
    exact ⟨fun pre s hpre => h pre s (hpre.trans (List.prefix_append _ _)),
      h hist step List.prefix_rfl⟩
  · intro h pre s hpre
    obtain ⟨hall, hlast⟩ := h
    rcases List.prefix_concat_iff.mp hpre with heq | hle
    · obtain ⟨rfl, hs⟩ := List.append_inj' heq rfl
      rw [List.singleton_inj.mp hs]
      exact hlast
    · exact hall pre s hle

/-- Only a broadcast can be out of turn. -/
theorem inTurn_of_quiet {waiting : List (Connection × RoundState)} {act : RelayAct}
    (h : broadcastBy act = none) : InTurn waiting act := by
  intro conn call _ hsome
  rw [h] at hsome
  cases hsome

/-- What a dispatch leaves to send shows the state of its action, if it
was accepted. -/
theorem statesOf_dispatch {r : Relay} (r' : Relay) {conn : Connection} {f : Inbound} {height : UInt32}
    {session : Session} {sends : List Sending}
    (h : dispatch r.session conn.1 f height = some (session, sends)) :
    statesOf sends = (acceptedBy (r, .dispatch conn f height, r')).toList := by
  cases f with
  | ping payload | transcriptRequest | other type =>
      simp only [dispatch, Option.some.injEq, Prod.mk.injEq] at h
      rw [← h.2]
      rfl
  | action parsed =>
      cases parsed with
      | error msg =>
          simp only [dispatch, Option.some.injEq, Prod.mk.injEq] at h
          rw [← h.2]
          rfl
      | ok action =>
          simp only [dispatch] at h
          simp only [acceptedBy]
          cases hsubmit : r.session.submit action height with
          | halt k =>
              rw [hsubmit] at h
              cases h
          | err perr =>
              rw [hsubmit] at h
              simp only [Option.some.injEq, Prod.mk.injEq] at h
              rw [← h.2]
              rfl
          | ok next =>
              rw [hsubmit] at h
              simp only [Option.some.injEq, Prod.mk.injEq] at h
              rw [← h.2]
              rfl

theorem broadcastBy_send {next : Sending} {call : HubCall Outbound} (h : next.Becomes call)
    (conn : Connection) : broadcastBy (.send conn call) = tableStateOf next.frame := by
  cases next with
  | sendTo receiver f =>
      cases call with
      | sendTo receiver' f' ok =>
          obtain ⟨-, rfl⟩ := h
          rfl
      | _ => cases h
  | publish sender f =>
      cases call with
      | publish sender' f' delivered dropped =>
          obtain ⟨-, rfl⟩ := h
          rfl
      | _ => cases h
  | publishAll f =>
      cases call with
      | publishAll f' delivered dropped =>
          obtain rfl := h
          rfl
      | _ => cases h

/-- What is accepted is broadcast or owed by its handler. -/
structure Owed (r₀ : Relay) (hist : List (RelayAct × Relay)) (r : Relay) : Prop where
  order : accepted r₀ hist = broadcasts hist ++ (awaiting r₀ hist).map Prod.snd
  owes : ∀ conn, statesOf (r.todo conn) =
    ((awaiting r₀ hist).filter (·.1 = conn)).map Prod.snd

theorem broadcasts_snoc (hist : List (RelayAct × Relay)) (act : RelayAct) (r : Relay) :
    broadcasts (hist ++ [(act, r)]) = broadcasts hist ++ (broadcastBy act).toList :=
  filterMap_snoc ..

section Snoc

variable {session : Session} {queueDepth : Int} {hist : List (RelayAct × Relay)} {r r' : Relay}
  {act : RelayAct}

theorem accepted_snoc (hrun : Relay.Run session queueDepth hist r) :
    accepted (.new session queueDepth) (hist ++ [(act, r')]) =
      accepted (.new session queueDepth) hist ++ (acceptedBy (r, act, r')).toList := by
  rw [accepted, hrun.stepsOf_snoc, filterMap_snoc, ← accepted]

theorem awaiting_snoc (hrun : Relay.Run session queueDepth hist r) :
    awaiting (.new session queueDepth) (hist ++ [(act, r')]) =
      awaitStep (awaiting (.new session queueDepth) hist) (r, act, r') := by
  rw [awaiting, hrun.stepsOf_snoc, List.foldl_append]
  rfl

/-- A step that neither accepts nor broadcasts changes no account. -/
theorem Owed.quiet (hrun : Relay.Run session queueDepth hist r)
    (h : Owed (.new session queueDepth) hist r) (ha : acceptedBy (r, act, r') = none)
    (hb : broadcastBy act = none)
    (hw : ∀ waiting, awaitStep waiting (r, act, r') = waiting)
    (htodo : ∀ conn, statesOf (r'.todo conn) = statesOf (r.todo conn)) :
    Owed (.new session queueDepth) (hist ++ [(act, r')]) r' := by
  constructor
  · rw [accepted_snoc hrun, broadcasts_snoc, awaiting_snoc hrun, ha, hb, hw]
    simpa using h.order
  · intro conn
    rw [awaiting_snoc hrun, hw, htodo]
    exact h.owes conn

/-- **One step in turn keeps the account.** -/
theorem Owed.step (hrun : Relay.Run session queueDepth hist r)
    (h : Owed (.new session queueDepth) hist r)
    (hturn : InTurn (awaiting (.new session queueDepth) hist) act) (hs : r.Step act r') :
    Owed (.new session queueDepth) (hist ++ [(act, r')]) r' := by
  cases act with
  | connect conn =>
      obtain ⟨hub, -, rfl⟩ := hs
      exact h.quiet hrun rfl rfl (fun _ => rfl) (fun _ => rfl)
  | receive ch got =>
      obtain ⟨hub, -, rfl⟩ := hs
      exact h.quiet hrun rfl rfl (fun _ => rfl) (fun _ => rfl)
  | disconnect conn =>
      obtain ⟨-, -, hub, -, rfl⟩ := hs
      exact h.quiet hrun rfl rfl (fun _ => rfl) (fun _ => rfl)
  | dispatch conn f height =>
      obtain ⟨-, hidle, session', sends, hdispatch, rfl⟩ := hs
      have hsends := statesOf_dispatch { r with
        session := session', todo := Function.update r.todo conn sends } hdispatch
      constructor
      · rw [accepted_snoc hrun, broadcasts_snoc, awaiting_snoc hrun, h.order]
        simp [awaitStep, broadcastBy, RelayAct.hubCall, Function.comp_def]
      · intro other
        rw [awaiting_snoc hrun]
        simp only [awaitStep, List.filter_append, List.map_append, ← h.owes other]
        by_cases heq : other = conn
        · subst heq
          rw [Function.update_self, hidle, hsends]
          simp [statesOf, List.filter_map, Function.comp_def]
        · have hne : conn ≠ other := fun h => heq h.symm
          rw [Function.update_of_ne heq]
          simp [List.filter_map, Function.comp_def, hne]
  | send conn call =>
      obtain ⟨next, rest, hub, htodo, hbecomes, -, rfl⟩ := hs
      have hb := broadcastBy_send hbecomes conn
      cases hstate : tableStateOf next.frame with
      | none =>
          rw [hstate] at hb
          refine h.quiet hrun rfl hb (fun _ => by simp [awaitStep, hb]) ?_
          intro other
          show statesOf (Function.update r.todo conn rest other) = _
          by_cases heq : other = conn
          · subst heq
            rw [Function.update_self, htodo]
            simp [statesOf, hstate]
          · rw [Function.update_of_ne heq]
      | some state =>
          rw [hstate] at hb
          have howes := h.owes conn
          rw [htodo] at howes
          -- in turn: the sender's state is the first one owed
          have hhead := hturn conn call rfl (by rw [hb]; rfl)
          cases hwaiting : awaiting (.new session queueDepth) hist with
          | nil =>
              rw [hwaiting] at hhead
              cases hhead
          | cons first others =>
              obtain ⟨conn', state'⟩ := first
              rw [hwaiting] at hhead howes
              obtain rfl := Option.some.inj hhead
              simp only [statesOf, List.filterMap_cons, hstate] at howes
              simp only [decide_true, List.filter_cons_of_pos, List.map_cons,
                List.cons.injEq] at howes
              obtain ⟨rfl, hrest⟩ := howes
              have hnow : awaitStep ((conn', state) :: others) (r, .send conn' call, { r with
                  hub := hub, todo := Function.update r.todo conn' rest }) = others := by
                simp [awaitStep, hb]
              constructor
              · rw [accepted_snoc hrun, broadcasts_snoc, awaiting_snoc hrun, hwaiting, hnow,
                  h.order, hwaiting, hb]
                simp [acceptedBy]
              · intro other
                rw [awaiting_snoc hrun, hwaiting, hnow]
                show statesOf (Function.update r.todo conn' rest other) = _
                by_cases heq : other = conn'
                · subst heq
                  rw [Function.update_self]
                  exact hrest
                · have hne : conn' ≠ other := fun h => heq h.symm
                  rw [Function.update_of_ne heq, h.owes other, hwaiting,
                    List.filter_cons_of_neg (by simpa using hne)]

end Snoc

/-! ## The order of the states -/

theorem owed_of_run {session : Session} {queueDepth : Int} {hist : List (RelayAct × Relay)}
    {r : Relay} (hrun : Relay.Run session queueDepth hist r)
    (hturn : AllInTurn (.new session queueDepth) hist) :
    Owed (.new session queueDepth) hist r := by
  induction hrun with
  | start => exact ⟨rfl, fun _ => rfl⟩
  | snoc hp hs ih =>
      obtain ⟨hbefore, hlast⟩ := allInTurn_snoc.mp hturn
      exact (ih hbefore).step hp hlast hs

/-- The frames of the hub's part of a run that show a state are the
broadcasts. -/
theorem published_states (hist : List (RelayAct × Relay)) :
    ((hubHistory hist).filterMap fun step => Hub.published step.1).filterMap tableStateOf =
      broadcasts hist := by
  rw [hubHistory, List.filterMap_filterMap, List.filterMap_filterMap]
  refine List.filterMap_congr ?_
  intro step _
  obtain ⟨act, r⟩ := step
  show _ = broadcastBy act
  cases hcall : act.hubCall with
  | none => simp [broadcastBy, hcall]
  | some call => simp [broadcastBy, hcall]

/-- **States in session order.** When every state is broadcast in turn,
the states a client is shown, on whatever channel and from whatever point
on, come in the order in which the session accepted the actions. -/
theorem states_in_order {session : Session} {queueDepth : Int} {hist : List (RelayAct × Relay)}
    {r : Relay} (hrun : Relay.Run session queueDepth hist r)
    (hturn : AllInTurn (.new session queueDepth) hist) (ch : Nat) :
    ((Hub.received ch (hubHistory hist)).filterMap tableStateOf).Sublist
      (accepted (.new session queueDepth) hist) := by
  have hshown := (Hub.received_sublist (Relay.hub_run hrun) ch).filterMap tableStateOf
  rw [published_states] at hshown
  refine hshown.trans ?_
  rw [(owed_of_run hrun hturn).order]
  exact List.sublist_append_left _ _

theorem Owed.awaiting_eq_nil {r₀ r : Relay} {hist : List (RelayAct × Relay)}
    (h : Owed r₀ hist r) (hnone : ∀ conn, statesOf (r.todo conn) = []) :
    awaiting r₀ hist = [] := by
  cases hwaiting : awaiting r₀ hist with
  | nil => rfl
  | cons first others =>
      have howes := h.owes first.1
      rw [hnone, hwaiting, List.filter_cons_of_pos (by simp)] at howes
      cases howes

/-- A lone debt is in turn. -/
theorem Owed.inTurn {r₀ r r' : Relay} {hist : List (RelayAct × Relay)} {act : RelayAct}
    (h : Owed r₀ hist r) (hone : (awaiting r₀ hist).length ≤ 1) (hs : r.Step act r') :
    InTurn (awaiting r₀ hist) act := by
  intro conn call hact hsome
  subst hact
  obtain ⟨next, rest, hub, htodo, hbecomes, -, rfl⟩ := hs
  rw [broadcastBy_send hbecomes conn] at hsome
  obtain ⟨state, hstate⟩ := Option.isSome_iff_exists.mp hsome
  have howes := h.owes conn
  rw [htodo] at howes
  simp only [statesOf, List.filterMap_cons, hstate] at howes
  cases hwaiting : awaiting r₀ hist with
  | nil =>
      rw [hwaiting] at howes
      cases howes
  | cons first others =>
      rw [hwaiting] at howes hone
      obtain rfl : others = [] := by
        rw [List.length_cons] at hone
        exact List.length_eq_zero_iff.mp (by omega)
      by_cases hconn : first.1 = conn
      · rw [List.head?_cons, Option.map_some, hconn]
      · rw [List.filter_cons_of_neg (by simpa using hconn)] at howes
        cases howes

/-- **One at a time.** If no action is accepted while a handler still
owes a state, every state is broadcast in turn. -/
theorem allInTurn_of_exclusive {session : Session} {queueDepth : Int}
    {hist : List (RelayAct × Relay)} {r : Relay} (hrun : Relay.Run session queueDepth hist r)
    (hexclusive : ∀ step ∈ stepsOf (.new session queueDepth) hist, (acceptedBy step).isSome →
      ∀ conn, statesOf (step.1.todo conn) = []) :
    AllInTurn (.new session queueDepth) hist := by
  have hboth : AllInTurn (.new session queueDepth) hist ∧
      Owed (.new session queueDepth) hist r ∧
      (awaiting (.new session queueDepth) hist).length ≤ 1 := by
    induction hrun with
    | start => exact ⟨allInTurn_nil _, ⟨rfl, fun _ => rfl⟩, Nat.zero_le 1⟩
    | @snoc hist r r' act hp hs ih =>
        rw [hp.stepsOf_snoc] at hexclusive
        obtain ⟨hturn, howed, hone⟩ :=
          ih fun step hstep => hexclusive step (List.mem_append_left _ hstep)
        have hlast := hexclusive (r, act, r') (by simp)
        have hnow := howed.inTurn hone hs
        refine ⟨allInTurn_snoc.mpr ⟨hturn, hnow⟩, howed.step hp hnow hs, ?_⟩
        rw [awaiting_snoc hp]
        cases act with
        | connect | receive | disconnect => exact hone
        | send conn call =>
            simp only [awaitStep]
            split
            · exact Nat.le_trans List.eraseP_sublist.length_le hone
            · exact hone
        | dispatch conn f height =>
            simp only [awaitStep]
            cases haccepted : acceptedBy (r, .dispatch conn f height, r') with
            | none => simpa using hone
            | some state =>
                -- accepted: nobody owes a state, and now this handler does
                rw [howed.awaiting_eq_nil (hlast (by rw [haccepted]; rfl))]
                exact Nat.le_refl 1
  exact hboth.1

/-! ## Two handlers between the locks -/

/-- A session before anyone is seated, and the first two seats taken. -/
def emptySession : Session := .new sampleGame defaultRuleSet "0" 244

def joinFirst : SignedAction :=
  { bareAction sampleGame .join (some 0) with
    actionNonce := "1", playerPubkey := "02" ++ hex64 'c', stakeAmount := 1000 }

def joinSecond : SignedAction :=
  { bareAction sampleGame .join (some 1) with
    actionNonce := "2", playerPubkey := "02" ++ hex64 'd', stakeAmount := 1000 }

def firstSession : Session := (emptySession.submit joinFirst 100).value?.getD emptySession

def secondSession : Session := (firstSession.submit joinSecond 100).value?.getD firstSession

/-- One client takes a seat and is shown the table. -/
theorem states_in_order_sample :
    ∃ hist r, Relay.Run emptySession 64 hist r ∧
      (Hub.received 0 (hubHistory hist)).filterMap tableStateOf = [firstSession.state] ∧
      ((Hub.received 0 (hubHistory hist)).filterMap tableStateOf).Sublist
        (accepted (.new emptySession 64) hist) := by
  have connected := (Path.start : Relay.Run emptySession 64 _ _).next (.connect (1, 0))
    ⟨_, rfl, rfl⟩
  have seated := connected.next (.dispatch (1, 0) (.action (.ok joinFirst)) 100)
    ⟨by decide, rfl, _, _, rfl, rfl⟩
  have acked := seated.next (.send (1, 0) (.sendTo 1 (.actionAccepted joinFirst) true))
    ⟨_, _, _, rfl, ⟨rfl, rfl⟩, rfl, rfl⟩
  have fanned := acked.next (.send (1, 0) (.publish 1 (.peerAction joinFirst) 0 0))
    ⟨_, _, _, rfl, ⟨rfl, rfl⟩, ⟨_, .refl _, rfl⟩, rfl⟩
  have shown :=
    fanned.next (.send (1, 0) (.publishAll (.tableState firstSession.state) 1 0))
      ⟨_, _, _, rfl, rfl, ⟨_, .refl _, rfl⟩, rfl⟩
  have ack := shown.next (.receive 0 (some (.actionAccepted joinFirst))) ⟨_, rfl, rfl⟩
  have state := ack.next (.receive 0 (some (.tableState firstSession.state))) ⟨_, rfl, rfl⟩
  have hshown : InTurn [((1, 0), firstSession.state)]
      (.send (1, 0) (.publishAll (.tableState firstSession.state) 1 0)) := by
    intro conn call h _
    cases h
    rfl
  refine ⟨_, _, state, rfl, states_in_order state ?_ 0⟩
  simp only [allInTurn_snoc]
  exact ⟨⟨⟨⟨⟨⟨⟨allInTurn_nil _, inTurn_of_quiet rfl⟩, inTurn_of_quiet rfl⟩, inTurn_of_quiet rfl⟩,
    inTurn_of_quiet rfl⟩, hshown⟩, inTurn_of_quiet rfl⟩, inTurn_of_quiet rfl⟩

/-- The second of two handlers broadcasts first: the client on channel 0
is shown the table with two seats taken, then the table with one. -/
theorem states_reordered :
    ∃ hist r, Relay.Run emptySession 64 hist r ∧
      accepted (.new emptySession 64) hist = [firstSession.state, secondSession.state] ∧
      (Hub.received 0 (hubHistory hist)).filterMap tableStateOf =
        [secondSession.state, firstSession.state] ∧
      ¬ ((Hub.received 0 (hubHistory hist)).filterMap tableStateOf).Sublist
        (accepted (.new emptySession 64) hist) := by
  have first := (Path.start : Relay.Run emptySession 64 _ _).next (.connect (1, 0))
    ⟨_, rfl, rfl⟩
  have second := first.next (.connect (2, 1)) ⟨_, rfl, rfl⟩
  have seated := second.next (.dispatch (1, 0) (.action (.ok joinFirst)) 100)
    ⟨by decide, rfl, _, _, rfl, rfl⟩
  -- the other handler runs between the first one's `Submit` and its sends
  have seated' := seated.next (.dispatch (2, 1) (.action (.ok joinSecond)) 100)
    ⟨by decide, rfl, _, _, rfl, rfl⟩
  have acked' := seated'.next (.send (2, 1) (.sendTo 2 (.actionAccepted joinSecond) true))
    ⟨_, _, _, rfl, ⟨rfl, rfl⟩, rfl, rfl⟩
  have fanned' := acked'.next (.send (2, 1) (.publish 2 (.peerAction joinSecond) 1 0))
    ⟨_, _, _, rfl, ⟨rfl, rfl⟩, ⟨_, .refl _, rfl⟩, rfl⟩
  have shown' :=
    fanned'.next (.send (2, 1) (.publishAll (.tableState secondSession.state) 2 0))
      ⟨_, _, _, rfl, rfl, ⟨_, .refl _, rfl⟩, rfl⟩
  have acked := shown'.next (.send (1, 0) (.sendTo 1 (.actionAccepted joinFirst) true))
    ⟨_, _, _, rfl, ⟨rfl, rfl⟩, rfl, rfl⟩
  have fanned := acked.next (.send (1, 0) (.publish 1 (.peerAction joinFirst) 1 0))
    ⟨_, _, _, rfl, ⟨rfl, rfl⟩, ⟨_, .refl _, rfl⟩, rfl⟩
  have shown :=
    fanned.next (.send (1, 0) (.publishAll (.tableState firstSession.state) 2 0))
      ⟨_, _, _, rfl, rfl, ⟨_, .refl _, rfl⟩, rfl⟩
  have peer := shown.next (.receive 0 (some (.peerAction joinSecond))) ⟨_, rfl, rfl⟩
  have newer := peer.next (.receive 0 (some (.tableState secondSession.state))) ⟨_, rfl, rfl⟩
  have ack := newer.next (.receive 0 (some (.actionAccepted joinFirst))) ⟨_, rfl, rfl⟩
  have older := ack.next (.receive 0 (some (.tableState firstSession.state))) ⟨_, rfl, rfl⟩
  refine ⟨_, _, older, rfl, rfl, ?_⟩
  show ¬ [secondSession.state, firstSession.state].Sublist
    [firstSession.state, secondSession.state]
  decide

end CardTable.Go
