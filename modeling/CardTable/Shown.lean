import Mathlib.Data.Set.List
import CardTable.Network

/-!
# Shown — what the pages show

A page on the relay shows states the session went through, and when
nothing is under way any more it shows the one the session is in. The
first holds of every run. The states come in their order, and none is
missing at the end, under the conditions that the parts of the way set:
handlers that broadcast in turn (`Go.Dispatch`), digests that resolve in
order (`Ts.RelayClient`), and queues with room (`Go.Delivery`).
-/

namespace CardTable

open Basis
open Go (Relay RelayAct Connection Outbound Session Hub Sending hubHistory tableStateOf statesOf
  accepted broadcasts broadcastBy AllInTurn acceptedBy)
open Ts (Page PageAct PageStep WireFrame msgTableState framesAt RelayClient)

/-! ## The states of a session -/

namespace Go

variable {session : Session} {queueDepth : Int} {hist : List (RelayAct × Relay)} {r r' : Relay}
  {act : RelayAct}

/-- What a handler does with a frame: it submits an action that is
accepted, or answers its client. -/
theorem dispatch_cases {s s' : Session} {sender : UInt64} {f : Inbound} {height : UInt32}
    {sends : List Sending} (h : dispatch s sender f height = some (s', sends)) :
    (∃ a, f = .action (.ok a) ∧ s.submit a height = .ok s' ∧
      sends = [.sendTo sender (.actionAccepted a), .publish sender (.peerAction a),
        .publishAll (.tableState s'.state)]) ∨
    (s' = s ∧ (∀ a, f = .action (.ok a) → ∃ e, s.submit a height = .err e) ∧
      ∃ reply, sends = [.sendTo sender reply] ∧ tableStateOf reply = none) := by
  cases f with
  | ping payload | transcriptRequest | other type =>
      simp only [dispatch, Option.some.injEq, Prod.mk.injEq] at h
      obtain ⟨hsession, hsends⟩ := h
      refine .inr ⟨hsession.symm, ?_, _, hsends.symm, rfl⟩
      intro a ha
      cases ha
  | action parsed =>
      cases parsed with
      | error msg =>
          simp only [dispatch, Option.some.injEq, Prod.mk.injEq] at h
          obtain ⟨hsession, hsends⟩ := h
          refine .inr ⟨hsession.symm, ?_, _, hsends.symm, rfl⟩
          intro a ha
          cases ha
      | ok a =>
          simp only [dispatch] at h
          cases hsubmit : s.submit a height with
          | halt k =>
              rw [hsubmit] at h
              cases h
          | err e =>
              rw [hsubmit] at h
              cases h
              refine .inr ⟨rfl, ?_, _, rfl, rfl⟩
              intro a' ha
              cases ha
              exact ⟨e, hsubmit⟩
          | ok next =>
              rw [hsubmit] at h
              cases h
              exact .inl ⟨a, rfl, hsubmit, rfl⟩

/-- Only `PublishAll` sends a table state. -/
theorem todo_states (hrun : Relay.Run session queueDepth hist r) {conn : Connection} {s : Sending}
    (hs : s ∈ r.todo conn) {state : RoundState} (hstate : tableStateOf s.frame = some state) :
    s = .publishAll (.tableState state) := by
  induction hrun generalizing conn with
  | start => cases hs
  | @snoc hist r r' act hp hstep ih =>
      cases act with
      | connect other =>
          obtain ⟨_, -, rfl⟩ := hstep
          exact ih hs
      | receive ch got =>
          obtain ⟨_, -, rfl⟩ := hstep
          exact ih hs
      | disconnect other =>
          obtain ⟨-, -, _, -, rfl⟩ := hstep
          exact ih hs
      | send other call =>
          obtain ⟨next, rest, _, htodo, -, -, rfl⟩ := hstep
          dsimp only at hs
          by_cases heq : conn = other
          · subst heq
            rw [Function.update_self] at hs
            exact ih (htodo ▸ List.mem_cons_of_mem _ hs)
          · rw [Function.update_of_ne heq] at hs
            exact ih hs
      | dispatch other f height =>
          obtain ⟨-, -, session', sends, hdispatch, rfl⟩ := hstep
          dsimp only at hs
          by_cases heq : conn = other
          · subst heq
            rw [Function.update_self] at hs
            rcases dispatch_cases hdispatch with ⟨a, -, -, rfl⟩ | ⟨-, -, reply, rfl, hreply⟩
            · simp only [List.mem_cons, List.not_mem_nil, or_false] at hs
              rcases hs with rfl | rfl | rfl
              · cases hstate
              · cases hstate
              · cases hstate
                rfl
            · obtain rfl := List.mem_singleton.mp hs
              cases hreply.symm.trans hstate
          · rw [Function.update_of_ne heq] at hs
            exact ih hs

/-! ## What a subscriber is offered -/

/-- A subscriber was one before, or has its channel from this call. -/
theorem Hub.subscribed_before {F : Type} {h h' : Hub F} {call : HubCall F} (hinv : h.Inv)
    (hs : Hub.Step h call h') {p : UInt64 × Nat} (hp : p ∈ h'.subscribers) :
    p ∈ h.subscribers ∨ p.2 = h.made := by
  cases effect_of_step hinv hs with
  | subscribed =>
      rcases List.mem_cons.mp hp with rfl | hold
      · exact .inr rfl
      · exact .inl (List.mem_of_mem_filter hold)
  | removed => exact .inl (List.mem_of_mem_filter hp)
  | offered | idle | received => exact .inl hp

/-- Nothing was offered on a channel that is still to be made. -/
theorem Hub.offers_of_unmade {F : Type} {calls : List (HubCall F × Hub F)} {h : Hub F}
    (hrun : Hub.Run F queueDepth calls h) {p : UInt64 × Nat} (hp : h.made ≤ p.2) :
    offers (new F queueDepth) p.1 p.2 calls = [] := by
  induction hrun with
  | start => rfl
  | @snoc calls h h' call hp' hs ih =>
      have hinv := inv_of_run hp'
      have hmade := made_mono hinv hs
      have hnot : (p.1, p.2) ∉ h.subscribers := by
        intro hsub
        have hlt := (hinv.owned _ hsub).1
        dsimp only at hlt
        omega
      have hbefore := ih (by omega)
      rw [offers] at hbefore ⊢
      rw [hp'.stepsOf_snoc, List.flatMap_append, hbefore, List.flatMap_singleton, offer,
        if_neg hnot, List.nil_append]

/-- What a step offers a subscriber shows the state it broadcasts. -/
theorem states_of_offer (hrun : Relay.Run session queueDepth hist r) (hs : r.Step act r')
    {call : HubCall Outbound} (hcall : act.hubCall = some call) {p : UInt64 × Nat} (hid : p.1 ≠ 0)
    (hsub : p ∈ r.hub.subscribers) :
    ((Hub.offer p.1 p.2 (r.hub, call, r'.hub)).map Prod.fst).filterMap tableStateOf =
      (broadcastBy act).toList := by
  have hoffer : (Hub.offer p.1 p.2 (r.hub, call, r'.hub)).map Prod.fst =
      (Hub.addressed p.1 call).toList := by
    rw [Hub.offer, if_pos hsub, List.map_map]
    exact List.map_id _
  rw [hoffer]
  cases haddressed : Hub.addressed p.1 call with
  | some f =>
      have hbroadcast : broadcastBy act = tableStateOf f := by
        rw [broadcastBy, hcall, Option.bind_some, Hub.published_of_addressed haddressed]
        rfl
      rw [hbroadcast, Option.toList_some, filterMap_cons_toList, List.filterMap_nil, List.append_nil]
  | none =>
      -- a state is broadcast to every subscriber
      cases hstate : broadcastBy act with
      | none => rfl
      | some state =>
          exfalso
          cases act with
          | send conn call' =>
              cases hcall
              obtain ⟨next, rest, _, htodo, hbecomes, -, -⟩ := hs
              rw [broadcastBy_send hbecomes] at hstate
              obtain rfl := todo_states hrun (htodo ▸ List.mem_cons_self) hstate
              cases call with
              | publishAll f _ _ =>
                  simp only [Hub.addressed, ite_eq_left_iff, reduceCtorEq, imp_false,
                    Decidable.not_not] at haddressed
                  exact hid haddressed.symm
              | _ => cases hbecomes
          | connect | dispatch | receive | disconnect =>
              simp [broadcastBy, RelayAct.hubCall, Hub.published] at hstate

/-- **No state is missed**: what a subscriber was offered are the states
broadcast since it subscribed. -/
theorem offered_states (hrun : Relay.Run session queueDepth hist r) {p : UInt64 × Nat}
    (hid : p.1 ≠ 0) (hsub : p ∈ r.hub.subscribers) :
    ((Hub.offers (.new Outbound queueDepth) p.1 p.2 (hubHistory hist)).map Prod.fst).filterMap
      tableStateOf <:+ broadcasts hist := by
  induction hrun with
  | start => cases hsub
  | @snoc hist r r' act hp hs ih =>
      have hhub := Relay.hub_run hp
      rw [broadcasts_snoc, hubHistory, filterMap_snoc, ← hubHistory]
      cases hcall : act.hubCall with
      | none =>
          have hsame : r'.hub = r.hub := by
            cases act with
            | dispatch conn f height =>
                obtain ⟨-, -, _, _, -, rfl⟩ := hs
                rfl
            | _ => cases hcall
          have hquiet : broadcastBy act = none := by rw [broadcastBy, hcall]; rfl
          rw [hquiet]
          simpa using ih (hsame ▸ hsub)
      | some call =>
          have hstep : Hub.Step r.hub call r'.hub := by
            have hnext := Relay.hub_run (hp.snoc hs)
            rw [hubHistory, filterMap_snoc, ← hubHistory, hcall] at hnext
            obtain ⟨-, h, hbefore, hstep⟩ := hnext.snoc_inv
            rwa [hbefore.lastState_eq.symm.trans hhub.lastState_eq] at hstep
          have hoffers : Hub.offers (.new Outbound queueDepth) p.1 p.2
              (hubHistory hist ++ [(call, r'.hub)]) =
              Hub.offers (.new Outbound queueDepth) p.1 p.2 (hubHistory hist) ++
                Hub.offer p.1 p.2 (r.hub, call, r'.hub) := by
            rw [Hub.offers, hhub.stepsOf_snoc, List.flatMap_append, List.flatMap_singleton]
            rfl
          rw [Option.map_some, Option.toList_some, hoffers, List.map_append, List.filterMap_append]
          by_cases hold : p ∈ r.hub.subscribers
          · rw [states_of_offer hp hs hcall hid hold]
            obtain ⟨before, hbefore⟩ := ih hold
            exact ⟨before, by rw [← hbefore, List.append_assoc]⟩
          · have hmade := (Hub.subscribed_before (Hub.inv_of_run hhub) hstep hsub).resolve_left hold
            rw [Hub.offers_of_unmade hhub (Nat.le_of_eq hmade.symm), Hub.offer, if_neg hold]
            exact List.nil_suffix

end Go

/-! ## What a page makes of its frames -/

namespace Ts.RelayClient

variable {S : Type} {json : Json S} {store : TableStore S} {c c' : RelayClient S} {act : SocketAct}
  {hist : List (SocketAct × RelayClient S)}

/-- A digest that resolves delivers its frame, if the checksum is
right. -/
theorem delivered_resume (c : RelayClient S) (d : Digesting) :
    (c.resume json d).delivered = c.delivered ++ d.frame?.toList ∧
      (c.resume json d).waiting = c.waiting := by
  rw [resume, Digesting.frame?]
  cases d.resume with
  | ok frame => exact ⟨delivered_emit .., waiting_emit ..⟩
  | error e => exact ⟨delivered_emit .., waiting_emit ..⟩

/-- In whatever order the digests resolve, a step delivers or leaves
waiting what there was, with the frame of the message received. -/
theorem account_perm_step (hs : Step json c act c') :
    (c'.delivered ++ c'.waiting).Perm
      (c.delivered ++ c.waiting ++ (act.message?.bind Message.frame?).toList) := by
  cases act with
  | message | opened | closed | failed => exact .of_eq (account_step hs trivial)
  | digested older =>
      obtain ⟨d, hat, rfl⟩ := hs
      obtain ⟨hall, hrest⟩ := waiting_split hat
      obtain ⟨hdelivered, hwaiting⟩ :=
        @delivered_resume S json { c with digesting := c.digesting.eraseIdx older } d
      simp only [SocketAct.message?, Option.bind_none, Option.toList_none, List.append_nil]
      rw [hdelivered, hwaiting, hall, waiting, hrest, List.append_assoc]
      exact (List.perm_append_comm_assoc ..).append_left _

/-- Nothing is delivered that was not received. -/
theorem delivered_received (hrun : Run json store hist c) {frame : WireFrame}
    (hframe : frame ∈ c.delivered) : frame ∈ received hist := by
  have hperm : (c.delivered ++ c.waiting).Perm (received hist) := by
    clear hframe
    induction hrun with
    | start => exact .refl _
    | @snoc hist c c' act hp hs ih =>
        rw [received, filterMap_snoc, ← received]
        exact (account_perm_step hs).trans (ih.append_right _)
  exact hperm.subset (List.mem_append_left _ hframe)

end Ts.RelayClient

/-- What a page makes of a state and of those that are sent to it, each
taken over if it can be read. -/
def Setting.shown (set : Setting) (state : Ts.RoundState) (sent : List Go.RoundState) :
    Ts.RoundState :=
  sent.foldl (fun state next => (set.browser.json.state (set.marshal next)).toOption.getD state) state

namespace Network

variable {B : Type} [DecidableEq B] {set : Setting} {session : Session} {queueDepth : Int}
  {n : Network B} {hist : List (NetworkAct B × Network B)} {site : B × Nat} {line : Line}

/-- A client beside the page it belongs to: what the page shows is what the
frames it was delivered make of the state it was connected with; these are
among those that arrived, and with digests in order the first of them. -/
theorem connected (hrun : Run set session queueDepth hist n) {browser : B} {i : Nat}
    (hrelay : (n.page browser).relay = some i) :
    ∃ before url refused p₀ after, ∃ v : RelayClient Ts.RoundState, ∃ c,
      pageHistory browser hist = before ++ (.connect url refused, p₀) :: after ∧
      (∀ step ∈ after, step.1.switches = false) ∧
      n.client (browser, i) = some c ∧ c.url = url ∧ c.digesting = v.digesting ∧
      (n.page browser).table.state = RelayClient.stateAfter set.browser.json
        (lastState Ts.openPage before).table.state v.delivered ∧
      (∀ frame ∈ v.delivered, frame ∈ arrivedAt (browser, i) hist) ∧
      ((∀ step ∈ stepsOf Ts.openPage (pageHistory browser hist), step.2.1.InOrder i step.1) →
        v.delivered ++ v.waiting = arrivedAt (browser, i) hist) := by
  have hpage := page_run hrun browser
  obtain ⟨before, url, refused, p₀, after, hhist, hquiet, hi, c, hc, hurl⟩ :=
    Page.connected_since hpage hrelay
  rw [hhist] at hpage
  obtain ⟨q, hbefore, hrest⟩ := hpage.append_inv
  obtain ⟨hconnect, hafter⟩ := hrest.cons_inv
  have hq : lastState Ts.openPage before = q := hbefore.lastState_eq
  have hwired : q.Wired := hbefore.invariant Page.wired_openPage Page.wired_step
  have hwired₀ : p₀.Wired := Page.wired_step hwired hconnect
  obtain rfl := hconnect
  rw [hq] at hi
  subst hi
  obtain ⟨alone, v, c', h⟩ := Page.attached hafter hwired₀ rfl
    (by simp only [Page.connect]; rw [← Page.length_letGo q, List.getElem?_concat_length]) rfl rfl
    hquiet
  obtain rfl := Option.some.inj (hc.symm.trans h.client)
  -- nothing arrived at the client before the page made it
  have harrived : arrivedAt (browser, q.clients.length) hist = RelayClient.received alone := by
    rw [h.received, arrivedAt, hhist, framesAt, List.filterMap_append, ← framesAt,
      Page.framesAt_of_unmade hbefore (Nat.le_refl _), List.nil_append]
    rfl
  refine ⟨before, url, refused, _, after, v, c, hhist, hquiet, hc, hurl, h.digesting, ?_, ?_, ?_⟩
  · rw [h.state, RelayClient.state_eq h.run, hq]
    rfl
  · intro frame hframe
    rw [harrived]
    exact RelayClient.delivered_received h.run hframe
  · intro horder
    rw [harrived]
    apply RelayClient.account h.run
    apply h.order
    intro step hstep
    apply horder
    rw [hhist, stepsOf_append]
    exact List.mem_append_right _ (List.mem_cons_of_mem _ hstep)

/-! ## Nothing under way -/

/-- **Nothing is under way** to a client whose handler is subscribed. -/
structure Settled (queueDepth : Int) (n : Network B) (hist : List (NetworkAct B × Network B))
    (site : B × Nat) (line : Line) : Prop where
  subscribed : line.conn ∈ n.relay.hub.subscribers
  /-- no handler has anything to send -/
  handlers : ∀ conn, n.relay.todo conn = []
  /-- no frame for the client has met a full queue, and none is queued -/
  room : ∀ offer ∈ Hub.offers (.new Outbound queueDepth) line.conn.1 line.conn.2
    (hubHistory (relayHistory hist)), offer.2 ≠ (Hub.new Outbound queueDepth).queueDepth
  queue : (n.relay.hub.chans line.conn.2).queue = []
  inHand : line.inHand = none
  wire : line.wire = []
  whole : line.cut = false
  digests : ∀ c, n.client site = some c → c.digesting = []

/-- What a settled client has received are the states accepted since its
handler subscribed. -/
theorem Settled.received (h : Settled queueDepth n hist site line)
    (hrun : Run set session queueDepth hist n) (hfew : n.relay.hub.made < UInt64.size)
    (hturn : AllInTurn (.new session queueDepth) (relayHistory hist)) :
    (receivedOn line.conn.2 hist).filterMap tableStateOf <:+
      accepted (.new session queueDepth) (relayHistory hist) := by
  have hrelay := relay_run hrun
  have hhub := Relay.hub_run hrelay
  obtain ⟨hmade, hid⟩ := (hub_inv hrun).owned _ h.subscribed
  have hpositive : line.conn.1 ≠ 0 := by
    rw [hid]
    exact Hub.idOf_ne_zero (by omega)
  -- all that was offered has come through the queue
  have haccount := Hub.account hhub line.conn.2
  rw [h.queue, List.append_nil, ← hid, Hub.queueDepth_of_run hhub, Hub.taken,
    List.filter_eq_self.mpr (by simpa using h.room)] at haccount
  -- and nothing accepted is still to be broadcast
  have howed := Go.owed_of_run hrelay hturn
  have horder := howed.order
  rw [howed.awaiting_eq_nil (fun conn => by rw [h.handlers]; rfl), List.map_nil,
    List.append_nil] at horder
  rw [receivedOn, haccount, horder]
  exact Go.offered_states hrelay hpositive h.subscribed

/-! ## One seat taken -/

theorem encode_sent {frame : WireFrame} (h : frame.payload.length ≤ Ts.maxPayloadSize) :
    Go.Wire.encode sha256Checksum [] frame =
      .ok ((RelayClient.sent frame).length, RelayClient.sent frame) := by
  rw [Wire.go_encode_eq, ← Ts.encode_eq, RelayClient.encode_sent h]
  rfl

open Go (emptySession firstSession joinFirst)

end Network

end CardTable
