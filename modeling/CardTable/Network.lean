import CardTable.Go.Heights
import CardTable.Ts.Sources
import CardTable.Wire

/-!
# Network — from the session to the pages

Browsers in front of one relay. The writer of `handleConn` in
`internal/wsadapter/server.go` takes the frames off the channel of its
connection, encodes each and writes it as one message; the browser hands
the messages of a socket on in the order they were written, and the page
decodes them. The relay and the pages take the steps of `Go.Dispatch` and
`Ts.Page`; a frame is taken, written and delivered in steps of its own,
and a connection can be cut at any moment.

`json.Marshal` of a state is a parameter, as `JSON.parse` is. What the
pages send may be anything: the handlers are handed any frames at all, and
one that is no wire frame is answered like an action that is no JSON.
-/

namespace CardTable

open Basis
open Go (Relay RelayAct Connection Outbound Session Hub hubHistory tableStateOf accepted broadcasts
  broadcastBy AllInTurn acceptedBy)
open Ts (Page PageAct PageStep WireFrame msgTableState framesAt RelayClient)

/-- The `MsgType` of a frame. -/
def Go.Outbound.type : Outbound → UInt16
  | .pong _ => 0x0004
  | .actionAccepted _ => 0x0381
  | .peerAction _ => 0x0382
  | .tableState _ => msgTableState
  | .transcriptResponse _ => 0x0383
  | .errorReply _ _ => Ts.msgErrorReply

/-- What the parties have in common. -/
structure Setting where
  /-- the URL of the WebSocket adapter -/
  address : String
  marshal : Go.RoundState → List UInt8
  browser : Ts.Browser

/-- A wire frame for a frame of the relay. No page reads the payload of
one that is not a table state, and nothing is said of it. -/
structure Carries (marshal : Go.RoundState → List UInt8) (f : Outbound) (frame : WireFrame) :
    Prop where
  version : frame.version = Ts.version10
  type : frame.type = f.type
  state : ∀ state, f = .tableState state → frame.payload = marshal state

/-- A client's connection: its handler, the frame its writer has in hand,
and the messages on their way. -/
structure Line where
  conn : Connection
  inHand : Option Outbound
  wire : List (List UInt8)
  /-- nothing more is written -/
  cut : Bool

/-- The frames of the messages on their way. -/
def Line.onWay (line : Line) : List WireFrame :=
  line.wire.filterMap fun message => (Ts.Message.binary message).frame?

variable {B : Type} [DecidableEq B]

/-- The relay, the pages, and the connections of their clients. -/
structure Network (B : Type) where
  relay : Relay
  page : B → Page
  line : B × Nat → Option Line

/-- What happens next. -/
inductive NetworkAct (B : Type) where
  | relay (act : RelayAct)
  | page (browser : B) (act : PageAct)
  | accept (site : B × Nat) (conn : Connection)
  | take (site : B × Nat) (ch : Nat) (f : Outbound)
  | write (site : B × Nat) (f : Outbound) (frame : WireFrame)
  | cut (site : B × Nat)
  | deliver (site : B × Nat) (message : List UInt8)

namespace Network

/-- A new relay, and pages that were just loaded. -/
def start (B : Type) (session : Session) (queueDepth : Int) : Network B where
  relay := .new session queueDepth
  page := fun _ => Ts.openPage
  line := fun _ => none

def setPage (n : Network B) (browser : B) (page : Page) : Network B :=
  { n with page := Function.update n.page browser page }

def setLine (n : Network B) (site : B × Nat) (line : Line) : Network B :=
  { n with line := Function.update n.line site (some line) }

@[simp] theorem setLine_line (n : Network B) (site : B × Nat) (line : Line) :
    (n.setLine site line).line site = some line :=
  Function.update_self ..

/-- The client at a site. -/
def client (n : Network B) (site : B × Nat) : Option Ts.Client := (n.page site.1).clients[site.2]?

/-- The channels of the lines are received from by their writers only. -/
def Free (n : Network B) : RelayAct → Prop
  | .receive ch _ => ∀ site line, n.line site = some line → line.conn.2 ≠ ch
  | _ => True

/-- A socket to the relay has its messages from the relay. -/
def Elsewhere (set : Setting) (n : Network B) (browser : B) : PageAct → Prop
  | .socket i (.message _) => ∀ c, n.client (browser, i) = some c → c.url ≠ set.address
  | _ => True

/-- One step of a handler, a writer, the network or a page. -/
def Step (set : Setting) (n : Network B) : NetworkAct B → Network B → Prop
  | .relay act, n' => n.Free act ∧ ∃ relay, n.relay.Step act relay ∧
      n' = { n with relay := relay }
  | .page browser act, n' => n.Elsewhere set browser act ∧
      ∃ page, PageStep set.browser (n.page browser) act page ∧ n' = n.setPage browser page
  | .accept site conn, n' => n.line site = none ∧
      (∃ c, n.client site = some c ∧ c.url = set.address) ∧
      ∃ relay, n.relay.Step (.connect conn) relay ∧
        n' = setLine { n with relay := relay } site ⟨conn, none, [], false⟩
  | .take site ch f, n' => ∃ line relay, n.line site = some line ∧ line.conn.2 = ch ∧
      line.cut = false ∧ line.inHand = none ∧ n.relay.Step (.receive ch (some f)) relay ∧
        n' = setLine { n with relay := relay } site { line with inHand := some f }
  | .write site f frame, n' => ∃ line size message, n.line site = some line ∧
      line.cut = false ∧ line.inHand = some f ∧ Carries set.marshal f frame ∧
      Go.Wire.encode sha256Checksum [] frame = .ok (size, message) ∧
        n' = n.setLine site { line with inHand := none, wire := line.wire ++ [message] }
  -- some of the messages on their way may still arrive
  | .cut site, n' => ∃ line kept, n.line site = some line ∧ kept <+: line.wire ∧
      n' = n.setLine site { line with inHand := none, wire := kept, cut := true }
  | .deliver site message, n' => ∃ line rest page, n.line site = some line ∧
      line.wire = message :: rest ∧
      PageStep set.browser (n.page site.1) (.socket site.2 (.message (.binary message))) page ∧
        n' = (n.setPage site.1 page).setLine site { line with wire := rest }

/-- The runs of a network. -/
abbrev Run (set : Setting) (session : Session) (queueDepth : Int) :
    List (NetworkAct B × Network B) → Network B → Prop :=
  Path (Step set) (start B session queueDepth)

end Network

/-! ## The parties' parts of a run -/

namespace NetworkAct

/-- The step of the relay. -/
def relay? : NetworkAct B → Option RelayAct
  | .relay act => some act
  | .accept _ conn => some (.connect conn)
  | .take _ ch f => some (.receive ch (some f))
  | _ => none

/-- The task of a page. -/
def page? (browser : B) : NetworkAct B → Option PageAct
  | .page other act => if other = browser then some act else none
  | .deliver site message =>
      if site.1 = browser then some (.socket site.2 (.message (.binary message))) else none
  | _ => none

/-- What is written for a client. -/
def written? (site : B × Nat) : NetworkAct B → Option (Outbound × WireFrame)
  | .write other f frame => if other = site then some (f, frame) else none
  | _ => none

end NetworkAct

namespace Network

/-- The run of the relay inside a run of the network. -/
def relayHistory (hist : List (NetworkAct B × Network B)) : List (RelayAct × Relay) :=
  hist.filterMap fun step => step.1.relay?.map (·, step.2.relay)

/-- The run of a page inside a run of the network. -/
def pageHistory (browser : B) (hist : List (NetworkAct B × Network B)) : List (PageAct × Page) :=
  hist.filterMap fun step => (step.1.page? browser).map (·, step.2.page browser)

/-- What was written for a client, in order. -/
def written (site : B × Nat) (hist : List (NetworkAct B × Network B)) :
    List (Outbound × WireFrame) :=
  hist.filterMap fun step => step.1.written? site

/-- The frames received on a channel. -/
def receivedOn (ch : Nat) (hist : List (NetworkAct B × Network B)) : List Outbound :=
  Hub.received ch (hubHistory (relayHistory hist))

/-- The frames that arrived at a client. -/
def arrivedAt (site : B × Nat) (hist : List (NetworkAct B × Network B)) : List WireFrame :=
  framesAt site.2 (pageHistory site.1 hist)

variable {set : Setting} {session : Session} {queueDepth : Int} {n n' : Network B}
  {act : NetworkAct B} {hist : List (NetworkAct B × Network B)}

theorem relay_said {told : RelayAct} (h : Step set n act n') (htold : act.relay? = some told) :
    n.relay.Step told n'.relay := by
  cases act with
  | relay act =>
      obtain ⟨-, relay, hrelay, rfl⟩ := h
      cases htold
      exact hrelay
  | accept site conn =>
      obtain ⟨-, -, relay, hrelay, rfl⟩ := h
      cases htold
      exact hrelay
  | take site ch f =>
      obtain ⟨_, relay, -, -, -, -, hrelay, rfl⟩ := h
      cases htold
      exact hrelay
  | page | write | cut | deliver => cases htold

theorem relay_silent (h : Step set n act n') (hsilent : act.relay? = none) :
    n'.relay = n.relay := by
  cases act with
  | relay | accept | take => cases hsilent
  | page browser act =>
      obtain ⟨-, page, -, rfl⟩ := h
      rfl
  | write site f frame =>
      obtain ⟨_, _, _, -, -, -, -, -, rfl⟩ := h
      rfl
  | cut site =>
      obtain ⟨_, _, -, -, rfl⟩ := h
      rfl
  | deliver site message =>
      obtain ⟨_, _, page, -, -, -, rfl⟩ := h
      rfl

theorem page_said {browser : B} {told : PageAct} (h : Step set n act n')
    (htold : act.page? browser = some told) :
    PageStep set.browser (n.page browser) told (n'.page browser) := by
  cases act with
  | page other act =>
      obtain ⟨-, page, hpage, rfl⟩ := h
      simp only [NetworkAct.page?, Option.ite_none_right_eq_some] at htold
      obtain ⟨rfl, htold⟩ := htold
      cases htold
      simpa [setPage] using hpage
  | deliver site message =>
      obtain ⟨_, _, page, -, -, hpage, rfl⟩ := h
      simp only [NetworkAct.page?, Option.ite_none_right_eq_some] at htold
      obtain ⟨rfl, htold⟩ := htold
      cases htold
      simpa [setPage, setLine] using hpage
  | relay | accept | take | write | cut => cases htold

theorem page_silent {browser : B} (h : Step set n act n') (hsilent : act.page? browser = none) :
    n'.page browser = n.page browser := by
  cases act with
  | page other act =>
      obtain ⟨-, page, -, rfl⟩ := h
      simp only [NetworkAct.page?, ite_eq_right_iff] at hsilent
      have hother : browser ≠ other := fun heq => Option.some_ne_none _ (hsilent heq.symm)
      exact Function.update_of_ne hother ..
  | deliver site message =>
      obtain ⟨_, _, page, -, -, -, rfl⟩ := h
      simp only [NetworkAct.page?, ite_eq_right_iff] at hsilent
      have hother : browser ≠ site.1 := fun heq => Option.some_ne_none _ (hsilent heq.symm)
      exact Function.update_of_ne hother ..
  | relay act =>
      obtain ⟨-, relay, -, rfl⟩ := h
      rfl
  | accept site conn =>
      obtain ⟨-, -, relay, -, rfl⟩ := h
      rfl
  | take site ch f =>
      obtain ⟨_, relay, -, -, -, -, -, rfl⟩ := h
      rfl
  | write site f frame =>
      obtain ⟨_, _, _, -, -, -, -, -, rfl⟩ := h
      rfl
  | cut site =>
      obtain ⟨_, _, -, -, rfl⟩ := h
      rfl

theorem relay_run (hrun : Run set session queueDepth hist n) :
    Relay.Run session queueDepth (relayHistory hist) n.relay :=
  Path.project hrun Network.relay NetworkAct.relay? relay_said relay_silent

theorem page_run (hrun : Run set session queueDepth hist n) (browser : B) :
    Path (PageStep set.browser) Ts.openPage (pageHistory browser hist) (n.page browser) :=
  Path.project hrun (fun n => n.page browser) (NetworkAct.page? browser) page_said page_silent

theorem hub_inv (hrun : Run set session queueDepth hist n) : n.relay.hub.Inv :=
  Hub.inv_of_run (Relay.hub_run (relay_run hrun))

end Network

/-! ## The clients of a page -/

namespace Ts.Page

variable {b : Ts.Browser} {p p' : Page} {act : PageAct} {hist : List (PageAct × Page)} {i : Nat}

/-- The URLs of the clients a page has made. -/
def urls (p : Page) : List String := p.clients.map (·.url)

/-- A client replaced by one with the same URL. -/
theorem urls_set {c : Ts.Client} (c' : Ts.Client) (hc : p.clients[i]? = some c)
    (hurl : c'.url = c.url) : (p.clients.set i c').map (·.url) = p.urls := by
  rw [urls, List.map_set, hurl]
  apply List.ext_getElem?
  intro j
  by_cases hij : i = j
  · subst hij
    simp [List.getElem?_set, hc]
    exact (List.getElem?_eq_some_iff.mp hc).1
  · rw [List.getElem?_set_ne hij]

theorem clients_apply (a : Ts.SignedAction) (computeSettle : Bool) :
    (p.apply b a computeSettle).clients = p.clients := by
  simp only [apply]
  split
  · rfl
  · split
    · rfl
    · rfl
    · split
      · split
        · rfl
        · rfl
        · rfl
      · rfl

theorem urls_letGo : p.letGo.map (·.url) = p.urls := by
  simp only [letGo]
  split
  · apply List.ext_getElem?
    intro j
    rw [List.getElem?_map, List.getElem?_modify, urls, List.getElem?_map]
    cases p.clients[j]? with
    | none => rfl
    | some c =>
        simp only [Option.map_eq_map, Option.map_some, Option.some.injEq]
        split
        · rfl
        · rfl
  · rfl

theorem urls_connect (url : String) (refused : Option String) :
    (p.connect url refused).urls = p.urls ++ [url] := by
  show List.map _ (p.letGo ++ _) = _
  rw [List.map_append, urls_letGo]
  rfl

/-- **Clients are only added**, whatever happens to a page. -/
theorem urls_step (h : PageStep b p act p') : p.urls <+: p'.urls := by
  cases act with
  | player act =>
      obtain rfl := h
      simp only [play, urls]
      split
      · rw [clients_apply]
        exact List.prefix_rfl
      · exact List.prefix_rfl
  | setHeight height =>
      obtain rfl := h
      simp only [setHeight]
      split
      · exact List.prefix_rfl
      · exact List.prefix_rfl
  | reset =>
      obtain rfl := h
      exact urls_letGo ▸ List.prefix_rfl
  | disconnect =>
      obtain rfl := h
      exact urls_letGo ▸ List.prefix_rfl
  | connect url refused =>
      obtain rfl := h
      rw [urls_connect]
      exact List.prefix_append _ _
  | resumed i =>
      obtain ⟨c, hc, h⟩ := h
      have hset := urls_set { c with opening := .resumed } hc rfl
      simp only [resume] at h
      split at h
      · cases h
        exact hset ▸ List.prefix_rfl
      · cases h
        exact hset ▸ List.prefix_rfl
      · cases h
  | socket i act =>
      obtain ⟨c, v, hc, -, rfl⟩ := h
      have hset := urls_set { c.handle act with digesting := v.digesting, emitted := v.emitted } hc
        (by cases act with | _ => rfl)
      exact hset ▸ List.prefix_rfl
  | closing i =>
      obtain ⟨c, hc, rfl⟩ := h
      exact urls_set { c with isOpen := false } hc rfl ▸ List.prefix_rfl
  | sent k =>
      obtain ⟨sending, -, rfl⟩ := h
      cases sending with
      | refused message => exact List.prefix_rfl
      | digest i frame =>
          simp only [finish]
          split
          · rename_i c hfind
            obtain ⟨hc, -⟩ := Option.filter_eq_some_iff.mp hfind
            exact urls_set { c with posted := c.posted ++ [frame] } hc rfl ▸ List.prefix_rfl
          · exact List.prefix_rfl

/-- A client stays, at its URL. -/
theorem client_stays (h : PageStep b p act p') {c : Ts.Client} (hc : p.clients[i]? = some c) :
    ∃ c', p'.clients[i]? = some c' ∧ c'.url = c.url := by
  have hurl : p.urls[i]? = some c.url := by rw [urls, List.getElem?_map, hc, Option.map_some]
  have hlt : i < p.urls.length := (List.getElem?_eq_some_iff.mp hurl).1
  have hurl' : p'.urls[i]? = some c.url := by
    obtain ⟨new, hnew⟩ := urls_step h
    rw [← hnew, List.getElem?_append_left hlt, hurl]
  rw [urls, List.getElem?_map] at hurl'
  exact Option.map_eq_some_iff.mp hurl'

/-- Nothing arrives at a client that is still to be made. -/
theorem framesAt_of_unmade (hrun : Path (PageStep b) Ts.openPage hist p)
    (hi : p.clients.length ≤ i) : framesAt i hist = [] := by
  induction hrun with
  | start => rfl
  | @snoc hist p p' act hp hs ih =>
      have hle : p.clients.length ≤ p'.clients.length := by
        simpa [urls] using (urls_step hs).length_le
      rw [framesAt, filterMap_snoc, ← framesAt, ih (hle.trans hi), List.nil_append]
      cases act with
      | socket j act =>
          obtain ⟨c, _, hc, -, -⟩ := hs
          have hlt : j < p.clients.length := (List.getElem?_eq_some_iff.mp hc).1
          have hne : j ≠ i := by omega
          simp [PageAct.at, hne]
      | _ => rfl

/-- **The relay of a page** is the one it was last connected to. -/
theorem connected_since (hrun : Path (PageStep b) Ts.openPage hist p) (hrelay : p.relay = some i) :
    ∃ before url refused p₀ after, hist = before ++ (.connect url refused, p₀) :: after ∧
      (∀ step ∈ after, step.1.switches = false) ∧
      i = (lastState Ts.openPage before).clients.length ∧
      ∃ c, p.clients[i]? = some c ∧ c.url = url := by
  induction hrun with
  | start => cases hrelay
  | @snoc hist p p' act hp hs ih =>
      by_cases hquiet : act.switches = false
      · have hsame := (quiet_cases hs hquiet).1.relay
        obtain ⟨before, url, refused, p₀, after, rfl, hafter, hi, c, hc, hurl⟩ :=
          ih (hsame.symm.trans hrelay)
        obtain ⟨c', hc', hurl'⟩ := client_stays hs hc
        refine ⟨before, url, refused, p₀, after ++ [(act, p')], by simp, ?_, hi, c', hc',
          hurl'.trans hurl⟩
        rw [List.forall_mem_append]
        refine ⟨hafter, ?_⟩
        intro step hstep
        obtain rfl := List.mem_singleton.mp hstep
        exact hquiet
      cases act with
      | connect url refused =>
          obtain rfl := hs
          obtain rfl := Option.some.inj hrelay
          have hurl : (p.connect url refused).urls[p.clients.length]? = some url := by
            rw [urls_connect, ← List.length_map (·.url), ← urls, List.getElem?_concat_length]
          rw [urls, List.getElem?_map] at hurl
          exact ⟨hist, url, refused, _, [], rfl, by simp, by rw [hp.lastState_eq],
            Option.map_eq_some_iff.mp hurl⟩
      | reset | disconnect =>
          obtain rfl := hs
          cases hrelay
      | _ => exact absurd rfl hquiet

end Ts.Page

/-! ## The channels of the relay -/

namespace Go.Relay

end Go.Relay

/-! ## The lines -/

namespace NetworkAct

/-- The frame an act hands to a client. -/
def arriving? (site : B × Nat) (act : NetworkAct B) : Option WireFrame :=
  (((act.page? site.1).bind (PageAct.at site.2)).bind Ts.SocketAct.message?).bind Ts.Message.frame?

/-- What an act receives on a channel. -/
def receiving (ch : Nat) (act : NetworkAct B) : List Outbound :=
  (act.relay?.bind RelayAct.hubCall).toList.flatMap (Hub.got ch)

/-- The line an act is about. -/
def site? : NetworkAct B → Option (B × Nat)
  | .accept site _ | .take site _ _ | .write site _ _ | .cut site | .deliver site _ => some site
  | .relay _ | .page _ _ => none

end NetworkAct

namespace Network

variable {set : Setting} {session : Session} {queueDepth : Int} {n n' : Network B}
  {act : NetworkAct B} {hist : List (NetworkAct B × Network B)} {site : B × Nat} {line : Line}

omit [DecidableEq B] in
theorem receivedOn_snoc (ch : Nat) : receivedOn ch (hist ++ [(act, n)]) =
    receivedOn ch hist ++ act.receiving ch := by
  rw [receivedOn, relayHistory, filterMap_snoc, hubHistory, List.filterMap_append, Hub.received,
    List.flatMap_append]
  congr 1
  rw [NetworkAct.receiving]
  cases act.relay? with
  | none => rfl
  | some told =>
      cases hcall : told.hubCall with
      | none => simp [hcall]
      | some call => simp [hcall]

theorem arrivedAt_snoc : arrivedAt site (hist ++ [(act, n)]) =
    arrivedAt site hist ++ (act.arriving? site).toList := by
  rw [arrivedAt, pageHistory, filterMap_snoc, framesAt, List.filterMap_append]
  congr 1
  rw [NetworkAct.arriving?]
  cases act.page? site.1 with
  | none => rfl
  | some told =>
      rw [Option.map_some, Option.toList_some, filterMap_cons_toList, List.filterMap_nil,
        List.append_nil, Option.bind_some]

theorem written_snoc : written site (hist ++ [(act, n)]) =
    written site hist ++ (act.written? site).toList :=
  filterMap_snoc ..

/-- What an act about another line leaves alone. -/
theorem line_elsewhere (h : Step set n act n') (hsite : act.site? ≠ some site) :
    n'.line site = n.line site ∧ act.written? site = none := by
  have hne : ∀ other, act.site? = some other → site ≠ other := by
    intro other hother heq
    rw [heq] at hsite
    exact hsite hother
  cases act with
  | relay act =>
      obtain ⟨-, _, -, rfl⟩ := h
      exact ⟨rfl, rfl⟩
  | page browser act =>
      obtain ⟨-, _, -, rfl⟩ := h
      exact ⟨rfl, rfl⟩
  | accept other conn =>
      obtain ⟨-, -, _, -, rfl⟩ := h
      exact ⟨Function.update_of_ne (hne other rfl) .., rfl⟩
  | take other ch f =>
      obtain ⟨_, _, -, -, -, -, -, rfl⟩ := h
      exact ⟨Function.update_of_ne (hne other rfl) .., rfl⟩
  | write other f frame =>
      obtain ⟨_, _, _, -, -, -, -, -, rfl⟩ := h
      exact ⟨Function.update_of_ne (hne other rfl) .., if_neg fun heq => hne other rfl heq.symm⟩
  | cut other =>
      obtain ⟨_, _, -, -, rfl⟩ := h
      exact ⟨Function.update_of_ne (hne other rfl) .., rfl⟩
  | deliver other message =>
      obtain ⟨_, _, _, -, -, -, rfl⟩ := h
      exact ⟨Function.update_of_ne (hne other rfl) .., rfl⟩

/-- A client of a page stays, at its URL. -/
theorem client_stays (h : Step set n act n') {c : Ts.Client} (hc : n.client site = some c) :
    ∃ c', n'.client site = some c' ∧ c'.url = c.url := by
  cases htold : act.page? site.1 with
  | none =>
      rw [client, page_silent h htold]
      exact ⟨c, hc, rfl⟩
  | some told => exact Page.client_stays (page_said h htold) hc

omit [DecidableEq B] in
/-- There is one client at a site. -/
theorem url_of_client {url : String} (h : ∃ c, n.client site = some c ∧ c.url = url) :
    ∀ c, n.client site = some c → c.url = url := by
  obtain ⟨c, hc, hurl⟩ := h
  intro c' hc'
  obtain rfl := Option.some.inj (hc.symm.trans hc')
  exact hurl

/-- **What holds of the lines**: each has a channel of its own, and leads
to a client of the relay. -/
structure Laid (set : Setting) (n : Network B) : Prop where
  made : ∀ site line, n.line site = some line → line.conn.2 < n.relay.hub.made
  apart : ∀ site other line line', n.line site = some line → n.line other = some line' →
    line.conn.2 = line'.conn.2 → site = other
  client : ∀ site line, n.line site = some line →
    ∃ c, n.client site = some c ∧ c.url = set.address

/-- A client of the relay hears nothing but its line. -/
theorem arriving_elsewhere (h : Step set n act n') (hsite : act.site? ≠ some site)
    (hurl : ∀ c, n.client site = some c → c.url = set.address) : act.arriving? site = none := by
  cases act with
  | relay | accept | take | write | cut => rfl
  | deliver other message =>
      by_cases hbrowser : other.1 = site.1
      · have hclient : other.2 ≠ site.2 := by
          intro heq
          exact hsite (congrArg some (Prod.ext hbrowser heq))
        simp [NetworkAct.arriving?, NetworkAct.page?, hbrowser, PageAct.at, hclient]
      · simp [NetworkAct.arriving?, NetworkAct.page?, hbrowser]
  | page browser act =>
      by_cases hbrowser : browser = site.1
      · cases act with
        | socket i act =>
            by_cases hclient : i = site.2
            · obtain ⟨helsewhere, page, ⟨c, _, hc, -⟩, -⟩ := h
              subst hbrowser hclient
              cases act with
              | message data => exact absurd (hurl c hc) (helsewhere c hc)
              | _ => simp [NetworkAct.arriving?, NetworkAct.page?, PageAct.at, Ts.SocketAct.message?]
            · simp [NetworkAct.arriving?, NetworkAct.page?, hbrowser, PageAct.at, hclient]
        | _ => simp [NetworkAct.arriving?, NetworkAct.page?, hbrowser, PageAct.at]
      · simp [NetworkAct.arriving?, NetworkAct.page?, hbrowser]

/-- Nobody but its writer receives on the channel of a line. -/
theorem receiving_elsewhere (hlaid : n.Laid set) (h : Step set n act n')
    (hsite : act.site? ≠ some site) (hline : n.line site = some line) :
    act.receiving line.conn.2 = [] := by
  cases act with
  | page | write | cut | deliver | accept => rfl
  | take other ch f =>
      obtain ⟨line', _, hline', rfl, -⟩ := h
      have hch : line'.conn.2 ≠ line.conn.2 := by
        intro heq
        exact hsite (congrArg some (hlaid.apart other site line' line hline' hline heq))
      simp [NetworkAct.receiving, NetworkAct.relay?, RelayAct.hubCall, Hub.got, hch]
  | relay told =>
      obtain ⟨hfree, relay, hrelay, -⟩ := h
      cases told with
      | connect | dispatch | disconnect => rfl
      | receive ch got =>
          have hch : ch ≠ line.conn.2 := fun heq => hfree site line hline heq.symm
          simp [NetworkAct.receiving, NetworkAct.relay?, RelayAct.hubCall, Hub.got, hch]
      | send conn call =>
          obtain ⟨next, _, _, -, hbecomes, -⟩ := hrelay
          have hgot : Hub.got line.conn.2 call = [] := by
            cases call with
            | receive ch got =>
                cases next with
                | _ => cases hbecomes
            | _ => rfl
          simp [NetworkAct.receiving, NetworkAct.relay?, RelayAct.hubCall, hgot]

/-- What the writer encodes is what the browser decodes. -/
theorem frame_of_encode {frame : WireFrame} {size : Nat} {message : List UInt8}
    (h : Go.Wire.encode sha256Checksum [] frame = .ok (size, message)) :
    (Ts.Message.binary message).frame? = some frame := by
  rw [Wire.go_encode_eq, ← Ts.encode_eq] at h
  cases hencode : Ts.encode frame with
  | error e =>
      rw [hencode] at h
      cases h
  | ok bytes =>
      simp only [hencode, List.nil_append, Except.ok.injEq, Prod.mk.injEq] at h
      rw [Ts.Message.frame?, ← h.2, Ts.decode_encode hencode]
      rfl

/-- **The account of a line**: what was written is what was taken off the
channel, and what arrived is what was written, in order; what is missing
at the end is in hand, on its way, or lost in a cut. -/
structure Account (set : Setting) (site : B × Nat) (hist : List (NetworkAct B × Network B))
    (line : Line) : Prop where
  carries : ∀ p ∈ written site hist, Carries set.marshal p.1 p.2
  taken : ∃ lost, receivedOn line.conn.2 hist =
    (written site hist).map Prod.fst ++ line.inHand.toList ++ lost ∧ (line.cut = false → lost = [])
  arrived : ∃ lost, (written site hist).map Prod.snd = arrivedAt site hist ++ line.onWay ++ lost ∧
    (line.cut = false → lost = [])

/-- **One step keeps the account.** -/
theorem Account.step {hist : List (NetworkAct B × Network B)} (hlaid : n.Laid set)
    (hline : n.line site = some line) (h : Account set site hist line) (hs : Step set n act n')
    {line' : Line} (hline' : n'.line site = some line') :
    Account set site (hist ++ [(act, n')]) line' := by
  obtain ⟨hcarries, ⟨lost, htaken, hlost⟩, lost', harrived, hlost'⟩ := h
  have hurl := url_of_client (hlaid.client site line hline)
  by_cases hsite : act.site? = some site
  · cases act with
    | relay | page => cases hsite
    | accept other conn =>
        cases hsite
        cases hs.1.symm.trans hline
    | take other ch f =>
        cases hsite
        obtain ⟨_, _, hold, rfl, hcut, hinHand, -, rfl⟩ := hs
        obtain rfl := Option.some.inj (hline.symm.trans hold)
        obtain rfl := Option.some.inj ((setLine_line ..).symm.trans hline')
        have hreceiving : (NetworkAct.take site line.conn.2 f : NetworkAct B).receiving line.conn.2 =
            [f] := by
          simp [NetworkAct.receiving, NetworkAct.relay?, RelayAct.hubCall, Hub.got]
        refine ⟨?_, ⟨[], ?_, fun _ => rfl⟩, lost', ?_, hlost'⟩
        · rw [written_snoc]
          simpa [NetworkAct.written?] using hcarries
        · rw [receivedOn_snoc, written_snoc, hreceiving, htaken, hinHand, hlost hcut]
          simp [NetworkAct.written?]
        · rw [written_snoc, arrivedAt_snoc]
          simpa [NetworkAct.written?, NetworkAct.arriving?, NetworkAct.page?, Line.onWay]
            using harrived
    | write other f frame =>
        cases hsite
        obtain ⟨_, _, message, hold, hcut, hinHand, hframe, hencode, rfl⟩ := hs
        obtain rfl := Option.some.inj (hline.symm.trans hold)
        obtain rfl := Option.some.inj ((setLine_line ..).symm.trans hline')
        refine ⟨?_, ⟨[], ?_, fun _ => rfl⟩, [], ?_, fun _ => rfl⟩
        · rw [written_snoc, List.forall_mem_append]
          refine ⟨hcarries, ?_⟩
          simpa [NetworkAct.written?] using hframe
        · rw [receivedOn_snoc, written_snoc, htaken, hinHand, hlost hcut]
          simp [NetworkAct.written?, NetworkAct.receiving, NetworkAct.relay?]
        · have hway : Line.onWay { line with inHand := none, wire := line.wire ++ [message] } =
              line.onWay ++ [frame] := by
            rw [Line.onWay, filterMap_snoc, frame_of_encode hencode]
            rfl
          rw [written_snoc, arrivedAt_snoc, hway, List.map_append, harrived, hlost' hcut]
          simp [NetworkAct.written?, NetworkAct.arriving?, NetworkAct.page?]
    | cut other =>
        cases hsite
        obtain ⟨_, kept, hold, ⟨torn, htorn⟩, rfl⟩ := hs
        obtain rfl := Option.some.inj (hline.symm.trans hold)
        obtain rfl := Option.some.inj ((setLine_line ..).symm.trans hline')
        have hend : ∀ {p : Prop}, true = false → p := by
          intro p hcut
          cases hcut
        refine ⟨?_, ⟨line.inHand.toList ++ lost, ?_, hend⟩, ?_⟩
        · rw [written_snoc]
          simpa [NetworkAct.written?] using hcarries
        · rw [receivedOn_snoc, written_snoc, htaken]
          simp [NetworkAct.written?, NetworkAct.receiving, NetworkAct.relay?]
        · refine ⟨torn.filterMap (fun message => (Ts.Message.binary message).frame?) ++ lost', ?_,
            hend⟩
          rw [written_snoc, arrivedAt_snoc]
          simp only [NetworkAct.written?, Option.toList_none, List.append_nil, harrived, Line.onWay,
            ← htorn, List.filterMap_append, NetworkAct.arriving?, NetworkAct.page?, Option.bind_none,
            List.append_assoc]
    | deliver other message =>
        cases hsite
        obtain ⟨_, rest, _, hold, hwire, -, rfl⟩ := hs
        obtain rfl := Option.some.inj (hline.symm.trans hold)
        obtain rfl := Option.some.inj ((setLine_line ..).symm.trans hline')
        refine ⟨?_, ⟨lost, ?_, hlost⟩, lost', ?_, hlost'⟩
        · rw [written_snoc]
          simpa [NetworkAct.written?] using hcarries
        · rw [receivedOn_snoc, written_snoc, htaken]
          simp [NetworkAct.written?, NetworkAct.receiving, NetworkAct.relay?]
        · have harriving : (NetworkAct.deliver site message).arriving? site =
              (Ts.Message.binary message).frame? := by
            simp [NetworkAct.arriving?, NetworkAct.page?, PageAct.at, Ts.SocketAct.message?]
          rw [written_snoc, arrivedAt_snoc, harriving]
          simp only [NetworkAct.written?, Option.toList_none, List.append_nil, harrived, Line.onWay,
            hwire, filterMap_cons_toList, List.append_assoc]
  · obtain ⟨hsame, hnone⟩ := line_elsewhere hs hsite
    obtain rfl := Option.some.inj (hline.symm.trans (hsame.symm.trans hline'))
    have hwritten : written site (hist ++ [(act, n')]) = written site hist := by
      rw [written_snoc, hnone, Option.toList_none, List.append_nil]
    have hreceived : receivedOn line.conn.2 (hist ++ [(act, n')]) =
        receivedOn line.conn.2 hist := by
      rw [receivedOn_snoc, receiving_elsewhere hlaid hs hsite hline, List.append_nil]
    have harrives : arrivedAt site (hist ++ [(act, n')]) = arrivedAt site hist := by
      rw [arrivedAt_snoc, arriving_elsewhere hs hsite hurl, Option.toList_none, List.append_nil]
    constructor
    · rw [hwritten]
      exact hcarries
    · rw [hwritten, hreceived]
      exact ⟨lost, htaken, hlost⟩
    · rw [hwritten, harrives]
      exact ⟨lost', harrived, hlost'⟩

end Network

end CardTable
