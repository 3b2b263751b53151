import CardTable.Tools
import CardTable.Ts.Canonical
import CardTable.Ts.Preview
import CardTable.Ts.RelayClient

/-!
# Ts.Page — the page of the browser

`apps/client-web/src/store.ts`, with `connect`, `close` and `sendFrame`
of `relay-client.ts`. The page plays a game of its own on the engine it
carries, or shows the game of a relay. Every task of the event loop is a
step; a task that awaits something ends there, and goes on as another.

`JSON.parse` and `JSON.stringify` are parameters; a table state that is
read is taken for a `RoundState`, as the cast in the code does. The times
of the errors are left out.
-/

namespace CardTable

/-- An error code as the protocol writes it. -/
def ErrorCode.text : ErrorCode → String
  | .invalidStakeAmount => "INVALID_STAKE_AMOUNT"
  | .invalidRevealProof => "INVALID_REVEAL_PROOF"
  | .invalidSignature => "INVALID_SIGNATURE"
  | .invalidStateTransition => "INVALID_STATE_TRANSITION"
  | .invalidActionForState => "INVALID_ACTION_FOR_STATE"
  | .invalidBetAmount => "INVALID_BET_AMOUNT"
  | .staleState => "STALE_STATE"
  | .timeoutNotMature => "TIMEOUT_NOT_MATURE"
  | .recoveryNotMature => "RECOVERY_NOT_MATURE"
  | .playerNotSeated => "PLAYER_NOT_SEATED"
  | .playerAlreadySeated => "PLAYER_ALREADY_SEATED"
  | .tableFull => "TABLE_FULL"
  | .tableNotLockable => "TABLE_NOT_LOCKABLE"
  | .seatOutOfRange => "SEAT_OUT_OF_RANGE"
  | .serialisationError => "SERIALISATION_ERROR"

namespace Ts

open Basis

/-! ## The client and its socket -/

/-- `VERSION_1_0`. -/
def version10 : UInt16 := 0x0100

/-- `MsgType.Action`. -/
def msgAction : UInt16 := 0x0302

/-- The promise of `connect`, and whether its await has gone on. -/
inductive Opening where
  | pending
  | resolved
  | rejected (message : String)
  | resumed
  deriving DecidableEq, Repr

/-- Only a pending promise can be settled. -/
def Opening.settle : Opening → Opening → Opening
  | .pending, result => result
  | settled, _ => settled

/-- A `RelayClient` with its socket. -/
structure Client where
  url : String
  digesting : List Digesting
  emitted : List RelayEvent
  /-- the frames handed to the socket -/
  posted : List WireFrame
  /-- the client holds a socket -/
  socket : Bool
  /-- the socket's `readyState` is `OPEN` -/
  isOpen : Bool
  /-- the listener of the page is subscribed -/
  listening : Bool
  opening : Opening
  deriving DecidableEq, Repr

namespace Client

/-- The client with the store its events go to. -/
def atTable (c : Client) (table : TableStore RoundState) : RelayClient RoundState :=
  ⟨c.digesting, c.emitted, table⟩

/-- The frames the client has handed on. -/
def delivered (c : Client) : List WireFrame := c.emitted.filterMap RelayEvent.frame?

/-- `close`. -/
def close (c : Client) : Client := { c with socket := false, isOpen := false }

/-- What the handlers of the socket do beside emitting. -/
def handle (c : Client) : SocketAct → Client
  | .opened => { c with isOpen := true, opening := c.opening.settle .resolved }
  | .closed _ _ => { c with isOpen := false }
  | .failed => { c with isOpen := false, opening := c.opening.settle (.rejected "websocket error") }
  | _ => c

end Client

/-! ## The page -/

/-- A `sendAction` under way: refused, or waiting for the digest of its
frame. -/
inductive Sending where
  | refused (message : String)
  | digest (client : Nat) (frame : WireFrame)
  deriving DecidableEq, Repr

/-- The store, with the variables of its module, the clients it has made
and the sends under way. -/
structure Page where
  table : TableStore RoundState
  ruleSet : RuleSet
  height : SafeNat
  settlement : Option SettlementResult
  relayUrl : Option String
  nonceCounter : Nat
  relay : Option Nat
  clients : List Client
  sending : List Sending
  deriving DecidableEq, Repr

/-- What the page is given: JSON, and what the engine says of a call on a
socket that is `null`. -/
structure Browser where
  json : Json RoundState
  stringify : SignedAction → List UInt8
  nullSocket : String

def zeros : String := String.ofList (List.replicate 64 '0')

/-- A text of two digits, 32 times. -/
def repeat32 (text : String) : String := String.join (List.replicate 32 text)

/-- `GAME_ID`. -/
def pageGame : String := String.ofList (List.replicate 62 '0') ++ "aa"

/-- `RULE_HASH`. -/
def pageRuleHash : String := String.ofList (List.replicate 64 'b')

def startState : RoundState := initialState pageGame pageRuleHash 244

/-- `PUB_0` or `PUB_1`. -/
def pubkeyForSeat (seat : SafeNat) : String :=
  "02" ++ repeat32 (if seat.val = 0 then "00" else "01")

/-- The page when it is loaded. -/
def openPage : Page where
  table := ⟨startState, none, .offline⟩
  ruleSet := defaultRuleSet
  height := 100
  settlement := none
  relayUrl := none
  nonceCounter := 0
  relay := none
  clients := []
  sending := []

/-- `nextNonce`, once the counter is raised. -/
def nonceText (counter : Nat) : Js String :=
  let digits := Nat.toDigits 16 counter
  let hex := String.ofList (List.replicate (64 - digits.length) '0' ++ digits)
  if isHex64 hex then .ok hex else .halt "asActionNonce: expected 64 lowercase hex chars"

/-- What a player does on the page. -/
inductive PlayerAct where
  | seatJoin (seat : SafeNat)
  | tableLock
  | entropyCommit (seat : SafeNat)
  | entropyReveal (seat : SafeNat)
  | revealCard (ordinal : Int)
  | placeBet (amount : SafeNat)
  | pass
  | settle (seat : SafeNat)
  deriving DecidableEq, Repr

/-- `settle` asks `apply` for the settlement. -/
def PlayerAct.settles : PlayerAct → Bool
  | .settle _ => true
  | _ => false

namespace Page

/-- The fields every action of the page has. -/
def base (p : Page) (nonce : String) (seat : Option SafeNat) : SignedActionBase where
  gameId := p.table.state.gameId
  roundNumber := 0
  referencedStateHash := zeros
  actionNonce := nonce
  actingPlayerSeat := seat.map fun seat => (seat.val : Int)
  authorisingSignature := "sig"
  successorStateCommitment := zeros

/-- The seat a bet is placed from. -/
def bettor (p : Page) : SafeNat := p.table.state.actingPlayerSeat.getD 0

/-- The action a player's act stands for. -/
def action (p : Page) (nonce : String) : PlayerAct → Js SignedAction
  | .seatJoin seat => .ok (.join { p.base nonce (some seat) with
      playerPubkey := pubkeyForSeat seat
      stakeAmount := p.ruleSet.stakeAmount.val })
  | .tableLock => .ok (.tableLock (p.base nonce none))
  | .entropyCommit seat => .ok (.entropyCommit { p.base nonce (some seat) with
      commitmentHash := repeat32 "11" })
  | .entropyReveal seat => .ok (.entropyReveal { p.base nonce (some seat) with
      entropy := repeat32 "22" })
  | .revealCard ordinal => do
      let card ← cardFromOrdinal ordinal
      .ok (.cardReveal { p.base nonce none with
        reveal := ⟨ordinal, card, repeat32 "33", repeat32 "44"⟩ })
  | .placeBet amount => .ok (.betAction { p.base nonce (some p.bettor) with betAmount := amount.val })
  | .pass => .ok (.pass (p.base nonce (some p.bettor)))
  | .settle seat => .ok (.settle (p.base nonce (some seat)))

/-- `sendAction` and `sendFrame`, up to the digest. -/
def send (b : Browser) (p : Page) (i : Nat) (a : SignedAction) : Sending :=
  let frame : WireFrame := ⟨version10, msgAction, b.stringify a⟩
  let isOpen := p.clients[i]?.any fun c => c.socket && c.isOpen
  if isOpen = false then .refused "RelayClient.sendFrame: socket not open"
  else match encode frame with
    | .error e => .refused e.message
    | .ok _ => .digest i frame

/-- `lastError` set. -/
def fail (p : Page) (code context : String) : Page :=
  { p with table := { p.table with lastError := some (code, context) } }

/-- `apply`: to the relay when there is one, to the engine otherwise. An
exception leaves the page as it is. -/
def apply (b : Browser) (p : Page) (a : SignedAction) (computeSettle : Bool) : Page :=
  match p.relay with
  | some i => { p with sending := p.sending ++ [p.send b i a] }
  | none =>
      match applyAction p.table.state a p.ruleSet p.height with
      | .halt _ => p
      | .err e => p.fail e.code.text e.context
      | .ok next =>
          let moved := { p with table := { p.table with state := next, lastError := none } }
          if computeSettle && p.table.state.stateClass = .s10SettledRound then
            match computeSettlement p.table.state p.ruleSet with
            | .halt _ => p
            | .err _ => moved
            | .ok settlement => { moved with settlement := some settlement }
          else moved

/-- The counter raised, by `nextNonce`. -/
def raise (p : Page) : Page := { p with nonceCounter := p.nonceCounter + 1 }

/-- The action of an act, under the nonce of the counter. -/
def built (p : Page) (act : PlayerAct) : Js SignedAction := do
  let nonce ← nonceText p.nonceCounter
  p.action nonce act

/-- A player's act. The nonce is taken even if the action cannot be
built. -/
def play (b : Browser) (p : Page) (act : PlayerAct) : Page :=
  match p.raise.built act with
  | .ok a => p.raise.apply b a act.settles
  | _ => p.raise

/-- The client of the page closed, its listener gone. -/
def letGo (p : Page) : List Client :=
  match p.relay with
  | some i => p.clients.modify i fun c => { c.close with listening := false }
  | none => p.clients

def reset (p : Page) : Page :=
  { openPage with clients := p.letGo, sending := p.sending }

def setHeight (p : Page) (h : Int) : Page :=
  match asBlockHeight h with
  | .ok height => { p with height := height }
  | _ => p

/-- `connect` up to its await; `refused` is what `new WebSocket` throws. -/
def connect (p : Page) (url : String) (refused : Option String) : Page :=
  { p with
    table := { p.table with connection := .connecting }
    relayUrl := some url
    relay := some p.clients.length
    clients := p.letGo ++ [{
      url := url
      digesting := []
      emitted := []
      posted := []
      socket := refused.isNone
      isOpen := false
      listening := true
      opening := refused.elim .pending .rejected }] }

def disconnect (p : Page) : Page :=
  { p with
    table := { p.table with connection := .offline }
    relayUrl := none
    relay := none
    clients := p.letGo }

/-- `connect` from its await on, for the client it awaited. -/
def resume (p : Page) (i : Nat) (c : Client) : Option Page :=
  let clients := p.clients.set i { c with opening := .resumed }
  match c.opening with
  | .resolved => some { p with clients, table := { p.table with connection := .online } }
  | .rejected message => some { p with
      clients
      table := { p.table with
        connection := .error
        lastError := some ("STATE_NOT_FOUND", message) } }
  | _ => none

/-- What the page has of a task of a client: the client, and the store if
the listener is there. -/
def heard (p : Page) (i : Nat) (c : Client) (act : SocketAct) (v : RelayClient RoundState) : Page :=
  { p with
    clients := p.clients.set i
      { c.handle act with digesting := v.digesting, emitted := v.emitted }
    table := if c.listening then v.store else p.table }

/-- A send goes on, or the `catch` of `apply` runs. -/
def finish (b : Browser) (p : Page) : Sending → Page
  | .refused message => p.fail "STATE_NOT_FOUND" message
  | .digest i frame =>
      match p.clients[i]?.filter (·.socket) with
      | some c =>
          { p with clients := p.clients.set i { c with posted := c.posted ++ [frame] } }
      | none => p.fail "STATE_NOT_FOUND" b.nullSocket

end Page

/-- What can happen to the page. -/
inductive PageAct where
  | player (act : PlayerAct)
  | setHeight (h : Int)
  | reset
  | connect (url : String) (refused : Option String)
  | disconnect
  /-- the await of a `connect` goes on -/
  | resumed (client : Nat)
  /-- a task of a client's socket or of one of its digests -/
  | socket (client : Nat) (act : SocketAct)
  /-- the socket of a client is no longer open -/
  | closing (client : Nat)
  /-- a send goes on -/
  | sent (place : Nat)
  deriving DecidableEq, Repr

/-- One task of the event loop. -/
def PageStep (b : Browser) (p : Page) : PageAct → Page → Prop
  | .player act, p' => p' = p.play b act
  | .setHeight h, p' => p' = p.setHeight h
  | .reset, p' => p' = p.reset
  | .connect url refused, p' => p' = p.connect url refused
  | .disconnect, p' => p' = p.disconnect
  | .resumed i, p' => ∃ c, p.clients[i]? = some c ∧ p.resume i c = some p'
  | .socket i act, p' => ∃ c v, p.clients[i]? = some c ∧
      RelayClient.Step b.json (c.atTable p.table) act v ∧ p' = p.heard i c act v
  | .closing i, p' => ∃ c, p.clients[i]? = some c ∧
      p' = { p with clients := p.clients.set i { c with isOpen := false } }
  | .sent k, p' => ∃ s, p.sending[k]? = some s ∧
      p' = { p with sending := p.sending.eraseIdx k }.finish b s

end Ts

end CardTable
