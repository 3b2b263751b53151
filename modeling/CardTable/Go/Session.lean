import CardTable.Go.CryptoCards
import CardTable.Go.Engine
import CardTable.Basis.Run

/-!
# Go.Session — the relay's per-game session

`apps/relay-go/internal/session`. A session wraps the engine with a nonce
set, a cryptographic gate and the transcript. The mutex makes each
`Submit` one atomic step, so a session is a state machine over whole
calls.

A call that reports an error leaves the session as it was; a call that
does not return (the shuffle may loop) holds the lock for ever and is no
step at all.
-/

namespace CardTable.Go

open Basis Cards

/-- `Session`, without its mutex. -/
structure Session where
  gameId : String
  ruleSet : RuleSet
  state : RoundState
  seenNonces : List String
  transcript : List SignedAction
  heights : List UInt32
  deriving DecidableEq

namespace Session

/-- `New`: a session in the initial S1 state. -/
def new (gameId : String) (ruleSet : RuleSet) (ruleSetHash : String)
    (recoveryDeadline : UInt32) : Session where
  gameId := gameId
  ruleSet := ruleSet
  state := initialState gameId ruleSetHash recoveryDeadline
  seenNonces := []
  transcript := []
  heights := []

/-- `hex.DecodeString` followed by the check for 32 bytes. -/
def decodeBytes32 (s : String) : Option (List UInt8) :=
  match Hex.decode s with
  | none => none
  | some b => if b.length = 32 then some b else none

/-! ## The deck commitment -/

/-- The inner loop of the sort on the part already sorted, largest seat
first: `x` moves left past every larger seat. -/
def sinkPlayer : List PlayerState → PlayerState → List PlayerState
  | [], x => [x]
  | y :: ys, x => if x.seat < y.seat then y :: sinkPlayer ys x else x :: y :: ys

/-- The players by seat: insertion sort. -/
def sortPlayers (players : List PlayerState) : List PlayerState :=
  (players.foldl sinkPlayer []).reverse

/-- The loop that collects the entropies of the sorted players. -/
def collectEntropies : List PlayerState → Except ProtocolError (List (List UInt8))
  | [] => .ok []
  | p :: rest =>
      if p.entropyValue = "" then
        .error ⟨.invalidStateTransition, "missing entropy_value at S5"⟩
      else match decodeBytes32 p.entropyValue with
      | none => .error ⟨.serialisationError, "entropy_value not 32-byte hex"⟩
      | some e =>
        match collectEntropies rest with
        | .error e => .error e
        | .ok entropies => .ok (e :: entropies)

/-- `materialiseDeckCommitment`: derive the combined entropy and the deck
commitment from the revealed entropies and stamp them onto the state. -/
def materialiseDeckCommitment (ruleSet : RuleSet) (state : RoundState) :
    Call ProtocolError RoundState :=
  match collectEntropies (sortPlayers state.players) with
  | .error e => .err e
  | .ok entropies =>
    match combineEntropy entropies with
    | .error msg => .err ⟨.invalidStateTransition, msg⟩
    | .ok combined =>
      match buildDeckCommitment combined ruleSet.deckFormat ruleSet.shuffleAlgorithmVersion with
      | .halt k => .halt k
      | .err msg => .err ⟨.invalidStateTransition, msg⟩
      | .ok dc =>
          .ok { state with
            combinedEntropy := Hex.encode combined
            deckCommitmentHash := Hex.encode dc.deckCommitmentHash }

/-! ## The gate -/

/-- The commitment and the key stored for a seat; both are empty when
nobody sits there. -/
def storedCommitment (players : List PlayerState) (seat : Int) : String × String :=
  match players.find? (fun p => p.seat == seat) with
  | none => ("", "")
  | some p => (p.entropyCommitmentHash, p.valueSigningPubkey)

/-- `verifyCrypto` on an `EntropyCommit`: the shape of the commitment. -/
def checkEntropyCommit (a : SignedAction) : Call ProtocolError Unit :=
  if Hex.decode a.commitmentHash = none ∨ a.commitmentHash.utf8ByteSize ≠ 64 then
    .err ⟨.invalidSignature, "commitment_hash must be 64-char hex"⟩
  else .ok ()

/-- `verifyCrypto` on an `EntropyReveal`: the entropy must hash back to
the commitment stored for the seat. -/
def checkEntropyReveal (s : Session) (a : SignedAction) : Call ProtocolError Unit :=
  match a.actingPlayerSeat with
  | none => .err ⟨.seatOutOfRange, "EntropyReveal requires acting_player_seat"⟩
  | some seat =>
    let (stored, pubkey) := storedCommitment s.state.players seat
    if stored = "" then
      .err ⟨.invalidStateTransition, "no prior commitment for this seat"⟩
    else match Hex.decode stored with
    | none => .err ⟨.serialisationError, "stored commitment is not valid hex"⟩
    | some commitmentBytes =>
      match decodeBytes32 a.entropy with
      | none => .err ⟨.invalidRevealProof, "entropy must be 32-byte hex"⟩
      | some entropyBytes =>
        match Hex.decode pubkey with
        | none => .err ⟨.serialisationError, "player pubkey not hex-decodable"⟩
        | some playerIdBytes =>
          if playerIdBytes.length < 32 then
            .err ⟨.serialisationError, "player pubkey not hex-decodable"⟩
          else match decodeBytes32 s.gameId with
          | none => .err ⟨.serialisationError, "game_id is not 32-byte hex"⟩
          | some gameIdBytes =>
            match verifyEntropyReveal commitmentBytes entropyBytes
                (playerIdBytes.drop (playerIdBytes.length - 32)) gameIdBytes with
            | .error msg => .err ⟨.invalidRevealProof, msg⟩
            | .ok false =>
                .err ⟨.invalidRevealProof, "entropy does not match prior commitment"⟩
            | .ok true => .ok ()

/-- `verifyCrypto` on a `CardReveal`: the card must open the position of
the committed deck. -/
def checkCardReveal (s : Session) (a : SignedAction) : Call ProtocolError Unit :=
  if s.state.combinedEntropy = "" then
    .err ⟨.invalidStateTransition, "no combined entropy yet"⟩
  else match decodeBytes32 s.state.combinedEntropy with
  | none => .err ⟨.serialisationError, "combined_entropy not 32-byte hex"⟩
  | some combined =>
    match buildDeckCommitment combined s.ruleSet.deckFormat s.ruleSet.shuffleAlgorithmVersion with
    | .halt k => .halt k
    | .err msg => .err ⟨.invalidStateTransition, msg⟩
    | .ok dc =>
      let pos := a.reveal.position
      match (if pos < 0 then none else dc.perPosition[pos.toNat]?) with
      | none => .err ⟨.invalidRevealProof, s!"position {pos} out of range"⟩
      | some row =>
        match decodeBytes32 a.reveal.cardNonce with
        | none => .err ⟨.serialisationError, "card_nonce not 32-byte hex"⟩
        | some cardNonce =>
          match decodeBytes32 a.reveal.deckNonce with
          | none => .err ⟨.serialisationError, "deck_nonce not 32-byte hex"⟩
          | some deckNonce =>
            match verifyRevealProof row.commitment a.reveal.revealedCard.ordinal cardNonce
                deckNonce with
            | .error msg => .err ⟨.invalidRevealProof, msg⟩
            | .ok false =>
                .err ⟨.invalidRevealProof, "card reveal does not match deck commitment"⟩
            | .ok true => .ok ()

/-- `verifyCrypto`. -/
def verifyCrypto (s : Session) (a : SignedAction) : Call ProtocolError Unit :=
  match a.actionType with
  | .entropyCommit => checkEntropyCommit a
  | .entropyReveal => checkEntropyReveal s a
  | .cardReveal => checkCardReveal s a
  | _ => .ok ()

/-! ## Submit and Replay -/

/-- The S4 to S5 transition has just been taken and the deck is not yet
bound. -/
def Unbound (prior next : RoundState) : Prop :=
  prior.stateClass = .s4EntropyRevealWindow ∧ next.stateClass = .s5DeckCommitted ∧
    next.combinedEntropy = ""

instance (prior next : RoundState) : Decidable (Unbound prior next) :=
  inferInstanceAs (Decidable (_ ∧ _ ∧ _))

/-- The patch `Submit` makes to the engine's successor. -/
def bindDeck (ruleSet : RuleSet) (prior next : RoundState) : Call ProtocolError RoundState :=
  if Unbound prior next then materialiseDeckCommitment ruleSet next else .ok next

/-- `Submit`: the nonce, the gate, the engine, the deck commitment. A
rejected call returns the session's state with its error and changes
nothing. -/
def submit (s : Session) (action : SignedAction) (height : UInt32) :
    Call ProtocolError Session :=
  if action.actionNonce ∈ s.seenNonces then
    .err ⟨.staleState, "action nonce already accepted"⟩
  else do
    s.verifyCrypto action
    let next ← Outcome.ofExcept (applyAction s.state action s.ruleSet height)
    let next ← bindDeck s.ruleSet s.state next
    pure { s with
      state := next
      seenNonces := action.actionNonce :: s.seenNonces
      transcript := s.transcript ++ [action]
      heights := s.heights ++ [height] }

/-- **Inversion of `Submit`**: an accepted call passed the nonce check,
the gate and the engine, and its successor is the engine's, with the deck
bound at the S4 to S5 transition. -/
theorem submit_eq_ok {s s' : Session} {a : SignedAction} {height : UInt32} :
    s.submit a height = .ok s' ↔
      a.actionNonce ∉ s.seenNonces ∧ s.verifyCrypto a = .ok () ∧
        ∃ next final, applyAction s.state a s.ruleSet height = .ok next ∧
          bindDeck s.ruleSet s.state next = .ok final ∧
          s' = { s with
            state := final
            seenNonces := a.actionNonce :: s.seenNonces
            transcript := s.transcript ++ [a]
            heights := s.heights ++ [height] } := by
  simp only [submit]
  split
  · rename_i hseen
    simp [hseen]
  · rename_i hfresh
    simp only [Outcome.bind_eq_ok, Outcome.pure_eq, Outcome.ofExcept_eq_ok, Outcome.ok.injEq,
      hfresh, not_false_eq_true, true_and]
    constructor
    · intro h
      obtain ⟨_, hgate, next, hnext, final, hfinal, rfl⟩ := h
      exact ⟨hgate, next, final, hnext, hfinal, rfl⟩
    · intro h
      obtain ⟨hgate, next, final, hnext, hfinal, rfl⟩ := h
      exact ⟨(), hgate, next, hnext, final, hfinal, rfl⟩

/-- What `materialiseDeckCommitment` leaves: the state with the two
fields filled in. -/
theorem materialise_eq_ok {ruleSet : RuleSet} {state final : RoundState}
    (h : materialiseDeckCommitment ruleSet state = .ok final) :
    ∃ entropies dc, collectEntropies (sortPlayers state.players) = .ok entropies ∧
      combineEntropy entropies = .ok (combinedSeed entropies) ∧
      buildDeckCommitment (combinedSeed entropies) ruleSet.deckFormat
        ruleSet.shuffleAlgorithmVersion = .ok dc ∧
      final = { state with
        combinedEntropy := Hex.encode (combinedSeed entropies)
        deckCommitmentHash := Hex.encode dc.deckCommitmentHash } := by
  simp only [materialiseDeckCommitment] at h
  split at h
  · cases h
  · rename_i entropies hentropies
    split at h
    · cases h
    · rename_i combined hcombined
      obtain rfl : combined = combinedSeed entropies := (combineEntropy_eq_ok hcombined).2.2
      split at h
      · cases h
      · cases h
      · rename_i dc hdc
        cases h
        exact ⟨entropies, dc, hentropies, hcombined, hdc, rfl⟩

/-- `Session.Replay`: the recorded transcript from a fresh initial state,
through the bare engine. -/
def replay (s : Session) (ruleSetHash : String) (recoveryDeadline : UInt32) :
    RoundState × Option ProtocolError :=
  let initial := initialState s.gameId ruleSetHash recoveryDeadline
  let (state, _, perr) := Go.replay initial s.ruleSet s.transcript s.heights
  (state, perr)

/-! ## Runs -/

/-- One call of `Submit` that returns: accepted, or rejected with the
session as it was. -/
def Step (s : Session) (call : SignedAction × UInt32) (s' : Session) : Prop :=
  s.submit call.1 call.2 = .ok s' ∨ ∃ e, s.submit call.1 call.2 = .err e ∧ s' = s

/-- The runs of a new session. -/
abbrev Run (gameId : String) (ruleSet : RuleSet) (ruleSetHash : String)
    (recoveryDeadline : UInt32) : List ((SignedAction × UInt32) × Session) → Session → Prop :=
  Path Step (Session.new gameId ruleSet ruleSetHash recoveryDeadline)

/-- Run a list of calls, all of which must be accepted. -/
def playCalls (s : Session) (calls : List (SignedAction × UInt32)) :
    Option (List ((SignedAction × UInt32) × Session) × Session) :=
  play (fun s call => (s.submit call.1 call.2).value?) s calls

/-- Calls that are all accepted are a run. -/
theorem run_of_playCalls {gameId : String} {ruleSet : RuleSet} {ruleSetHash : String}
    {recoveryDeadline : UInt32} {calls : List (SignedAction × UInt32)}
    {hist : List ((SignedAction × UInt32) × Session)} {s : Session}
    (h : playCalls (new gameId ruleSet ruleSetHash recoveryDeadline) calls = some (hist, s)) :
    Run gameId ruleSet ruleSetHash recoveryDeadline hist s := by
  have hpath := path_of_play h
  simp only [Outcome.value?_eq_some] at hpath
  exact hpath.mono (fun hstep => .inl hstep)

end Session

/-! ## A sample game

Two players under the rule set the audit tools are built with, up to the
last reveal. The commitments are the SHA-256 digests of the entropies,
the tails of the keys and the game id. -/

/-- `rs` of `cmd/indexer`. -/
def defaultRuleSet : RuleSet where
  playerCountMin := 2
  playerCountMax := 4
  stakeAmount := 1000
  minBet := 1
  maxBet := 100
  deckFormat := 52
  shuffleAlgorithmVersion := 1
  settlementRules :=
    { inBetweenWinMultiplier := 1
      inBetweenLossMultiplier := 1
      consecutiveCardsPenalty := 50
      equalCardsPenalty := 100 }

/-- A hex digit 64 times. -/
def hex64 (c : Char) : String := String.ofList (List.replicate 64 c)

def sampleGame : String := hex64 '0'

/-- The two players take their seats, lock the table, commit and reveal;
all at height 100. -/
def sampleCalls : List (SignedAction × UInt32) :=
  [ { bareAction sampleGame .join (some 0) with
      actionNonce := "1", playerPubkey := "02" ++ hex64 'c', stakeAmount := 1000 },
    { bareAction sampleGame .join (some 1) with
      actionNonce := "2", playerPubkey := "02" ++ hex64 'd', stakeAmount := 1000 },
    { bareAction sampleGame .tableLock none with actionNonce := "3" },
    { bareAction sampleGame .entropyCommit (some 0) with
      actionNonce := "4"
      commitmentHash := "9c25fd300230db19bb471fab435fcf7a6d03f773dfe99fa7dff659e4ca2a48a7" },
    { bareAction sampleGame .entropyCommit (some 1) with
      actionNonce := "5"
      commitmentHash := "e49681fb5b85053c9315f57d1e6bc12900f6d70a0261835e10624718deb9d33e" },
    { bareAction sampleGame .entropyReveal (some 0) with
      actionNonce := "6", entropy := hex64 'a' },
    { bareAction sampleGame .entropyReveal (some 1) with
      actionNonce := "7", entropy := hex64 'b' } ].map (·, 100)

end CardTable.Go
