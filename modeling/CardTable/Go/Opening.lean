import CardTable.Go.Completion

/-!
# Go.Opening — a table whose players follow the protocol

What players who follow the protocol send up to the deck: each his join,
his commitment and his entropy, under nonces of their own. No order of
the commitments and no order of the entropies gets in the way, and no
height does; what the orders leave is one deck, that of the seats.
-/

namespace CardTable.Go.Session

open Basis Cards

/-- What a call is stamped with: its nonce, and the height it comes at. -/
structure Stamp where
  nonce : String
  height : UInt32

/-- A player who follows the protocol. -/
structure HonestPlayer where
  seat : Int
  pubkey : String
  key : List UInt8
  keyHex : Hex.decode pubkey = some key
  keyLong : 32 ≤ key.length
  entropy : List UInt8
  entropyLong : entropy.length = 32
  join : Stamp
  commit : Stamp
  reveal : Stamp

/-- A table of such players, with everything a lock asks for. -/
structure HonestTable (gameId : String) (ruleSet : RuleSet) where
  game : List UInt8
  gameHex : decodeBytes32 gameId = some game
  players : List HonestPlayer
  seats : (players.map (·.seat)).Nodup
  seated : players ≠ []
  enough : ruleSet.playerCountMin ≤ players.length
  room : (players.length : Int) ≤ ruleSet.playerCountMax
  lock : Stamp

variable {gameId : String} {ruleSet : RuleSet}

namespace HonestTable

/-- What a player commits to. -/
def commitment (t : HonestTable gameId ruleSet) (p : HonestPlayer) : List UInt8 :=
  entropyCommitment p.entropy (p.key.drop (p.key.length - 32)) t.game

def joinCall (_ : HonestTable gameId ruleSet) (p : HonestPlayer) : SignedAction × UInt32 :=
  ({ bareAction gameId .join (some p.seat) with
      actionNonce := p.join.nonce
      playerPubkey := p.pubkey
      stakeAmount := ruleSet.stakeAmount }, p.join.height)

def lockCall (t : HonestTable gameId ruleSet) : SignedAction × UInt32 :=
  ({ bareAction gameId .tableLock none with actionNonce := t.lock.nonce }, t.lock.height)

def commitCall (t : HonestTable gameId ruleSet) (p : HonestPlayer) : SignedAction × UInt32 :=
  ({ bareAction gameId .entropyCommit (some p.seat) with
      actionNonce := p.commit.nonce
      commitmentHash := Hex.encode (t.commitment p) }, p.commit.height)

def revealCall (_ : HonestTable gameId ruleSet) (p : HonestPlayer) : SignedAction × UInt32 :=
  ({ bareAction gameId .entropyReveal (some p.seat) with
      actionNonce := p.reveal.nonce
      entropy := Hex.encode p.entropy }, p.reveal.height)

/-- The calls of an opening: the joins, the lock, and the commitments and
the entropies in the orders they come in. -/
def calls (t : HonestTable gameId ruleSet) (commits reveals : List HonestPlayer) :
    List (SignedAction × UInt32) :=
  t.players.map t.joinCall ++ t.lockCall :: (commits.map t.commitCall ++ reveals.map t.revealCall)

/-- The players by seat. -/
def ring (t : HonestTable gameId ruleSet) : List HonestPlayer :=
  t.players.insertionSort (fun p q => p.seat ≤ q.seat)

/-- The seed of the deck. -/
def seed (t : HonestTable gameId ruleSet) : List UInt8 :=
  combinedSeed (t.ring.map (·.entropy))

/-- What the engine holds of a player while those on the seats `commits`
have yet to commit and those on `reveals` have yet to reveal. -/
def record (t : HonestTable gameId ruleSet) (commits reveals : List Int) (p : HonestPlayer) :
    PlayerState where
  seat := p.seat
  playerId := p.pubkey
  valueSigningPubkey := p.pubkey
  participationStatus := if p.seat ∈ reveals then .joined else .active
  stakeAtRisk := ruleSet.stakeAmount
  stakeOutpoint := ""
  entropyCommitted := decide (p.seat ∉ commits)
  entropyCommitmentHash := if p.seat ∈ commits then "" else Hex.encode (t.commitment p)
  entropyRevealed := decide (p.seat ∉ reveals)
  entropyValue := if p.seat ∈ reveals then "" else Hex.encode p.entropy
  concealedCardRefs := []
  defaultPreferences := []

/-- A session on the way to its deck: who is seated, who has yet to
commit and to reveal, and the calls still to come. -/
structure Stage (t : HonestTable gameId ruleSet) (seated : List HonestPlayer)
    (commits reveals : List Int) (pending : List (SignedAction × UInt32)) (sc : StateClass)
    (s : Session) : Prop where
  game : s.gameId = gameId
  stateGame : s.state.gameId = gameId
  rules : s.ruleSet = ruleSet
  players : s.state.players = seated.map (t.record commits reveals)
  phase : s.state.stateClass = sc
  combined : s.state.combinedEntropy =
    if sc = .s5DeckCommitted then Hex.encode t.seed else ""
  distinct : (pending.map (·.1.actionNonce)).Nodup
  fresh : ∀ call ∈ pending, call.1.actionNonce ∉ s.seenNonces

/-! ## Players of a table -/

variable {t : HonestTable gameId ruleSet} {commits reveals commits' reveals' : List Int}
  {p : HonestPlayer}

theorem eq_of_seat {q : HonestPlayer} (hp : p ∈ t.players) (hq : q ∈ t.players)
    (h : q.seat = p.seat) : q = p :=
  List.inj_on_of_nodup_map t.seats hq hp h

/-- The player of a seat is found there. -/
theorem findSeat_record (commits reveals : List Int) (hp : p ∈ t.players) :
    ∃ idx, t.players[idx]? = some p ∧
      findSeat (t.players.map (t.record commits reveals)) p.seat =
        some (idx, t.record commits reveals p) := by
  have hsome : ((t.players.map (t.record commits reveals)).findIdx?
      fun q => q.seat == p.seat).isSome := by
    rw [List.findIdx?_isSome]
    exact List.any_eq_true.mpr ⟨_, List.mem_map_of_mem hp, by simp [record]⟩
  obtain ⟨idx, hidx⟩ := Option.isSome_iff_exists.mp hsome
  obtain ⟨hlt, hseat, -⟩ := List.findIdx?_eq_some_iff_getElem.mp hidx
  rw [List.getElem_map] at hseat
  have hlt' : idx < t.players.length := by simpa using hlt
  have hsame : t.players[idx] = p :=
    eq_of_seat hp (List.getElem_mem hlt') (by simpa [record] using hseat)
  have hget : t.players[idx]? = some p := by rw [List.getElem?_eq_getElem hlt', hsame]
  refine ⟨idx, hget, ?_⟩
  simp [findSeat, hidx, hget]

/-- Who has yet to commit and to reveal, in whatever order. -/
theorem record_congr (hc : ∀ seat, seat ∈ commits ↔ seat ∈ commits')
    (hr : ∀ seat, seat ∈ reveals ↔ seat ∈ reveals') :
    t.record commits reveals = t.record commits' reveals' := by
  funext p
  simp only [record, hc, hr]

/-- Filling in the player of a seat leaves the others as they are. -/
theorem set_record {idx : Nat} {x : PlayerState}
    (hidx : t.players[idx]? = some p) (hx : x = t.record commits' reveals' p)
    (hothers : ∀ q : HonestPlayer, q.seat ≠ p.seat →
      t.record commits reveals q = t.record commits' reveals' q) :
    (t.players.map (t.record commits reveals)).set idx x =
      t.players.map (t.record commits' reveals') := by
  apply List.ext_getElem?
  intro j
  rw [List.getElem?_set, List.getElem?_map, List.getElem?_map]
  by_cases hj : idx = j
  · subst hj
    obtain ⟨hlt, hget⟩ := List.getElem?_eq_some_iff.mp hidx
    simp [hx, hlt, hget]
  · rw [if_neg hj]
    cases hq : t.players[j]? with
    | none => rfl
    | some q =>
        have hne : q.seat ≠ p.seat := by
          intro hseat
          have hsame := eq_of_seat (List.mem_of_getElem? hidx) (List.mem_of_getElem? hq) hseat
          subst hsame
          obtain ⟨hlt, hget⟩ := List.getElem?_eq_some_iff.mp hidx
          obtain ⟨hlt', hget'⟩ := List.getElem?_eq_some_iff.mp hq
          have hnodup := List.Nodup.of_map _ t.seats
          exact hj ((List.Nodup.getElem_inj_iff hnodup).mp (hget.trans hget'.symm))
        simp [hothers q hne]

/-- Everybody has committed once no seat is left. -/
theorem all_committed (reveals : List Int) (h : ∀ seat ∈ commits, seat ∈ t.players.map (·.seat)) :
    (t.players.map (t.record commits reveals)).all (·.entropyCommitted) = decide (commits = []) := by
  rw [Bool.eq_iff_iff, List.all_map, List.all_eq_true, decide_eq_true_eq]
  constructor
  · intro hall
    refine List.eq_nil_iff_forall_not_mem.mpr ?_
    intro seat hseat
    obtain ⟨p, hp, rfl⟩ := List.mem_map.mp (h seat hseat)
    exact absurd hseat (of_decide_eq_true (hall p hp))
  · intro hnil
    subst hnil
    intro p _
    simp [record]

theorem all_revealed (commits : List Int) (h : ∀ seat ∈ reveals, seat ∈ t.players.map (·.seat)) :
    (t.players.map (t.record commits reveals)).all (·.entropyRevealed) = decide (reveals = []) := by
  rw [Bool.eq_iff_iff, List.all_map, List.all_eq_true, decide_eq_true_eq]
  constructor
  · intro hall
    refine List.eq_nil_iff_forall_not_mem.mpr ?_
    intro seat hseat
    obtain ⟨p, hp, rfl⟩ := List.mem_map.mp (h seat hseat)
    exact absurd hseat (of_decide_eq_true (hall p hp))
  · intro hnil
    subst hnil
    intro p _
    simp [record]

/-! ## The calls, one by one -/

variable {seated seated' : List HonestPlayer} {pending : List (SignedAction × UInt32)}
  {call : SignedAction × UInt32} {sc sc' : StateClass} {s s' : Session}

theorem Stage.reorder (h : Stage t seated commits reveals pending sc s)
    (hc : ∀ seat, seat ∈ commits ↔ seat ∈ commits') (hr : ∀ seat, seat ∈ reveals ↔ seat ∈ reveals') :
    Stage t seated commits' reveals' pending sc s where
  game := h.game
  stateGame := h.stateGame
  rules := h.rules
  players := record_congr (t := t) hc hr ▸ h.players
  phase := h.phase
  combined := h.combined
  distinct := h.distinct
  fresh := h.fresh

/-- A call that is accepted. -/
def Takes (s : Session) (call : SignedAction × UInt32) (s' : Session) : Prop :=
  s.submit call.1 call.2 = .ok s'

/-- What the gate, the engine and the binding make of the next call. -/
theorem Stage.takes {next final : RoundState}
    (h : Stage t seated commits reveals (call :: pending) sc s)
    (hgate : s.verifyCrypto call.1 = .ok ())
    (hnext : applyAction s.state call.1 ruleSet call.2 = .ok next)
    (hbind : bindDeck ruleSet s.state next = .ok final) (hgame : final.gameId = gameId)
    (hplayers : final.players = seated'.map (t.record commits' reveals'))
    (hphase : final.stateClass = sc')
    (hcombined : final.combinedEntropy =
      if sc' = .s5DeckCommitted then Hex.encode t.seed else "") :
    ∃ s', Takes s call s' ∧ Stage t seated' commits' reveals' pending sc' s' := by
  have hrules := h.rules
  refine ⟨_, submit_eq_ok.mpr ⟨h.fresh _ List.mem_cons_self, hgate, next, final,
    hrules ▸ hnext, hrules ▸ hbind, rfl⟩, ?_⟩
  have hdistinct := h.distinct
  rw [List.map_cons, List.nodup_cons] at hdistinct
  refine ⟨h.game, hgame, hrules, hplayers, hphase, hcombined, hdistinct.2, ?_⟩
  intro other hother hseen
  rcases List.mem_cons.mp hseen with hsame | hseen
  · exact hdistinct.1 (hsame ▸ List.mem_map_of_mem hother)
  · exact h.fresh other (List.mem_cons_of_mem _ hother) hseen

/-- The seats of a table. -/
def allSeats (t : HonestTable gameId ruleSet) : List Int := t.players.map (·.seat)

theorem bindDeck_of_class {prior next : RoundState}
    (h : prior.stateClass ≠ .s4EntropyRevealWindow) : bindDeck ruleSet prior next = .ok next := by
  have hnot : ¬Unbound prior next := fun hx => h hx.1
  rw [bindDeck, if_neg hnot]

theorem Stage.join (h : Stage t seated t.allSeats t.allSeats (t.joinCall p :: pending) .s1SeatOpen s)
    (hp : p ∈ t.players) (hroom : (seated.length : Int) < ruleSet.playerCountMax)
    (hnew : ∀ q ∈ seated, q.seat ≠ p.seat) :
    ∃ s', Takes s (t.joinCall p) s' ∧
      Stage t (seated ++ [p]) t.allSeats t.allSeats pending .s1SeatOpen s' := by
  have hfree : (s.state.players.any fun q => q.seat == p.seat) = false := by
    rw [h.players, List.any_eq_false]
    intro q hq
    obtain ⟨r, hr, rfl⟩ := List.mem_map.mp hq
    simpa [record] using hnew r hr
  have hlen : ¬ruleSet.playerCountMax ≤ (s.state.players.length : Int) := by
    rw [h.players, List.length_map]
    omega
  have hnext : applyAction s.state (t.joinCall p).1 ruleSet (t.joinCall p).2 =
      .ok { s.state with
        players := s.state.players ++ [joinedPlayer (t.joinCall p).1 p.seat]
        priorStateHash := some s.state.stateHash } := by
    simp [applyAction, joinCall, bareAction, h.stateGame, h.phase, getLegalActions, applyJoin, hlen,
      hfree]
  refine h.takes rfl hnext (bindDeck_of_class (by rw [h.phase]; decide)) h.stateGame ?_ h.phase
    h.combined
  have hseat : p.seat ∈ t.allSeats := List.mem_map_of_mem hp
  simp [h.players, joinedPlayer, joinCall, bareAction, record, hseat]

theorem Stage.lock
    (h : Stage t t.players t.allSeats t.allSeats (t.lockCall :: pending) .s1SeatOpen s) :
    ∃ s', Takes s t.lockCall s' ∧
      Stage t t.players t.allSeats t.allSeats pending .s3EntropyCommitWindow s' := by
  have hlen : ¬(s.state.players.length : Int) < ruleSet.playerCountMin := by
    have := t.enough
    rw [h.players, List.length_map]
    omega
  have hnext : applyAction s.state t.lockCall.1 ruleSet t.lockCall.2 =
      .ok (s.state.advance .s3EntropyCommitWindow) := by
    simp [applyAction, lockCall, bareAction, h.stateGame, h.phase, getLegalActions, applyTableLock,
      hlen]
  exact h.takes rfl hnext (bindDeck_of_class (by rw [h.phase]; decide)) h.stateGame h.players rfl
    h.combined

/-- The class after a window: the next one once nobody is left. -/
def windowClass (rest : List Int) (here after : StateClass) : StateClass :=
  if rest = [] then after else here

theorem Stage.commit {rest : List Int}
    (h : Stage t t.players (p.seat :: rest) t.allSeats (t.commitCall p :: pending)
      .s3EntropyCommitWindow s)
    (hp : p ∈ t.players) (hrest : ∀ seat ∈ rest, seat ∈ t.allSeats) (hnot : p.seat ∉ rest) :
    ∃ s', Takes s (t.commitCall p) s' ∧ Stage t t.players rest t.allSeats pending
      (windowClass rest .s3EntropyCommitWindow .s4EntropyRevealWindow) s' := by
  obtain ⟨idx, hidx, hfind⟩ := findSeat_record (p.seat :: rest) t.allSeats hp
  have hseat : p.seat ∈ t.allSeats := List.mem_map_of_mem hp
  have hset : (t.players.map (t.record (p.seat :: rest) t.allSeats)).set idx
      { t.record (p.seat :: rest) t.allSeats p with
        entropyCommitted := true
        entropyCommitmentHash := Hex.encode (t.commitment p) } =
      t.players.map (t.record rest t.allSeats) := by
    refine set_record hidx ?_ ?_
    · simp [record, hnot]
    · intro q hq
      simp [record, hq]
  have hgate : s.verifyCrypto (t.commitCall p).1 = .ok () := by
    show checkEntropyCommit (t.commitCall p).1 = .ok ()
    have hdecode : Hex.decode (Hex.encode (t.commitment p)) = some (t.commitment p) :=
      Hex.decode_encode _
    have hsize := Hex.utf8ByteSize_of_decode hdecode
    have hlen : (t.commitment p).length = 32 := Sha256.length_sha256 _
    simp [checkEntropyCommit, commitCall, hdecode, hsize, hlen]
  have hall := all_committed t.allSeats hrest
  have hnext : applyAction s.state (t.commitCall p).1 ruleSet (t.commitCall p).2 =
      .ok { s.state.advance (windowClass rest .s3EntropyCommitWindow .s4EntropyRevealWindow) with
        players := t.players.map (t.record rest t.allSeats) } := by
    have hcommitted : (t.record (p.seat :: rest) t.allSeats p).entropyCommitted = false := by
      simp [record]
    simp [applyAction, commitCall, bareAction, h.stateGame, h.phase, getLegalActions,
      applyEntropyCommit, h.players, hfind, hcommitted, hset, hall, windowClass]
  refine h.takes hgate hnext (bindDeck_of_class (by rw [h.phase]; decide)) h.stateGame rfl rfl ?_
  have hcombined : s.state.combinedEntropy = "" := h.combined
  rw [windowClass]
  split
  · exact hcombined
  · exact hcombined

/-- The entropy of a player opens what he has committed to. -/
theorem Stage.opens (h : Stage t t.players [] reveals pending sc s) (hp : p ∈ t.players) :
    s.checkEntropyReveal (t.revealCall p).1 = .ok () := by
  obtain ⟨idx, -, hfind⟩ := findSeat_record [] reveals hp
  have hstored : storedCommitment s.state.players p.seat =
      (Hex.encode (t.commitment p), p.pubkey) := by
    rw [storedCommitment, h.players, find?_of_findSeat hfind]
    rfl
  have hlen : (t.commitment p).length = 32 := Sha256.length_sha256 _
  have hne : Hex.encode (t.commitment p) ≠ "" := by
    intro hempty
    rw [Hex.encode_eq_empty_iff.mp hempty] at hlen
    cases hlen
  have hentropy : decodeBytes32 (Hex.encode p.entropy) = some p.entropy :=
    decodeBytes32_eq_some.mpr ⟨Hex.decode_encode _, p.entropyLong⟩
  have hkey : ¬p.key.length < 32 := Nat.not_lt.mpr p.keyLong
  have htail : (p.key.drop (p.key.length - 32)).length = 32 := by
    have := p.keyLong
    rw [List.length_drop]
    omega
  have hverified : verifyEntropyReveal (t.commitment p) p.entropy
      (p.key.drop (p.key.length - 32)) t.game = .ok true := by
    rw [verifyEntropyReveal, commitEntropy_eq_ok p.entropyLong htail
      (decodeBytes32_eq_some.mp t.gameHex).2]
    simp [commitment]
  simp [checkEntropyReveal, revealCall, bareAction, hstored, hne, Hex.decode_encode, hentropy,
    p.keyHex, hkey, h.game, t.gameHex, hverified]

/-- The engine's answer to an entropy. -/
theorem Stage.revealed {rest : List Int}
    (h : Stage t t.players [] (p.seat :: rest) pending .s4EntropyRevealWindow s)
    (hp : p ∈ t.players) (hrest : ∀ seat ∈ rest, seat ∈ t.allSeats) (hnot : p.seat ∉ rest) :
    applyAction s.state (t.revealCall p).1 ruleSet (t.revealCall p).2 =
      .ok { s.state.advance (windowClass rest .s4EntropyRevealWindow .s5DeckCommitted) with
        players := t.players.map (t.record [] rest) } := by
  obtain ⟨idx, hidx, hfind⟩ := findSeat_record [] (p.seat :: rest) hp
  have hset : (t.players.map (t.record [] (p.seat :: rest))).set idx
      { t.record [] (p.seat :: rest) p with
        entropyCommitted := true
        entropyRevealed := true
        entropyValue := Hex.encode p.entropy
        participationStatus := .active } = t.players.map (t.record [] rest) := by
    refine set_record hidx ?_ ?_
    · simp [record, hnot]
    · intro q hq
      simp [record, hq]
  have hcommitted : (t.record [] (p.seat :: rest) p).entropyCommitted = true := by simp [record]
  have hwaiting : (t.record [] (p.seat :: rest) p).entropyRevealed = false := by simp [record]
  have hall := all_revealed [] hrest
  simp [applyAction, revealCall, bareAction, h.stateGame, h.phase, getLegalActions,
    applyEntropyReveal, h.players, hfind, hcommitted, hwaiting, hset, hall, windowClass]

/-! ## The deck -/

/-- The engine's sort is the ring of the table. -/
theorem sortPlayers_record :
    sortPlayers (t.players.map (t.record commits reveals)) = t.ring.map (t.record commits reveals) := by
  have hperm : (sortPlayers (t.players.map (t.record commits reveals))).Perm
      (t.ring.map (t.record commits reveals)) :=
    (sortPlayers_perm _).trans ((List.perm_insertionSort _ t.players).symm.map _)
  have hring : (t.ring.map (t.record commits reveals)).Pairwise (fun p q => p.seat ≤ q.seat) :=
    List.pairwise_map.mpr (List.pairwise_insertionSort (fun p q : HonestPlayer => p.seat ≤ q.seat) _)
  refine List.Perm.eq_of_pairwise ?_ (sortPlayers_sorted _) hring hperm
  intro a b ha hb hle hge
  obtain ⟨p, hp, rfl⟩ := List.mem_map.mp ((sortPlayers_perm _).mem_iff.mp ha)
  obtain ⟨q, hq, rfl⟩ := List.mem_map.mp hb
  have hq := (List.mem_insertionSort (fun p q : HonestPlayer => p.seat ≤ q.seat)).mp hq
  rw [eq_of_seat hq hp (Int.le_antisymm hle hge)]

theorem collectEntropies_record (players : List HonestPlayer) :
    collectEntropies (players.map (t.record [] [])) = .ok (players.map (·.entropy)) := by
  induction players with
  | nil => rfl
  | cons p rest ih =>
      have hvalue : (t.record [] [] p).entropyValue = Hex.encode p.entropy := by simp [record]
      have hne : Hex.encode p.entropy ≠ "" := by
        intro hempty
        have hlen := p.entropyLong
        rw [Hex.encode_eq_empty_iff.mp hempty] at hlen
        cases hlen
      have hentropy : decodeBytes32 (Hex.encode p.entropy) = some p.entropy :=
        decodeBytes32_eq_some.mpr ⟨Hex.decode_encode _, p.entropyLong⟩
      simp only [List.map_cons, collectEntropies, hvalue, if_neg hne, hentropy, ih]

theorem combineEntropy_ring : combineEntropy (t.ring.map (·.entropy)) = .ok t.seed := by
  have hparts : ∀ (players : List HonestPlayer) (i : Nat),
      encodeEntropies i (players.map (·.entropy)) = .ok (players.map (·.entropy)) := by
    intro players
    induction players with
    | nil => exact fun _ => rfl
    | cons p rest ih =>
        intro i
        simp only [List.map_cons, encodeEntropies, encodeBytes32_eq_ok p.entropyLong, ih]
  have hlen : (t.ring.map (·.entropy)).length ≠ 0 := by
    rw [List.length_map, ring, List.length_insertionSort]
    exact mt List.eq_nil_iff_length_eq_zero.mpr t.seated
  rw [combineEntropy, if_neg hlen, hparts]
  rfl

/-- **The last entropy binds the deck**, the others leave it open. -/
theorem Stage.reveal {rest : List Int} {deck : List Nat}
    (h : Stage t t.players [] (p.seat :: rest) (t.revealCall p :: pending) .s4EntropyRevealWindow s)
    (hp : p ∈ t.players) (hrest : ∀ seat ∈ rest, seat ∈ t.allSeats) (hnot : p.seat ∉ rest)
    (hbuilt : buildDeckCommitment t.seed ruleSet.deckFormat ruleSet.shuffleAlgorithmVersion =
      .ok (commitDeck t.seed deck)) :
    ∃ s', Takes s (t.revealCall p) s' ∧ Stage t t.players [] rest pending
      (windowClass rest .s4EntropyRevealWindow .s5DeckCommitted) s' := by
  have hgate : s.verifyCrypto (t.revealCall p).1 = .ok () := h.opens hp
  have hnext := h.revealed hp hrest hnot
  have hblank : s.state.combinedEntropy = "" := h.combined
  cases rest with
  | nil =>
      have hbind : bindDeck ruleSet s.state { s.state.advance .s5DeckCommitted with
          players := t.players.map (t.record [] []) } =
            .ok { s.state.advance .s5DeckCommitted with
              players := t.players.map (t.record [] [])
              combinedEntropy := Hex.encode t.seed
              deckCommitmentHash := Hex.encode (commitDeck t.seed deck).deckCommitmentHash } := by
        have hunbound : Unbound s.state { s.state.advance .s5DeckCommitted with
            players := t.players.map (t.record [] []) } := ⟨h.phase, rfl, hblank⟩
        rw [bindDeck, if_pos hunbound, materialiseDeckCommitment]
        simp only [sortPlayers_record, collectEntropies_record, combineEntropy_ring, hbuilt]
      exact h.takes hgate hnext hbind h.stateGame rfl rfl rfl
  | cons seat rest =>
      have hbind : bindDeck ruleSet s.state { s.state.advance .s4EntropyRevealWindow with
          players := t.players.map (t.record [] (seat :: rest)) } =
            .ok { s.state.advance .s4EntropyRevealWindow with
              players := t.players.map (t.record [] (seat :: rest)) } := by
        rw [bindDeck, if_neg]
        intro hunbound
        obtain ⟨-, hdeck, -⟩ := hunbound
        cases hdeck
      exact h.takes hgate hnext hbind h.stateGame rfl rfl hblank

/-! ## The phases -/

variable {hist : List ((SignedAction × UInt32) × Session)} {later : List (SignedAction × UInt32)}

/-- Those already seated and those still to come make up the table. -/
def Joining (t : HonestTable gameId ruleSet) (later agenda : List (SignedAction × UInt32))
    (s : Session) : Prop :=
  ∃ seated rest, agenda = List.map t.joinCall rest ∧ seated ++ rest = t.players ∧
    Stage t seated t.allSeats t.allSeats (agenda ++ later) .s1SeatOpen s

theorem Joining.step {agenda : List (SignedAction × UInt32)}
    (h : t.Joining later (call :: agenda) s) : ∃ s', Takes s call s' ∧ t.Joining later agenda s' := by
  obtain ⟨seated, rest, hagenda, hsplit, hstage⟩ := h
  cases rest with
  | nil => cases hagenda
  | cons p rest =>
      obtain ⟨rfl, rfl⟩ := List.cons.inj hagenda
      have hp : p ∈ t.players := by
        rw [← hsplit]
        simp
      have hroom : (seated.length : Int) < ruleSet.playerCountMax := by
        have hlen := congrArg List.length hsplit
        have := t.room
        rw [List.length_append, List.length_cons] at hlen
        omega
      have hnew : ∀ q ∈ seated, q.seat ≠ p.seat := by
        have hseats := t.seats
        rw [← hsplit, List.map_append, List.map_cons, List.nodup_append] at hseats
        exact fun q hq => hseats.2.2 _ (List.mem_map_of_mem hq) _ List.mem_cons_self
      obtain ⟨s', htakes, hstage'⟩ := hstage.join hp hroom hnew
      exact ⟨s', htakes, seated ++ [p], rest, rfl, by simpa using hsplit, hstage'⟩

/-- What is left of an order of the players: some of them, each once. -/
def Left (t : HonestTable gameId ruleSet) (rest : List HonestPlayer) : Prop :=
  (∀ p ∈ rest, p ∈ t.players) ∧ (rest.map (·.seat)).Nodup

theorem left_of_perm {order : List HonestPlayer} (h : order.Perm t.players) : t.Left order :=
  ⟨fun _ hp => h.mem_iff.mp hp, (h.map _).nodup_iff.mpr t.seats⟩

theorem Left.cons_inv {rest : List HonestPlayer} (h : t.Left (p :: rest)) :
    p ∈ t.players ∧ (∀ seat ∈ rest.map (·.seat), seat ∈ t.allSeats) ∧
      p.seat ∉ rest.map (·.seat) ∧ t.Left rest := by
  obtain ⟨hmem, hnodup⟩ := h
  rw [List.forall_mem_cons] at hmem
  rw [List.map_cons, List.nodup_cons] at hnodup
  refine ⟨hmem.1, ?_, hnodup.1, hmem.2, hnodup.2⟩
  intro seat hseat
  obtain ⟨q, hq, rfl⟩ := List.mem_map.mp hseat
  exact List.mem_map_of_mem (hmem.2 q hq)

def Committing (t : HonestTable gameId ruleSet) (later agenda : List (SignedAction × UInt32))
    (s : Session) : Prop :=
  ∃ rest, agenda = List.map t.commitCall rest ∧ t.Left rest ∧
    Stage t t.players (rest.map (·.seat)) t.allSeats (agenda ++ later)
      (windowClass (rest.map (·.seat)) .s3EntropyCommitWindow .s4EntropyRevealWindow) s

theorem Committing.step {agenda : List (SignedAction × UInt32)}
    (h : t.Committing later (call :: agenda) s) :
    ∃ s', Takes s call s' ∧ t.Committing later agenda s' := by
  obtain ⟨rest, hagenda, hleft, hstage⟩ := h
  cases rest with
  | nil => cases hagenda
  | cons p rest =>
      obtain ⟨rfl, rfl⟩ := List.cons.inj hagenda
      obtain ⟨hp, hseats, hnot, hrest⟩ := hleft.cons_inv
      obtain ⟨s', htakes, hstage'⟩ := hstage.commit hp hseats hnot
      exact ⟨s', htakes, rest, rfl, hrest, hstage'⟩

def Revealing (t : HonestTable gameId ruleSet) (later agenda : List (SignedAction × UInt32))
    (s : Session) : Prop :=
  ∃ rest, agenda = List.map t.revealCall rest ∧ t.Left rest ∧
    Stage t t.players [] (rest.map (·.seat)) (agenda ++ later)
      (windowClass (rest.map (·.seat)) .s4EntropyRevealWindow .s5DeckCommitted) s

theorem Revealing.step {agenda : List (SignedAction × UInt32)} {deck : List Nat}
    (hbuilt : buildDeckCommitment t.seed ruleSet.deckFormat ruleSet.shuffleAlgorithmVersion =
      .ok (commitDeck t.seed deck)) (h : t.Revealing later (call :: agenda) s) :
    ∃ s', Takes s call s' ∧ t.Revealing later agenda s' := by
  obtain ⟨rest, hagenda, hleft, hstage⟩ := h
  cases rest with
  | nil => cases hagenda
  | cons p rest =>
      obtain ⟨rfl, rfl⟩ := List.cons.inj hagenda
      obtain ⟨hp, hseats, hnot, hrest⟩ := hleft.cons_inv
      obtain ⟨s', htakes, hstage'⟩ := hstage.reveal hp hseats hnot hbuilt
      exact ⟨s', htakes, rest, rfl, hrest, hstage'⟩

/-- A new session, with the whole opening still to come. -/
theorem stage_new (t : HonestTable gameId ruleSet) (ruleSetHash : String)
    (recoveryDeadline : UInt32) (h : (pending.map (·.1.actionNonce)).Nodup) :
    Stage t [] t.allSeats t.allSeats pending .s1SeatOpen
      (new gameId ruleSet ruleSetHash recoveryDeadline) where
  game := rfl
  stateGame := rfl
  rules := rfl
  players := rfl
  phase := rfl
  combined := rfl
  distinct := h
  fresh := fun _ _ hseen => absurd hseen (List.not_mem_nil)

/-- **The calls of an opening all go through**, in any order of the
commitments and of the entropies. -/
theorem opens_of_calls (t : HonestTable gameId ruleSet) (ruleSetHash : String)
    (recoveryDeadline : UInt32) {commits reveals : List HonestPlayer} {deck : List Nat}
    (hcommits : commits.Perm t.players) (hreveals : reveals.Perm t.players)
    (hnonces : ((t.calls commits reveals).map (·.1.actionNonce)).Nodup)
    (hbuilt : buildDeckCommitment t.seed ruleSet.deckFormat ruleSet.shuffleAlgorithmVersion =
      .ok (commitDeck t.seed deck)) :
    ∃ hist s, Path Takes (new gameId ruleSet ruleSetHash recoveryDeadline) hist s ∧
      hist.map Prod.fst = t.calls commits reveals ∧
      Stage t t.players [] [] [] .s5DeckCommitted s := by
  have hseats : ∀ {order : List HonestPlayer}, order.Perm t.players → order.map (·.seat) ≠ [] := by
    intro order hperm hnil
    rw [List.map_eq_nil_iff] at hnil
    subst hnil
    exact t.seated hperm.symm.eq_nil
  -- the joins
  have hnew : t.Joining (t.lockCall :: (commits.map t.commitCall ++ reveals.map t.revealCall))
      (t.players.map t.joinCall) (new gameId ruleSet ruleSetHash recoveryDeadline) :=
    ⟨[], t.players, rfl, rfl, stage_new t ruleSetHash recoveryDeadline hnonces⟩
  obtain ⟨hist₁, s₁, hrun₁, hcalls₁, seated, rest, hnil, hsplit, hstage₁⟩ :=
    Path.of_each hnew Joining.step
  obtain rfl : rest = [] := List.map_eq_nil_iff.mp hnil.symm
  obtain rfl : seated = t.players := (List.append_nil _).symm.trans hsplit
  -- the lock
  obtain ⟨s₂, hlock, hstage₂⟩ := hstage₁.lock
  have hstage₂' : Stage t t.players (commits.map (·.seat)) t.allSeats
      (commits.map t.commitCall ++ reveals.map t.revealCall)
      (windowClass (commits.map (·.seat)) .s3EntropyCommitWindow .s4EntropyRevealWindow) s₂ := by
    rw [windowClass, if_neg (hseats hcommits)]
    exact hstage₂.reorder (fun _ => (hcommits.map _).symm.mem_iff) (fun _ => Iff.rfl)
  -- the commitments
  obtain ⟨hist₃, s₃, hrun₃, hcalls₃, rest, hnil, -, hstage₃⟩ :=
    Path.of_each (I := t.Committing (reveals.map t.revealCall))
      ⟨commits, rfl, left_of_perm hcommits, hstage₂'⟩ Committing.step
  obtain rfl : rest = [] := List.map_eq_nil_iff.mp hnil.symm
  have hstage₃' : Stage t t.players [] (reveals.map (·.seat)) (reveals.map t.revealCall ++ [])
      (windowClass (reveals.map (·.seat)) .s4EntropyRevealWindow .s5DeckCommitted) s₃ := by
    rw [windowClass, if_neg (hseats hreveals), List.append_nil]
    exact hstage₃.reorder (fun _ => Iff.rfl) (fun _ => (hreveals.map _).symm.mem_iff)
  -- the entropies
  obtain ⟨hist₄, s₄, hrun₄, hcalls₄, rest, hnil, -, hstage₄⟩ :=
    Path.of_each (I := t.Revealing []) ⟨reveals, rfl, left_of_perm hreveals, hstage₃'⟩
      (Revealing.step hbuilt)
  obtain rfl : rest = [] := List.map_eq_nil_iff.mp hnil.symm
  refine ⟨_, s₄, ((hrun₁.next t.lockCall hlock).trans hrun₃).trans hrun₄, ?_, hstage₄⟩
  simp only [List.map_append, hcalls₁, hcalls₃, hcalls₄, List.map_cons, calls,
    List.append_assoc, List.cons_append, List.nil_append]

end HonestTable

/-- **A table that follows the protocol opens.** Its calls, with the
commitments and the entropies in any orders and everything at any
height, are all accepted; they end with the deck of the seats committed,
whatever the orders were, and from there the table can be closed. The
shuffle alone may fail to end. -/
theorem honest_table_opens (t : HonestTable gameId ruleSet) (ruleSetHash : String)
    (recoveryDeadline : UInt32) {commits reveals : List HonestPlayer} {deck : List Nat}
    (hcommits : commits.Perm t.players) (hreveals : reveals.Perm t.players)
    (hnonces : ((t.calls commits reveals).map (·.1.actionNonce)).Nodup)
    (hversion : ruleSet.shuffleAlgorithmVersion = 1)
    (hformat : ruleSet.deckFormat = 52 ∨ ruleSet.deckFormat = 54)
    (hdeck : shuffleDeck nextByte t.seed ruleSet.deckFormat.toNat = some deck) :
    ∃ hist s, Run gameId ruleSet ruleSetHash recoveryDeadline hist s ∧
      hist.map Prod.fst = t.calls commits reveals ∧
      s.transcript = (t.calls commits reveals).map Prod.fst ∧
      s.state.stateClass = .s5DeckCommitted ∧ s.Dealt t.seed deck ∧ CanReach Step Closed s := by
  have hbuilt : buildDeckCommitment t.seed ruleSet.deckFormat ruleSet.shuffleAlgorithmVersion =
      .ok (commitDeck t.seed deck) :=
    buildDeckCommitment_eq_ok_iff.mpr ⟨hversion, hformat, Sha256.length_sha256 _, deck, hdeck, rfl⟩
  obtain ⟨hist, s, hpath, hcalls, hstage⟩ :=
    t.opens_of_calls ruleSetHash recoveryDeadline hcommits hreveals hnonces hbuilt
  have hrun : Run gameId ruleSet ruleSetHash recoveryDeadline hist s := hpath.mono (fun h => .inl h)
  refine ⟨hist, s, hrun, hcalls, ?_, hstage.phase, ?_, ?_⟩
  · rw [← hcalls, List.map_map, ← List.filterMap_eq_map]
    exact hpath.collected (L := transcript) (A := fun call => some call.1) rfl (fun h => by
      obtain ⟨-, -, _, _, -, -, rfl⟩ := submit_eq_ok.mp h
      rfl)
  · obtain ⟨seed, deck', hdealt⟩ := dealt_of_awaits hrun (.inl hstage.phase)
    have hcombined : s.state.combinedEntropy = Hex.encode t.seed := hstage.combined
    have hseed : t.seed = seed := by
      have hdecode := congrArg Hex.decode (hcombined.symm.trans hdealt.stored)
      rw [Hex.decode_encode, Hex.decode_encode] at hdecode
      exact Option.some.inj hdecode
    subst hseed
    have hbuilt' := hdealt.built
    rw [hstage.rules] at hbuilt'
    obtain ⟨-, -, -, deck'', hdeck'', hsame⟩ := buildDeckCommitment_eq_ok_iff.mp hbuilt'
    cases hdeck.symm.trans hdeck''
    have hshuffled := congrArg DeckCommitment.shuffledDeck hsame
    obtain rfl : deck' = deck := hshuffled
    exact hdealt
  · have hphase : deckPhase s.state.stateClass = true := by
      rw [hstage.phase]
      rfl
    exact closes_of_finishable hrun hphase (by simp [Finishable, hstage.phase])

/-- The two players of the sample game. -/
def samplePlayer (seat : Int) (tail entropy : UInt8) (nonces : List String)
    (pubkey : String) (keyHex : Hex.decode pubkey = some (2 :: List.replicate 32 tail)) :
    HonestPlayer where
  seat := seat
  pubkey := pubkey
  key := 2 :: List.replicate 32 tail
  keyHex := keyHex
  keyLong := by simp
  entropy := List.replicate 32 entropy
  entropyLong := by simp
  join := ⟨nonces.getD 0 "", 100⟩
  commit := ⟨nonces.getD 1 "", 100⟩
  reveal := ⟨nonces.getD 2 "", 100⟩

def sampleTable : HonestTable sampleGame defaultRuleSet where
  game := List.replicate 32 0
  gameHex := by decide +kernel
  players :=
    [samplePlayer 1 0xdd 0xbb ["1", "2", "3"] ("02" ++ hex64 'd') (by decide +kernel),
      samplePlayer 0 0xcc 0xaa ["4", "5", "6"] ("02" ++ hex64 'c') (by decide +kernel)]
  seats := by decide
  seated := by simp
  enough := by decide
  room := by decide
  lock := ⟨"7", 100⟩

/-- The sample table, its entropies in the order of the seats. -/
theorem honest_table_opens_sample :
    ∃ hist s deck, Run sampleGame defaultRuleSet zeroHash 244 hist s ∧
      s.Dealt sampleTable.seed deck ∧ CanReach Step Closed s := by
  have hends : (shuffleDeck nextByte sampleTable.seed 52).isSome = true := by decide +kernel
  obtain ⟨deck, hdeck⟩ := Option.isSome_iff_exists.mp hends
  obtain ⟨hist, s, hrun, -, -, -, hdealt, hcloses⟩ :=
    honest_table_opens sampleTable zeroHash 244 (List.Perm.refl _)
      (List.reverse_perm sampleTable.players) (by decide +kernel) rfl (.inl rfl) hdeck
  exact ⟨hist, s, deck, hrun, hdealt, hcloses⟩

end CardTable.Go.Session
