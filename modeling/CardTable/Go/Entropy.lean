import CardTable.Go.Gate
import CardTable.Go.Reach
import Mathlib.Data.List.Nodup

/-!
# Go.Entropy — what stands behind a committed deck

Three phases build the deck: the players join, commit and reveal, and at
the last reveal `Submit` stamps the combined entropy and the deck
commitment onto the state. `Contribution` is what a player brings to it.
Every entropy that is in has opened its commitment before the gate, so
from S5 on each one is vouched for; the deck is derived from them in seat
order, which no order of messages changes; and no later step touches any
of it.
-/

namespace CardTable.Go.Session

open Basis

/-! ## Seat order -/

theorem sinkPlayer_perm (l : List PlayerState) (p : PlayerState) :
    (sinkPlayer l p).Perm (p :: l) := by
  induction l with
  | nil => exact List.Perm.refl _
  | cons q qs ih =>
      simp only [sinkPlayer]
      split
      · exact (List.Perm.cons q ih).trans (List.Perm.swap p q qs)
      · exact List.Perm.refl _

theorem sortPlayers_perm (players : List PlayerState) :
    (sortPlayers players).Perm players := by
  have hloop : ∀ (rest acc : List PlayerState),
      (rest.foldl sinkPlayer acc).Perm (rest ++ acc) := by
    intro rest
    induction rest with
    | nil => exact fun acc => List.Perm.refl _
    | cons p rest ih =>
        intro acc
        refine (ih _).trans ?_
        refine (List.Perm.append_left rest (sinkPlayer_perm acc p)).trans ?_
        exact List.perm_middle
  have h := hloop players []
  rw [List.append_nil] at h
  exact (List.reverse_perm _).trans h

/-- The players are sorted by the same loop as their seats. -/
theorem map_seat_sortPlayers (players : List PlayerState) :
    (sortPlayers players).map (·.seat) = sortSeats (players.map (·.seat)) := by
  have hsink : ∀ (l : List PlayerState) (p : PlayerState),
      (sinkPlayer l p).map (·.seat) = sinkSeat (l.map (·.seat)) p.seat := by
    intro l p
    induction l with
    | nil => rfl
    | cons q qs ih =>
        simp only [sinkPlayer, List.map_cons, sinkSeat]
        split
        · rw [List.map_cons, ih]
        · rfl
  have hloop : ∀ (rest acc : List PlayerState),
      (rest.foldl sinkPlayer acc).map (·.seat) =
        (rest.map (·.seat)).foldl sinkSeat (acc.map (·.seat)) := by
    intro rest
    induction rest with
    | nil => exact fun acc => rfl
    | cons p rest ih =>
        intro acc
        rw [List.foldl_cons, ih, hsink, List.map_cons, List.foldl_cons]
  rw [sortPlayers, sortSeats, List.map_reverse, hloop]
  rfl

theorem sortPlayers_sorted (players : List PlayerState) :
    (sortPlayers players).Pairwise (fun p q => p.seat ≤ q.seat) := by
  rw [← List.pairwise_map (f := PlayerState.seat) (R := (· ≤ ·)), map_seat_sortPlayers]
  exact sortSeats_sorted _

/-! ## Contributions -/

/-- What a player brings to the deck: his seat and his key, a commitment
and the entropy that opens it. -/
structure Contribution where
  seat : Int
  pubkey : String
  committed : Bool
  commitment : String
  revealed : Bool
  entropy : String
  deriving DecidableEq

/-- The contribution of a player. -/
def contribution (p : PlayerState) : Contribution where
  seat := p.seat
  pubkey := p.valueSigningPubkey
  committed := p.entropyCommitted
  commitment := p.entropyCommitmentHash
  revealed := p.entropyRevealed
  entropy := p.entropyValue

/-- The contributions of a state, in the order of the players. -/
def contributions (state : RoundState) : List Contribution := state.players.map contribution

/-- The entropy opens the commitment for the player's key and the game,
as `VerifyEntropyReveal` finds. -/
def Contribution.Verifies (gameId : String) (c : Contribution) : Prop :=
  ∃ commitment entropy key game, Hex.decode c.commitment = some commitment ∧
    decodeBytes32 c.entropy = some entropy ∧ Hex.decode c.pubkey = some key ∧ 32 ≤ key.length ∧
    decodeBytes32 gameId = some game ∧
    verifyEntropyReveal commitment entropy (key.drop (key.length - 32)) game = .ok true

/-- A contribution at any time: a commitment is marked, and an entropy
that is in was committed to and verifies. -/
structure Contribution.Vouched (gameId : String) (c : Contribution) : Prop where
  marked : c.commitment ≠ "" → c.committed = true
  revealed : c.revealed = true → c.committed = true ∧ c.Verifies gameId

/-- **What an accepted action does to the contributions**: a join adds a
blank one, a commitment and a reveal each fill one in, and nothing else
touches them. -/
inductive Contributes (a : SignedAction) (state : RoundState) : List Contribution → Prop where
  | join {seat : Int} : state.stateClass = .s1SeatOpen →
      Contributes a state (contributions state ++ [contribution (joinedPlayer a seat)])
  | commit {seat : Int} {idx : Nat} {p : PlayerState} :
      state.stateClass = .s3EntropyCommitWindow → findSeat state.players seat = some (idx, p) →
      Contributes a state ((contributions state).set idx
        { contribution p with committed := true, commitment := a.commitmentHash })
  | reveal {seat : Int} {idx : Nat} {p : PlayerState} :
      state.stateClass = .s4EntropyRevealWindow → a.actionType = .entropyReveal →
      a.actingPlayerSeat = some seat → findSeat state.players seat = some (idx, p) →
      Contributes a state ((contributions state).set idx
        { contribution p with revealed := true, entropy := a.entropy })
  | same : Contributes a state (contributions state)

theorem contributes_of_accepts {ruleSet : RuleSet} {height : UInt32} {state state' : RoundState}
    {a : SignedAction} (h : Accepts ruleSet height state a state') :
    Contributes a state (contributions state') := by
  cases h with
  | join _ hclass =>
      simp only [contributions, List.map_append, List.map_cons, List.map_nil]
      exact .join hclass
  | entropyCommit _ hclass _ hfind =>
      simp only [contributions, List.map_set]
      exact .commit hclass hfind
  | entropyReveal hkind hclass hseat hfind hplayers =>
      subst hplayers
      simp only [contributions, List.map_set]
      exact .reveal hclass hkind hseat hfind
  | @fold seat idx p _ _ _ hfind =>
      have hsame : (state.players.set idx { p with participationStatus := .folded }).map
          contribution = state.players.map contribution :=
        map_set_of_eq (findSeat_getElem? hfind) rfl
      simp only [contributions, hsame]
      exact .same
  | settle _ _ _ _ _ _ _ hplayers =>
      have hsame := settlePlayers_map (f := contribution) (fun _ _ => rfl) hplayers
      simp only [contributions, hsame]
      exact .same
  | _ => exact .same

/-- **A complete deck is frozen**: once everybody has revealed, no
accepted action touches a contribution. -/
theorem contributions_frozen {ruleSet : RuleSet} {height : UInt32} {state state' : RoundState}
    {a : SignedAction} (h : Accepts ruleSet height state a state')
    (hreveals : RevealsOf state.players state.stateClass) (hall : AllRevealed state.players) :
    contributions state' = contributions state := by
  have hstep := contributes_of_accepts h
  generalize contributions state' = after at hstep
  cases hstep with
  | join hclass | commit hclass =>
      simp only [RevealsOf, hclass] at hreveals
      exact absurd hall (not_allRevealed hreveals)
  | reveal hclass =>
      simp only [RevealsOf, hclass] at hreveals
      obtain ⟨p, hp, hfalse⟩ := hreveals
      rw [hall.2 p hp] at hfalse
      cases hfalse
  | same => rfl

/-! ## The deck -/

/-- The combined entropy and the deck commitment of some contributions:
the entropies in ascending seat order, combined, and the deck built on
them. -/
def DeckOf (ruleSet : RuleSet) (cs : List Contribution) (combined deckHash : String) : Prop :=
  ∃ (ring : List Contribution) (entropies : List (List UInt8)) (seed : List UInt8)
      (dc : Cards.DeckCommitment), ring.Perm cs ∧
    ring.Pairwise (fun c d => c.seat ≤ d.seat) ∧
    ring.map (fun c => decodeBytes32 c.entropy) = entropies.map some ∧
    combineEntropy entropies = .ok seed ∧
    buildDeckCommitment seed ruleSet.deckFormat ruleSet.shuffleAlgorithmVersion = .ok dc ∧
    combined = Hex.encode seed ∧ deckHash = Hex.encode dc.deckCommitmentHash

theorem collectEntropies_eq_ok {players : List PlayerState} {entropies : List (List UInt8)}
    (h : collectEntropies players = .ok entropies) :
    players.map (fun p => decodeBytes32 p.entropyValue) = entropies.map some := by
  induction players generalizing entropies with
  | nil =>
      cases h
      rfl
  | cons p rest ih =>
      simp only [collectEntropies] at h
      split at h
      · cases h
      · split at h
        · cases h
        · rename_i e he
          split at h
          · cases h
          · rename_i tail htail
            cases h
            simp only [List.map_cons, he, ih htail]

/-- **The deck `materialiseDeckCommitment` stamps on a state is the deck
of its contributions.** -/
theorem deckOf_materialise {ruleSet : RuleSet} {state final : RoundState}
    (h : materialiseDeckCommitment ruleSet state = .ok final) :
    DeckOf ruleSet (contributions final) final.combinedEntropy final.deckCommitmentHash := by
  obtain ⟨entropies, dc, hentropies, hcombined, hdc, rfl⟩ := materialise_eq_ok h
  refine ⟨(sortPlayers state.players).map contribution, entropies, _, dc, ?_, ?_, ?_, hcombined,
    hdc, rfl, rfl⟩
  · exact (sortPlayers_perm state.players).map contribution
  · exact List.pairwise_map.mpr (sortPlayers_sorted state.players)
  · rw [List.map_map]
    exact collectEntropies_eq_ok hentropies

/-- **The order of the messages does not matter**: seats taken once, the
deck depends on who sits where with which entropy. -/
theorem deckOf_unique {ruleSet : RuleSet} {cs cs' : List Contribution}
    {combined combined' deckHash deckHash' : String} (h : DeckOf ruleSet cs combined deckHash)
    (h' : DeckOf ruleSet cs' combined' deckHash') (hseats : (cs.map (·.seat)).Nodup)
    (hseats' : (cs'.map (·.seat)).Nodup)
    (hsame : ∀ x, x ∈ cs.map (fun c => (c.seat, c.entropy)) ↔
      x ∈ cs'.map (fun c => (c.seat, c.entropy))) :
    combined = combined' ∧ deckHash = deckHash' := by
  obtain ⟨ring, entropies, seed, dc, hperm, hsorted, hentropies, hseed, hdc, rfl, rfl⟩ := h
  obtain ⟨ring', entropies', seed', dc', hperm', hsorted', hentropies', hseed', hdc', rfl, rfl⟩ := h'
  -- the two rings carry the same seats and entropies, in the same order
  have hnodup : ∀ {l : List Contribution}, (l.map (·.seat)).Nodup →
      (l.map fun c => (c.seat, c.entropy)).Nodup := by
    intro l hl
    refine List.Nodup.of_map Prod.fst ?_
    rw [List.map_map]
    exact hl
  have hring : ring.map (fun c => (c.seat, c.entropy)) =
      ring'.map (fun c => (c.seat, c.entropy)) := by
    have hpairs : (ring.map fun c => (c.seat, c.entropy)).Perm
        (ring'.map fun c => (c.seat, c.entropy)) := by
      refine (hperm.map _).trans (List.Perm.trans ?_ (hperm'.map _).symm)
      exact (List.perm_ext_iff_of_nodup (hnodup hseats) (hnodup hseats')).mpr hsame
    have hle : (ring.map fun c => (c.seat, c.entropy)).Pairwise (fun x y => x.1 ≤ y.1) :=
      List.pairwise_map.mpr hsorted
    have hle' : (ring'.map fun c => (c.seat, c.entropy)).Pairwise (fun x y => x.1 ≤ y.1) :=
      List.pairwise_map.mpr hsorted'
    refine List.Perm.eq_of_pairwise ?_ hle hle' hpairs
    intro x y hx hy hle hge
    have hmem := hpairs.symm.mem_iff.mp hy
    have hfst : ((ring.map fun c => (c.seat, c.entropy)).map Prod.fst).Nodup := by
      rw [List.map_map]
      exact (hperm.map (·.seat)).nodup_iff.mpr hseats
    exact List.inj_on_of_nodup_map hfst hx hmem (Int.le_antisymm hle hge)
  have hsnd : ring.map (·.entropy) = ring'.map (·.entropy) := by
    have hmap := congrArg (List.map Prod.snd) hring
    rw [List.map_map, List.map_map] at hmap
    exact hmap
  have hall : entropies.map some = entropies'.map some := by
    rw [← hentropies, ← hentropies']
    have hmap := congrArg (List.map decodeBytes32) hsnd
    rw [List.map_map, List.map_map] at hmap
    exact hmap
  obtain rfl : entropies = entropies' := 
    List.map_injective_iff.mpr (fun _ _ h => Option.some.inj h) hall
  cases hseed.symm.trans hseed'
  cases hdc.symm.trans hdc'
  exact ⟨rfl, rfl⟩

/-! ## The gate vouches for an entropy -/

theorem find?_of_findSeat {players : List PlayerState} {seat : Int} {idx : Nat} {p : PlayerState}
    (h : findSeat players seat = some (idx, p)) :
    players.find? (fun q => q.seat == seat) = some p := by
  rw [List.find?_eq_bind_findIdx?_getElem?]
  simp only [findSeat] at h
  cases hidx : players.findIdx? (fun q => q.seat == seat) with
  | none => simp [hidx] at h
  | some i =>
      simp only [hidx, Option.map_eq_some_iff, Prod.mk.injEq] at h
      obtain ⟨q, hq, _, rfl⟩ := h
      simpa using hq

/-- An entropy that opened its commitment verifies once it is in. -/
theorem verifies_of_opens {s : Session} {seat : Int} {idx : Nat} {p : PlayerState} {text : String}
    (h : Opens s seat text) (hfind : findSeat s.state.players seat = some (idx, p)) :
    Contribution.Verifies s.gameId { contribution p with revealed := true, entropy := text } := by
  have hplayer : h.player = p := Option.some.inj (h.seated.symm.trans (find?_of_findSeat hfind))
  refine ⟨h.commitment, h.entropy, h.key, h.game, ?_, h.entropyHex, ?_, h.keyLong, h.gameHex, ?_⟩
  · rw [← h.commitmentHex, hplayer]
    rfl
  · rw [← h.keyHex, hplayer]
    rfl
  · have hlen : (h.key.drop (h.key.length - 32)).length = 32 := by
      have := h.keyLong
      rw [List.length_drop]
      omega
    rw [verifyEntropyReveal, commitEntropy_eq_ok (decodeBytes32_eq_some.mp h.entropyHex).2 hlen
      (decodeBytes32_eq_some.mp h.gameHex).2]
    simp [h.opened]

/-! ## Runs -/

/-- What a run keeps: every contribution is vouched for, and once all
entropies are in the deck is theirs. -/
structure Backed (s : Session) : Prop where
  vouched : ∀ c ∈ contributions s.state, c.Vouched s.gameId
  deck : AllRevealed s.state.players →
    DeckOf s.ruleSet (contributions s.state) s.state.combinedEntropy s.state.deckCommitmentHash

variable {gameId : String} {ruleSet : RuleSet} {ruleSetHash : String} {recoveryDeadline : UInt32}
  {s s' : Session} {call : SignedAction × UInt32}

theorem backed_new : Backed (new gameId ruleSet ruleSetHash recoveryDeadline) where
  vouched := by simp [new, initialState, contributions]
  deck := by simp [AllRevealed, new, initialState]

/-- The contributions after a step the gate has let pass are vouched
for. -/
theorem Backed.vouched_step {a : SignedAction} (h : Backed s)
    (hreveals : RevealsOf s.state.players s.state.stateClass) (hgate : s.verifyCrypto a = .ok ())
    {after : List Contribution} (hstep : Contributes a s.state after) :
    ∀ c ∈ after, c.Vouched s.gameId := by
  intro c hc
  cases hstep with
  | @join seat =>
      rcases List.mem_append.mp hc with hc | hc
      · exact h.vouched c hc
      · -- nothing is in yet
        rw [List.mem_singleton.mp hc]
        exact ⟨fun hne => absurd rfl hne, fun htrue => by cases htrue⟩
  | commit hclass hfind =>
      rcases List.mem_or_eq_of_mem_set hc with hc | rfl
      · exact h.vouched c hc
      · simp only [RevealsOf, hclass] at hreveals
        have hfalse := hreveals _ (findSeat_mem hfind)
        exact ⟨fun _ => rfl, fun htrue => absurd (hfalse.symm.trans htrue) (by decide)⟩
  | @reveal seat idx p hclass hkind hseat hfind =>
      rcases List.mem_or_eq_of_mem_set hc with hc | rfl
      · exact h.vouched c hc
      · rw [verifyCrypto, hkind] at hgate
        obtain ⟨seat', hseat', ⟨hopens⟩⟩ := opens_of_checkEntropyReveal hgate
        obtain rfl : seat' = seat := Option.some.inj (hseat'.symm.trans hseat)
        have hold := h.vouched (contribution p) (List.mem_map_of_mem (findSeat_mem hfind))
        have hplayer : hopens.player = p :=
          Option.some.inj (hopens.seated.symm.trans (find?_of_findSeat hfind))
        have hcommitted : p.entropyCommitted = true := hold.marked (hplayer ▸ hopens.committed)
        exact ⟨fun _ => hcommitted, fun _ => ⟨hcommitted, verifies_of_opens hopens hfind⟩⟩
  | same => exact h.vouched c hc

/-- What binding the deck leaves of a state. -/
theorem contributions_bindDeck {prior next final : RoundState}
    (h : bindDeck ruleSet prior next = .ok final) : contributions final = contributions next := by
  have hbare := congrArg RoundState.players (bindDeck_eq_ok h).1
  simp only [bare_players] at hbare
  rw [contributions, contributions, hbare]

/-- **A complete deck stays**: no accepted call touches it. -/
theorem frozen_step (h : Tracks gameId ruleSet ruleSetHash recoveryDeadline s)
    (hall : AllRevealed s.state.players) (hok : s.submit call.1 call.2 = .ok s') :
    contributions s'.state = contributions s.state ∧
      s'.state.combinedEntropy = s.state.combinedEntropy ∧
      s'.state.deckCommitmentHash = s.state.deckCommitmentHash ∧
      AllRevealed s'.state.players := by
  obtain ⟨_, _, next, final, hnext, hbind, rfl⟩ := submit_eq_ok.mp hok
  obtain ⟨_, haccepts⟩ := accepts_of_applyAction hnext
  obtain ⟨hcombined, hcommitted⟩ := haccepts.keepsDeck
  have hbound : ¬Unbound s.state next := by
    intro hx
    obtain ⟨_, _, hblank⟩ := hx
    exact h.combined.mpr hall (hcombined ▸ hblank)
  have hfields := (bindDeck_eq_ok hbind).2
  rw [if_neg hbound] at hfields
  subst hfields
  exact ⟨contributions_frozen haccepts h.reveals hall, hcombined, hcommitted,
    (haccepts.reveals h.reveals).2.mpr (.inl hall)⟩

theorem Backed.submit (h : Backed s) (htracks : Tracks gameId ruleSet ruleSetHash recoveryDeadline s)
    (hok : s.submit call.1 call.2 = .ok s') : Backed s' := by
  obtain ⟨_, hgate, next, final, hnext, hbind, hs'⟩ := submit_eq_ok.mp hok
  obtain ⟨_, haccepts⟩ := accepts_of_applyAction hnext
  have hfinal : contributions s'.state = contributions next := by
    rw [hs']
    exact contributions_bindDeck hbind
  constructor
  · rw [hfinal, hs']
    exact h.vouched_step htracks.reveals hgate (contributes_of_accepts haccepts)
  · intro hrevealed
    by_cases hall : AllRevealed s.state.players
    · obtain ⟨hsame, hcombined, hcommitted, _⟩ := frozen_step htracks hall hok
      rw [hsame, hcombined, hcommitted, hs']
      exact h.deck hall
    · -- the last reveal: the deck has just been built
      have hplayers : s'.state.players = next.players := by
        have hbare := congrArg RoundState.players (bindDeck_eq_ok hbind).1
        rw [hs']
        exact hbare
      rw [hplayers, (haccepts.reveals htracks.reveals).2] at hrevealed
      have hunbound := (htracks.unbound_iff haccepts.keepsDeck.1).mpr
        (hrevealed.resolve_left hall)
      rw [bindDeck, if_pos hunbound] at hbind
      rw [hs']
      exact deckOf_materialise hbind

theorem backed_of_run {hist : List ((SignedAction × UInt32) × Session)}
    (h : Run gameId ruleSet ruleSetHash recoveryDeadline hist s) : Backed s := by
  refine h.invariant_of (I := Tracks gameId ruleSet ruleSetHash recoveryDeadline) tracks_new
    backed_new ?_ ?_
  · intro s call s' htracks hstep
    rcases hstep with hok | ⟨_, _, rfl⟩
    · exact htracks.submit hok
    · exact htracks
  · intro s call s' htracks hbacked hstep
    rcases hstep with hok | ⟨_, _, rfl⟩
    · exact hbacked.submit htracks hok
    · exact hbacked

/-- **A complete deck stays to the end of the run.** -/
theorem frozen_of_run (h : Tracks gameId ruleSet ruleSetHash recoveryDeadline s)
    (hall : AllRevealed s.state.players) {hist : List ((SignedAction × UInt32) × Session)}
    (hrest : Path Step s hist s') :
    contributions s'.state = contributions s.state ∧
      s'.state.combinedEntropy = s.state.combinedEntropy ∧
      s'.state.deckCommitmentHash = s.state.deckCommitmentHash := by
  have hkept : Tracks gameId ruleSet ruleSetHash recoveryDeadline s' ∧
      AllRevealed s'.state.players ∧ contributions s'.state = contributions s.state ∧
        s'.state.combinedEntropy = s.state.combinedEntropy ∧
        s'.state.deckCommitmentHash = s.state.deckCommitmentHash := by
    induction hrest with
    | start => exact ⟨h, hall, rfl, rfl, rfl⟩
    | snoc _ hstep ih =>
        rcases hstep with hok | ⟨_, _, rfl⟩
        · obtain ⟨htracks, hrevealed, hc, hseed, hdeck⟩ := ih
          obtain ⟨hc', hseed', hdeck', hrevealed'⟩ := frozen_step htracks hrevealed hok
          exact ⟨htracks.submit hok, hrevealed', hc'.trans hc, hseed'.trans hseed,
            hdeck'.trans hdeck⟩
        · exact ih
  exact hkept.2.2

/-- The classes from S5 to S12. -/
def deckPhase : StateClass → Bool
  | .s5DeckCommitted | .s6CardRevealFirst | .s7CardRevealSecond | .s8BetDecision
  | .s9CardRevealThird | .s10SettledRound | .s11RotateTurn | .s12TableClose => true
  | _ => false

theorem allRevealed_of_deckPhase {players : List PlayerState} {sc : StateClass}
    (h : RevealsOf players sc) (hphase : deckPhase sc = true) : AllRevealed players := by
  cases sc with
  | s0TableOpen | s1SeatOpen | s2TableLocked | s3EntropyCommitWindow | s4EntropyRevealWindow
  | recovered => cases hphase
  | _ => exact h

/-- **Entropy and deck of a session.** In the classes from S5 to S12
somebody is seated; everybody has committed and revealed an entropy that
verifies; the combined entropy and the deck commitment are those of the
entropies in seat order; and whatever is submitted afterwards, all of
this stays as it is. Two runs that seat the same entropies reach the same
deck. -/
theorem entropy_and_deck (ruleSet : RuleSet) :
    (∀ gameId ruleSetHash recoveryDeadline hist s,
      Run gameId ruleSet ruleSetHash recoveryDeadline hist s →
      deckPhase s.state.stateClass = true →
      s.state.players ≠ [] ∧
      (∀ c ∈ contributions s.state, c.committed = true ∧ c.revealed = true ∧ c.Verifies gameId) ∧
      DeckOf ruleSet (contributions s.state) s.state.combinedEntropy s.state.deckCommitmentHash ∧
      ∀ rest s', Path Step s rest s' →
        contributions s'.state = contributions s.state ∧
        s'.state.combinedEntropy = s.state.combinedEntropy ∧
        s'.state.deckCommitmentHash = s.state.deckCommitmentHash) ∧
    (∀ gameId gameId' ruleSetHash ruleSetHash' recoveryDeadline recoveryDeadline' hist hist' s s',
      Run gameId ruleSet ruleSetHash recoveryDeadline hist s →
      Run gameId' ruleSet ruleSetHash' recoveryDeadline' hist' s' →
      deckPhase s.state.stateClass = true → deckPhase s'.state.stateClass = true →
      (∀ seat key entropy,
        (∃ p ∈ s.state.players, p.seat = seat ∧ p.valueSigningPubkey = key ∧
          p.entropyValue = entropy) ↔
        (∃ p ∈ s'.state.players, p.seat = seat ∧ p.valueSigningPubkey = key ∧
          p.entropyValue = entropy)) →
      s.state.combinedEntropy = s'.state.combinedEntropy ∧
        s.state.deckCommitmentHash = s'.state.deckCommitmentHash) := by
  constructor
  · intro gameId ruleSetHash recoveryDeadline hist s hrun hphase
    have htracks := tracks_of_run hrun
    have hbacked := backed_of_run hrun
    have hall := allRevealed_of_deckPhase htracks.reveals hphase
    refine ⟨hall.1, ?_, ?_, ?_⟩
    · intro c hc
      obtain ⟨p, hp, rfl⟩ := List.mem_map.mp hc
      have hrevealed : (contribution p).revealed = true := hall.2 p hp
      obtain ⟨hcommitted, hverifies⟩ := (hbacked.vouched _ hc).revealed hrevealed
      exact ⟨hcommitted, hrevealed, htracks.game ▸ hverifies⟩
    · exact htracks.rules ▸ hbacked.deck hall
    · intro rest s' hrest
      exact frozen_of_run htracks hall hrest
  · intro gameId gameId' ruleSetHash ruleSetHash' recoveryDeadline recoveryDeadline' hist hist' s s'
      hrun hrun' hphase hphase' hsame
    -- what holds of one run, for both of them
    have hdeck : ∀ {gameId ruleSetHash recoveryDeadline hist s},
        Run gameId ruleSet ruleSetHash recoveryDeadline hist s →
        deckPhase s.state.stateClass = true →
        DeckOf ruleSet (contributions s.state) s.state.combinedEntropy
            s.state.deckCommitmentHash ∧
          ((contributions s.state).map (·.seat)).Nodup := by
      intro gameId ruleSetHash recoveryDeadline hist s hrun hphase
      have htracks := tracks_of_run hrun
      have hall := allRevealed_of_deckPhase htracks.reveals hphase
      refine ⟨htracks.rules ▸ (backed_of_run hrun).deck hall, ?_⟩
      rw [contributions, List.map_map]
      exact (sound_of_run hrun).table.seatsNodup
    obtain ⟨hd, hnodup⟩ := hdeck hrun hphase
    obtain ⟨hd', hnodup'⟩ := hdeck hrun' hphase'
    -- the deck depends on seat and entropy alone: the keys drop out
    refine deckOf_unique hd hd' hnodup hnodup' ?_
    intro h
    obtain ⟨seat, entropy⟩ := h
    simp only [contributions, List.map_map, List.mem_map, Function.comp_apply, contribution,
      Prod.mk.injEq]
    constructor
    · intro h
      obtain ⟨p, hp, hseat, hentropy⟩ := h
      obtain ⟨q, hq, hqseat, _, hqentropy⟩ := (hsame _ _ _).mp ⟨p, hp, hseat, rfl, hentropy⟩
      exact ⟨q, hq, hqseat, hqentropy⟩
    · intro h
      obtain ⟨p, hp, hseat, hentropy⟩ := h
      obtain ⟨q, hq, hqseat, _, hqentropy⟩ := (hsame _ _ _).mpr ⟨p, hp, hseat, rfl, hentropy⟩
      exact ⟨q, hq, hqseat, hqentropy⟩

theorem entropy_and_deck_sample :
    ∃ hist s, Run sampleGame defaultRuleSet zeroHash 244 hist s ∧
      DeckOf defaultRuleSet (contributions s.state) s.state.combinedEntropy
        s.state.deckCommitmentHash := by
  obtain ⟨hist, s, hrun, _, hclass⟩ := sample_run
  have hphase : deckPhase s.state.stateClass = true := by rw [hclass]; rfl
  obtain ⟨_, _, hdeck, _⟩ := (entropy_and_deck _).1 _ _ _ _ _ hrun hphase
  exact ⟨hist, s, hrun, hdeck⟩

end CardTable.Go.Session
