import CardTable.Go.Gate
import CardTable.Go.Entropy
import CardTable.Transcript
import CardTable.Ts.Verify

/-!
# Auditable — where the audit harness follows the relay

One accepted `Submit` against one `verifyAndApply` on the recorded
action. The two gates do not test the same texts, the two engines do not
know the same numbers, and the transcript drops zeros; `Auditable`
collects what an action must say so that none of this shows.
`Mirrors.step` is the result: the harness accepts the action too, and
ends in the corresponding state.
-/

namespace CardTable

open Basis Cards
open Ts (uint64 uint32 InRange)

/-! ## The condition -/

/-- The players once the reveal `a` is in. -/
def withReveal (players : List Go.PlayerState) (a : Go.SignedAction) : List Go.PlayerState :=
  match a.actingPlayerSeat with
  | none => players
  | some seat =>
    match Go.findSeat players seat with
    | none => players
    | some (idx, p) => players.set idx { p with
        entropyRevealed := true
        entropyValue := a.entropy
        participationStatus := .active }

/-- If all these players have revealed, the shuffle of their combined
entropy ends within the `2^32` blocks that TypeScript can draw. -/
def ShuffleEnds (ruleSet : Ts.RuleSet) (players : List Go.PlayerState) : Prop :=
  match Go.Session.collectEntropies (Go.Session.sortPlayers players) with
  | .error _ => True
  | .ok entropies =>
      (shuffleDeck Ts.nextByte (combinedSeed entropies) ruleSet.deckFormat.toNat).isSome = true

instance (ruleSet : Ts.RuleSet) (players : List Go.PlayerState) :
    Decidable (ShuffleEnds ruleSet players) :=
  match h : Go.Session.collectEntropies (Go.Session.sortPlayers players) with
  | .error _ => .isTrue (by rw [ShuffleEnds, h]; trivial)
  | .ok entropies =>
      decidable_of_iff
        ((shuffleDeck Ts.nextByte (combinedSeed entropies) ruleSet.deckFormat.toNat).isSome = true)
        (by rw [ShuffleEnds, h])

/-- The settled pot and the settled stake of the acting player, computed
exactly, are amounts of both languages. -/
def SettlesInRange (ruleSet : Ts.RuleSet) (state : Go.RoundState) : Prop :=
  ∀ cls ∈ (Go.classifyInBetweenRound state.visibleCards).toOption,
    ∀ pot ∈ SafeNat.ofInt? state.potValue.toNat,
      let exact := exactDelta cls.outcome pot ruleSet.settlementRules
      InRange (pot.val + -exact) ∧
        ∀ p ∈ state.players, state.actingPlayerSeat = some p.seat →
          InRange (p.stakeAtRisk.toNat + exact)

/-- The accepted actions on which the harness follows the relay. -/
structure Auditable (ruleSet : Ts.RuleSet) (state : Go.RoundState) (a : Go.SignedAction) :
    Prop where
  /-- the seat taken is a safe integer, the key and the stake are there -/
  join : a.actionType = .join → InRange (a.actingPlayerSeat.getD state.players.length) ∧
    a.playerPubkey ≠ "" ∧ a.stakeAmount ≠ 0
  /-- the commitment is written in lowercase -/
  commit : a.actionType = .entropyCommit → Ts.isHex64 a.commitmentHash = true
  /-- the entropy is written in lowercase, and the shuffle it completes ends -/
  reveal : a.actionType = .entropyReveal → Ts.isHex64 a.entropy = true ∧
    ShuffleEnds ruleSet (withReveal state.players a)
  /-- the bet is not zero and the pot stays a safe integer -/
  bet : a.actionType = .betAction → a.betAmount ≠ 0 ∧
    state.potValue.toNat + a.betAmount.toNat ≤ maxSafeInteger
  settle : a.actionType = .settle → SettlesInRange ruleSet state

instance (n : Int) : Decidable (InRange n) := inferInstanceAs (Decidable (_ ∧ _))

instance (ruleSet : Ts.RuleSet) (state : Go.RoundState) :
    Decidable (SettlesInRange ruleSet state) :=
  inferInstanceAs (Decidable (∀ cls ∈ _, ∀ pot ∈ _, _ ∧ _))

instance (ruleSet : Ts.RuleSet) (state : Go.RoundState) (a : Go.SignedAction) :
    Decidable (Auditable ruleSet state a) :=
  decidable_of_iff
    ((a.actionType = .join → InRange (a.actingPlayerSeat.getD state.players.length) ∧
        a.playerPubkey ≠ "" ∧ a.stakeAmount ≠ 0) ∧
      (a.actionType = .entropyCommit → Ts.isHex64 a.commitmentHash = true) ∧
      (a.actionType = .entropyReveal → Ts.isHex64 a.entropy = true ∧
        ShuffleEnds ruleSet (withReveal state.players a)) ∧
      (a.actionType = .betAction → a.betAmount ≠ 0 ∧
        state.potValue.toNat + a.betAmount.toNat ≤ maxSafeInteger) ∧
      (a.actionType = .settle → SettlesInRange ruleSet state))
    ⟨fun ⟨join, commit, reveal, bet, settle⟩ => ⟨join, commit, reveal, bet, settle⟩,
      fun ⟨join, commit, reveal, bet, settle⟩ => ⟨join, commit, reveal, bet, settle⟩⟩

/-! ## The state the harness is in -/

/-- The deck a TypeScript state is bound to, if any, is one it can
shuffle. -/
def DeckEnds (ruleSet : Ts.RuleSet) (ts : Ts.RoundState) : Prop :=
  ∀ text, ts.combinedEntropy = some text → ∃ combined, text = Hex.encode combined ∧
    combined.length = 32 ∧
      (shuffleDeck Ts.nextByte combined ruleSet.deckFormat.toNat).isSome = true

/-- The harness's state stands for the relay's. -/
structure Mirrors (ruleSet : Ts.RuleSet) (deadline : UInt32) (state : Go.RoundState)
    (ts : Ts.RoundState) : Prop where
  state : ts.toGo = state
  recovery : ts.recoveryDeadlineBlockHeight = some (blockHeight deadline)
  deck : DeckEnds ruleSet ts

theorem mirrors_initial (ruleSet : Ts.RuleSet) (deadline : UInt32) (gameId ruleSetHash : String) :
    Mirrors ruleSet deadline (Go.initialState gameId ruleSetHash deadline)
      (Ts.initialState gameId ruleSetHash (blockHeight deadline)) where
  state := by
    have hdue : uint32 (blockHeight deadline) = deadline := uint32_blockHeight deadline
    simp only [Ts.RoundState.toGo, Ts.initialState, Go.initialState, Option.map_some, hdue]
    rfl
  recovery := rfl
  deck := by simp [DeckEnds, Ts.initialState]

/-! ## Decoding -/

/-- `t` is the recorded action `a` as the harness reads it, and on it the
engines do the same. -/
structure Decodes (ruleSet : Ts.RuleSet) (ts : Ts.RoundState) (a : Go.SignedAction)
    (t : Ts.SignedAction) : Prop where
  read : a.toTs = some t
  same : Go.SameToEngine a t.toGo
  join : ∀ b, t = .join b →
    InRange (b.actingPlayerSeat.getD ts.players.length) ∧ InRange b.stakeAmount
  bet : ∀ b, t = .betAction b → InRange b.betAmount
  follows : ¬Diverges ruleSet ts t

section Decoding

variable {ruleSet : Ts.RuleSet} {ts : Ts.RoundState} {a : Go.SignedAction}

theorem uint64_le (n : SafeNat) : ((uint64 n).toNat : Int) ≤ maxSafeInteger := by
  have := n.isLe
  rw [uint64_toNat]
  omega

/-- Most variants carry no amount. -/
theorem Decodes.of_read {t : Ts.SignedAction} (hread : a.toTs = some t)
    (hsame : Go.SameToEngine a t.toGo) (hfollows : ¬Diverges ruleSet ts t)
    (hkind : t.actionType ≠ .join ∧ t.actionType ≠ .betAction) : Decodes ruleSet ts a t where
  read := hread
  same := hsame
  join := by
    intro b h
    subst h
    exact absurd rfl hkind.1
  bet := by
    intro b h
    subst h
    exact absurd rfl hkind.2
  follows := hfollows

theorem decodes_join (hkind : a.actionType = .join)
    (hstake : a.stakeAmount = uint64 ruleSet.stakeAmount)
    (haud : Auditable ruleSet ts.toGo a) : ∃ t, Decodes ruleSet ts a t := by
  obtain ⟨hseat, hkey, hnonzero⟩ := haud.join hkind
  have hlen : ts.toGo.players.length = ts.players.length := List.length_map ..
  rw [hlen] at hseat
  obtain ⟨hin, hback⟩ := amount_toDouble (hstake ▸ uint64_le ruleSet.stakeAmount)
  have hexact : a.actingPlayerSeat.map toDouble = a.actingPlayerSeat := by
    cases hs : a.actingPlayerSeat with
    | none => rfl
    | some n =>
        rw [hs, Option.getD_some] at hseat
        rw [Option.map_some, toDouble_of_inRange hseat]
  refine ⟨.join { a.toBase with
    playerPubkey := a.playerPubkey, stakeAmount := toDouble a.stakeAmount.toNat },
    ?_, ?_, ?_, ?_, ?_⟩
  · simp [Go.SignedAction.toTs, hkind, hkey, hnonzero]
  · refine ⟨rfl, hkind.symm, ?_⟩
    simp only [hkind]
    exact ⟨hexact, rfl, hback⟩
  · intro b hx
    cases hx
    refine ⟨?_, hin⟩
    show InRange ((a.actingPlayerSeat.map toDouble).getD _)
    rw [hexact]
    exact hseat
  · intro b hx
    cases hx
  · exact fun h => h.2

theorem decodes_cardReveal (hkind : a.actionType = .cardReveal)
    (hcard : 0 ≤ a.reveal.revealedCard.ordinal ∧ a.reveal.revealedCard.ordinal ≤ 53) :
    ∃ t, Decodes ruleSet ts a t := by
  refine ⟨.cardReveal { a.toBase with reveal := a.reveal.parsed }, .of_read ?_ ?_ ?_ ?_⟩
  · simp [Go.SignedAction.toTs, hkind]
  · refine ⟨rfl, hkind.symm, ?_⟩
    simp only [hkind]
    refine RevealedCard.parsed_eq ⟨hcard.1, ?_⟩
    simp only [maxSafeInteger]
    omega
  · exact fun h => h.2
  · simp [Ts.SignedAction.actionType]

theorem decodes_dealConcealed (hkind : a.actionType = .dealConcealed)
    (hformat : ruleSet.deckFormat = 52 ∨ ruleSet.deckFormat = 54)
    (hcount : (a.concealedCards.length : Int) = ruleSet.deckFormat)
    (hpositions : checkPositions ruleSet.deckFormat [] a.concealedCards = none)
    (hdeck : ts.concealedDeck ≠ some []) : ∃ t, Decodes ruleSet ts a t := by
  have hne : a.concealedCards ≠ [] := by
    intro hnil
    rw [hnil, List.length_nil] at hcount
    omega
  have hparsed : a.concealedCards.map ConcealedCard.parsed = a.concealedCards := by
    have hid : a.concealedCards.map ConcealedCard.parsed = a.concealedCards.map id := by
      apply List.map_congr_left
      intro c hc
      have hpos := position_of_checkPositions hpositions c hc
      refine ConcealedCard.parsed_eq ⟨hpos.1, ?_⟩
      simp only [maxSafeInteger]
      omega
    rw [hid, List.map_id]
  refine ⟨.dealConcealed { a.toBase with
    concealedCards := a.concealedCards.map ConcealedCard.parsed }, .of_read ?_ ?_ ?_ ?_⟩
  · simp [Go.SignedAction.toTs, hkind, hne]
  · refine ⟨rfl, hkind.symm, ?_⟩
    simp only [hkind]
    exact hparsed
  · exact fun h => hdeck h.2.2.1
  · simp [Ts.SignedAction.actionType]

theorem decodes_bet (hkind : a.actionType = .betAction)
    (hmax : a.betAmount ≤ uint64 ruleSet.maxBet)
    (haud : Auditable ruleSet ts.toGo a) : ∃ t, Decodes ruleSet ts a t := by
  obtain ⟨hnonzero, hpot⟩ := haud.bet hkind
  have hle : (a.betAmount.toNat : Int) ≤ maxSafeInteger := by
    have := uint64_le ruleSet.maxBet
    have := UInt64.le_iff_toNat_le.mp hmax
    omega
  obtain ⟨hin, hback⟩ := amount_toDouble hle
  refine ⟨.betAction { a.toBase with betAmount := toDouble a.betAmount.toNat },
    ?_, ?_, ?_, ?_, ?_⟩
  · simp [Go.SignedAction.toTs, hkind, hnonzero]
  · refine ⟨rfl, hkind.symm, ?_⟩
    simp only [hkind]
    exact hback
  · intro b h
    cases h
  · intro b h
    cases h
    exact hin
  · intro h
    obtain ⟨_, _, _, _, hover⟩ := h
    have hval : ts.toGo.potValue.toNat = ts.potValue.val := uint64_toNat ts.potValue
    have hbet : toDouble a.betAmount.toNat = a.betAmount.toNat :=
      toDouble_of_inRange ⟨by omega, hle⟩
    simp only [hbet] at hover
    omega

/-- An action of a seated player, who is all it names. -/
theorem decodes_seated {seat : Int} {idx : Nat} {p : Go.PlayerState}
    (hkind : a.actionType = .entropyCommit ∨ a.actionType = .entropyReveal ∨ a.actionType = .fold)
    (hseat : a.actingPlayerSeat = some seat)
    (hfind : Go.findSeat ts.toGo.players seat = some (idx, p))
    (hdeck : ts.concealedDeck ≠ some []) : ∃ t, Decodes ruleSet ts a t := by
  have hexact : a.actingPlayerSeat.map toDouble = a.actingPlayerSeat := by
    rw [hseat, Option.map_some, seat_toDouble hfind]
  rcases hkind with hkind | hkind | hkind
  · refine ⟨.entropyCommit { a.toBase with commitmentHash := a.commitmentHash },
      .of_read ?_ ?_ ?_ ?_⟩
    · simp [Go.SignedAction.toTs, hkind]
    · refine ⟨rfl, hkind.symm, ?_⟩
      simp only [hkind]
      exact ⟨hexact, rfl⟩
    · exact fun h => h.2
    · simp [Ts.SignedAction.actionType]
  · refine ⟨.entropyReveal { a.toBase with entropy := a.entropy }, .of_read ?_ ?_ ?_ ?_⟩
    · simp [Go.SignedAction.toTs, hkind]
    · refine ⟨rfl, hkind.symm, ?_⟩
      simp only [hkind]
      exact ⟨hexact, rfl⟩
    · exact fun h => h.2
    · simp [Ts.SignedAction.actionType]
  · refine ⟨.fold a.toBase, .of_read ?_ ?_ ?_ ?_⟩
    · simp [Go.SignedAction.toTs, hkind]
    · refine ⟨rfl, hkind.symm, ?_⟩
      simp only [hkind]
      exact hexact
    · exact fun h => hdeck h.2.2.1
    · simp [Ts.SignedAction.actionType]

theorem not_settleDiverges (h : SettlesInRange ruleSet ts.toGo) : ¬SettleDiverges ruleSet ts := by
  intro hx
  obtain ⟨_, hcards, acting, cls, hacting, hcls, hbad⟩ := hx
  obtain ⟨cls', hts, hgo⟩ := classify_agree ts.visibleCards hcards
  rw [hts] at hcls
  cases hcls
  have hclass : cls ∈ (Go.classifyInBetweenRound ts.toGo.visibleCards).toOption := by
    show cls ∈ (Go.classifyInBetweenRound ts.visibleCards).toOption
    rw [hgo]
    rfl
  have hpot : ts.potValue ∈ SafeNat.ofInt? ts.toGo.potValue.toNat := by
    have hval : ts.toGo.potValue.toNat = ts.potValue.val := uint64_toNat ts.potValue
    rw [hval]
    exact SafeNat.ofInt?_val ts.potValue
  obtain ⟨hin, hall⟩ := h cls hclass ts.potValue hpot
  rcases hbad with ⟨_, p, hp, hseat, hout⟩ | ⟨hout, _⟩
  · have hpaid := hall p.toGo (List.mem_map_of_mem hp)
      (by rw [← hseat] at hacting; simp [Ts.RoundState.toGo, hacting, Ts.PlayerState.toGo])
    have hval : p.toGo.stakeAtRisk.toNat = p.stakeAtRisk.val := uint64_toNat p.stakeAtRisk
    rw [hval] at hpaid
    exact hout hpaid
  · exact hout hin

/-- An action of which the engines read nothing but its game and type. -/
theorem decodes_plain (hwf : ts.table.WF)
    (hkind : a.actionType = .tableLock ∨ a.actionType = .pass ∨ a.actionType = .settle ∨
      a.actionType = .rotateTurn ∨ a.actionType = .tableClose ∨ a.actionType = .recovery)
    (haud : Auditable ruleSet ts.toGo a) : ∃ t, Decodes ruleSet ts a t := by
  have hplain : ∀ t : Ts.SignedAction, a.toTs = some t → t.toGo.gameId = a.gameId →
      t.actionType = a.actionType → ¬Diverges ruleSet ts t → Decodes ruleSet ts a t := by
    intro t hread hgame htype hfollows
    refine .of_read hread ⟨hgame, (toGo_common t).2.trans htype, ?_⟩ hfollows ?_
    · rcases hkind with hkind | hkind | hkind | hkind | hkind | hkind
      all_goals simp only [hkind]
    · rw [htype]
      rcases hkind with hkind | hkind | hkind | hkind | hkind | hkind
      all_goals simp [hkind]
  rcases hkind with hkind | hkind | hkind | hkind | hkind | hkind
  · exact ⟨.tableLock a.toBase, hplain _ (by simp [Go.SignedAction.toTs, hkind]) rfl hkind.symm
      fun h => h.2⟩
  · exact ⟨.pass a.toBase, hplain _ (by simp [Go.SignedAction.toTs, hkind]) rfl hkind.symm
      fun h => h.2⟩
  · exact ⟨.settle a.toBase, hplain _ (by simp [Go.SignedAction.toTs, hkind]) rfl hkind.symm
      fun h => not_settleDiverges (haud.settle hkind) h.2⟩
  · exact ⟨.rotateTurn a.toBase, hplain _ (by simp [Go.SignedAction.toTs, hkind]) rfl hkind.symm
      fun h => not_rotateDiverges hwf h.2⟩
  · exact ⟨.tableClose a.toBase, hplain _ (by simp [Go.SignedAction.toTs, hkind]) rfl hkind.symm
      fun h => h.2⟩
  · exact ⟨.recovery { a.toBase with recoveryTrigger := a.recoveryTrigger },
      hplain _ (by simp [Go.SignedAction.toTs, hkind]) rfl hkind.symm fun h => h.2⟩

/-- **Every accepted, auditable action decodes.** -/
theorem Auditable.decodes {height : UInt32} {next : Go.RoundState}
    (haud : Auditable ruleSet ts.toGo a) (hwf : ts.table.WF) (hdeck : ts.concealedDeck ≠ some [])
    (hdecision : ts.decisionDeadlineBlockHeight = none)
    (hformat : ts.stateClass = .s5DeckCommitted →
      ruleSet.deckFormat = 52 ∨ ruleSet.deckFormat = 54)
    (hcard : a.actionType = .cardReveal →
      0 ≤ a.reveal.revealedCard.ordinal ∧ a.reveal.revealedCard.ordinal ≤ 53)
    (h : Go.Accepts ruleSet.toGo height ts.toGo a next) : ∃ t, Decodes ruleSet ts a t := by
  cases h with
  | join hkind _ hstake => exact decodes_join hkind hstake haud
  | tableLock hkind => exact decodes_plain hwf (.inl hkind) haud
  | entropyCommit hkind _ hseat hfind => exact decodes_seated (.inl hkind) hseat hfind hdeck
  | entropyReveal hkind _ hseat hfind =>
      exact decodes_seated (.inr (.inl hkind)) hseat hfind hdeck
  | firstCard hkind | secondCard hkind | thirdCard hkind =>
      exact decodes_cardReveal hkind (hcard hkind)
  | dealConcealed hkind hclass _ hcount hpositions =>
      exact decodes_dealConcealed hkind (hformat hclass) hcount hpositions hdeck
  | bet hkind _ _ hmax => exact decodes_bet hkind hmax haud
  | pass hkind => exact decodes_plain hwf (.inr (.inl hkind)) haud
  | fold hkind _ hseat hfind => exact decodes_seated (.inr (.inr hkind)) hseat hfind hdeck
  | settle hkind => exact decodes_plain hwf (.inr (.inr (.inl hkind))) haud
  | rotate hkind | finish hkind =>
      exact decodes_plain hwf (.inr (.inr (.inr (.inl hkind)))) haud
  | tableClose hkind =>
      exact decodes_plain hwf (.inr (.inr (.inr (.inr (.inl hkind))))) haud
  | timeout _ _ hdue =>
      -- no decision deadline is ever set
      have hnone : ts.toGo.decisionDeadlineBlockHeight = none := by
        simp only [Ts.RoundState.toGo, hdecision, Option.map_none]
      rw [hnone] at hdue
      cases hdue
  | recovery hkind =>
      exact decodes_plain hwf (.inr (.inr (.inr (.inr (.inr hkind))))) haud

end Decoding

/-! ## The gate -/

/-- Where TypeScript draws a byte, Go draws the same one. -/
theorem nextByte_below : Sampling.Below Ts.nextByte Go.nextByte := by
  intro p r h
  simp only [Ts.nextByte, Go.nextByte] at h ⊢
  split at h
  · rename_i hempty
    rw [if_pos hempty]
    split at h
    · rename_i hcounter
      rw [Nat.mod_eq_of_lt (by omega)]
      exact h
    · cases h
  · rename_i hleft
    rw [if_neg hleft]
    exact h

/-- The deck Go commits is the one TypeScript commits, if its shuffle
ends. -/
theorem buildDeckCommitment_follows {combined : List UInt8} {deckSize version : Int}
    {dc : DeckCommitment} (h : Go.buildDeckCommitment combined deckSize version = .ok dc)
    (hends : (shuffleDeck Ts.nextByte combined deckSize.toNat).isSome = true) :
    Ts.buildDeckCommitment combined deckSize version = .ok dc := by
  obtain ⟨rfl, hsize, hlen, deck, hdeck, rfl⟩ := Go.buildDeckCommitment_eq_ok_iff.mp h
  obtain ⟨deck', hdeck'⟩ := Option.isSome_iff_exists.mp hends
  have hsame := shuffleDeck_mono nextByte_below hdeck'
  rw [hdeck] at hsame
  cases hsame
  exact Ts.buildDeckCommitment_eq_ok hsize hlen hdeck'

theorem eq_some_of_getD {text : String} {o : Option String} (h : o.getD "" = text)
    (hne : text ≠ "") : o = some text := by
  cases o with
  | none => exact absurd h.symm hne
  | some _ =>
      rw [← h]
      rfl

section Gate

variable {ruleSet : Ts.RuleSet} {ts : Ts.RoundState} {s : Go.Session} {a : Go.SignedAction}

theorem checkEntropyReveal_follows (hstate : ts.toGo = s.state)
    (hgame : s.state.gameId = s.gameId) (hlower : Ts.isHex64 a.entropy = true)
    (hseat : a.actingPlayerSeat.map toDouble = a.actingPlayerSeat)
    (hgate : s.checkEntropyReveal a = .ok ()) :
    Ts.checkEntropyReveal ts { a.toBase with entropy := a.entropy } = .ok () := by
  obtain ⟨seat, hacting, ⟨o⟩⟩ := Go.Session.opens_of_checkEntropyReveal hgate
  have hplayers : s.state.players = ts.players.map Ts.PlayerState.toGo := by rw [← hstate]; rfl
  have hgameId : ts.gameId = s.gameId := by rw [← hgame, ← hstate]; rfl
  have hseated := o.seated
  rw [hplayers, List.find?_map] at hseated
  obtain ⟨p, hfind, hp⟩ := Option.map_eq_some_iff.mp hseated
  replace hfind : ts.players.find? (fun p => (p.seat.val : Int) == seat) = some p := hfind
  have hstored : p.entropyCommitmentHash = some o.player.entropyCommitmentHash :=
    eq_some_of_getD (by rw [← hp]; rfl) o.committed
  have hkey : p.valueSigningPubkey = o.player.valueSigningPubkey := by rw [← hp]; rfl
  have hexact : a.toBase.actingPlayerSeat = some seat := hseat.trans hacting
  obtain ⟨hentropy, hentropyLen⟩ := Go.Session.decodeBytes32_eq_some.mp o.entropyHex
  obtain ⟨hgameHex, hgameLen⟩ := Go.Session.decodeBytes32_eq_some.mp o.gameHex
  have htail : (o.key.drop (o.key.length - 32)).length = 32 := by
    have := o.keyLong
    rw [List.length_drop]
    omega
  have hlong : ¬o.key.length < 32 := Nat.not_lt.mpr o.keyLong
  simp [Ts.checkEntropyReveal, hexact, hfind, hstored, hlower, hkey, hgameId,
    Ts.fromHex_of_decode o.commitmentHex, Ts.fromHex_of_decode hentropy,
    Ts.fromHex_of_decode o.keyHex, Ts.fromHex_of_decode hgameHex, hlong, hgameLen,
    Ts.commitEntropy_eq_ok hentropyLen htail hgameLen, o.opened]

theorem checkCardReveal_follows (hstate : ts.toGo = s.state) (hrules : s.ruleSet = ruleSet.toGo)
    (hdeck : DeckEnds ruleSet ts) (hgate : s.checkCardReveal a = .ok ()) :
    Ts.checkCardReveal ts { a.toBase with reveal := a.reveal.parsed } ruleSet = .ok () := by
  obtain ⟨o⟩ := Go.Session.opensCard_of_checkCardReveal hgate
  obtain ⟨hcombined, hlen⟩ := Go.Session.decodeBytes32_eq_some.mp o.combinedHex
  have hne : s.state.combinedEntropy ≠ "" := by
    intro hempty
    rw [hempty] at hcombined
    have hnil : [] = o.combined := Option.some.inj hcombined
    rw [← hnil] at hlen
    cases hlen
  have hbound : ts.combinedEntropy = some s.state.combinedEntropy :=
    eq_some_of_getD (by rw [← hstate]; rfl) hne
  obtain ⟨combined, htext, _, hends⟩ := hdeck _ hbound
  have hsame : o.combined = combined := by
    rw [htext, Hex.decode_encode] at hcombined
    exact (Option.some.inj hcombined).symm
  have hbuilt := o.built
  rw [hrules] at hbuilt
  have hts := buildDeckCommitment_follows hbuilt (hsame ▸ hends)
  obtain ⟨_, hsize, _, deck, hshuffled, hdc⟩ := Go.buildDeckCommitment_eq_ok_iff.mp hbuilt
  -- the position and the ordinal are small enough to be exact
  have hpos : a.reveal.position < 54 := by
    have hlisted := List.getElem?_eq_some_iff.mp o.listed
    obtain ⟨hlt, _⟩ := hlisted
    rw [hdc, commitDeck, length_deckPositions, length_of_shuffleDeck hshuffled] at hlt
    have := o.nonneg
    rcases hsize with hsize | hsize
    · rw [hsize] at hlt
      omega
    · rw [hsize] at hlt
      omega
  have hposition : toDouble a.reveal.position = a.reveal.position :=
    toDouble_of_inRange ⟨o.nonneg, by simp only [maxSafeInteger]; omega⟩
  have hcard : a.reveal.revealedCard.parsed = a.reveal.revealedCard :=
    RevealedCard.parsed_eq ⟨o.ordinal.1, by have := o.ordinal.2; simp only [maxSafeInteger]; omega⟩
  obtain ⟨hcn, hcnLen⟩ := Go.Session.decodeBytes32_eq_some.mp o.cardNonceHex
  obtain ⟨hdn, hdnLen⟩ := Go.Session.decodeBytes32_eq_some.mp o.deckNonceHex
  have hordinal : ¬(a.reveal.revealedCard.ordinal < 0 ∨ 53 < a.reveal.revealedCard.ordinal) := by
    have := o.ordinal
    omega
  have hnonneg : ¬a.reveal.position < 0 := Int.not_lt.mpr o.nonneg
  replace hts : Ts.buildDeckCommitment o.combined ruleSet.deckFormat
      ruleSet.shuffleAlgorithmVersion = .ok o.deck := hts
  simp [Ts.checkCardReveal, hbound, Ts.fromHex_of_decode hcombined, hts, RevealProof.parsed,
    hposition, hcard, hnonneg, o.listed, Ts.fromHex_of_decode hcn, Ts.fromHex_of_decode hdn,
    Ts.verifyRevealProof, Ts.commitCard_eq_ok hordinal hcnLen hdnLen, o.opened]

/-- **The TypeScript gate lets through what the Go gate does.** -/
theorem verify_follows {t : Ts.SignedAction} (hstate : ts.toGo = s.state)
    (hgame : s.state.gameId = s.gameId) (hrules : s.ruleSet = ruleSet.toGo)
    (hdeck : DeckEnds ruleSet ts) (haud : Auditable ruleSet s.state a)
    (hgate : s.verifyCrypto a = .ok ()) (h : Decodes ruleSet ts a t) :
    Ts.verify ts t ruleSet = .ok () := by
  have htype : a.actionType = t.actionType := h.same.2.1.symm.trans (toGo_common t).2
  have hread := h.read
  cases t with
  | entropyCommit b =>
      have hkind : a.actionType = .entropyCommit := htype
      simp only [Go.SignedAction.toTs, hkind, Option.some.injEq,
        Ts.SignedAction.entropyCommit.injEq] at hread
      subst hread
      simp [Ts.verify, Ts.checkEntropyCommit, haud.commit hkind]
  | entropyReveal b =>
      have hkind : a.actionType = .entropyReveal := htype
      have hsame := h.same.2.2
      simp only [hkind] at hsame
      simp only [Go.SignedAction.toTs, hkind, Option.some.injEq,
        Ts.SignedAction.entropyReveal.injEq] at hread
      subst hread
      simp only [Go.Session.verifyCrypto, hkind] at hgate
      exact checkEntropyReveal_follows hstate hgame (haud.reveal hkind).1 hsame.1 hgate
  | cardReveal b =>
      have hkind : a.actionType = .cardReveal := htype
      simp only [Go.SignedAction.toTs, hkind, Option.some.injEq,
        Ts.SignedAction.cardReveal.injEq] at hread
      subst hread
      simp only [Go.Session.verifyCrypto, hkind] at hgate
      exact checkCardReveal_follows hstate hrules hdeck hgate
  -- the other actions pass the gate unseen
  | _ => rfl

end Gate

/-! ## The deck -/

section Deck

/-- Both languages bring the players into the same order. -/
theorem sortPlayers_toGo {players : List Ts.PlayerState}
    (hnd : (players.map fun p => (p.seat.val : Int)).Nodup) :
    Go.Session.sortPlayers (players.map Ts.PlayerState.toGo) =
      (Ts.seatSorted players).map Ts.PlayerState.toGo := by
  have hperm : (Ts.seatSorted players).Perm players := List.perm_insertionSort ..
  have hgo : (Go.Session.sortPlayers (players.map Ts.PlayerState.toGo)).Pairwise
      (fun p q => p.seat ≤ q.seat) := by
    rw [← List.pairwise_map (f := Go.PlayerState.seat) (R := (· ≤ ·)), Go.Session.map_seat_sortPlayers]
    exact Go.sortSeats_sorted _
  have hts : ((Ts.seatSorted players).map Ts.PlayerState.toGo).Pairwise
      (fun p q => p.seat ≤ q.seat) := by
    have : Std.Total (fun p q : Ts.PlayerState => p.seat.val ≤ q.seat.val) :=
      ⟨fun p q => Nat.le_total p.seat.val q.seat.val⟩
    have : IsTrans Ts.PlayerState (fun p q => p.seat.val ≤ q.seat.val) :=
      ⟨fun _ _ _ => Nat.le_trans⟩
    have h := List.pairwise_insertionSort
      (fun p q : Ts.PlayerState => p.seat.val ≤ q.seat.val) players
    exact List.pairwise_map.mpr (h.imp fun hle => Int.ofNat_le.mpr hle)
  -- two sorted lists of the same players, whose seats are distinct
  refine List.Perm.eq_of_pairwise ?_ hgo hts
    ((Go.Session.sortPlayers_perm _).trans (hperm.map _).symm)
  intro p q hp hq hle hge
  have hp := (Go.Session.sortPlayers_perm _).mem_iff.mp hp
  have hq := (hperm.map Ts.PlayerState.toGo).mem_iff.mp hq
  have hseats : ((players.map Ts.PlayerState.toGo).map (·.seat)).Nodup := by
    rw [List.map_map]
    exact hnd
  exact List.inj_on_of_nodup_map hseats hp hq (Int.le_antisymm hle hge)

theorem collectEntropies_follows {players : List Ts.PlayerState} {entropies : List (List UInt8)}
    (h : Go.Session.collectEntropies (players.map Ts.PlayerState.toGo) = .ok entropies) :
    Ts.collectEntropies players = .ok (some entropies) := by
  induction players generalizing entropies with
  | nil =>
      cases h
      rfl
  | cons p rest ih =>
      simp only [List.map_cons, Go.Session.collectEntropies] at h
      split at h
      · cases h
      · rename_i hgiven
        split at h
        · cases h
        · rename_i e he
          split at h
          · cases h
          · rename_i parts hparts
            cases h
            obtain ⟨hhex, _⟩ := Go.Session.decodeBytes32_eq_some.mp he
            have hvalue : p.entropyValue = some p.toGo.entropyValue :=
              eq_some_of_getD rfl hgiven
            simp [Ts.collectEntropies, hvalue, Ts.fromHex_of_decode hhex, ih hparts]

variable {ruleSet : Ts.RuleSet} {ts tnext : Ts.RoundState} {final : Go.RoundState}

/-- A deck that is bound is not written as the empty text. -/
theorem DeckEnds.none_iff (h : DeckEnds ruleSet ts) :
    ts.combinedEntropy = none ↔ ts.toGo.combinedEntropy = "" := by
  have hget : ts.toGo.combinedEntropy = ts.combinedEntropy.getD "" := rfl
  rw [hget]
  cases htext : ts.combinedEntropy with
  | none => simp
  | some text =>
      obtain ⟨combined, rfl, hlen, _⟩ := h text htext
      simp only [Option.getD_some, Hex.encode_eq_empty_iff, reduceCtorEq, false_iff]
      intro heq
      subst heq
      cases hlen

/-- **Both sessions bind the same deck.** -/
theorem bindDeck_follows (hnd : (tnext.players.map fun p => (p.seat.val : Int)).Nodup)
    (hkept : tnext.combinedEntropy = ts.combinedEntropy) (hdeck : DeckEnds ruleSet ts)
    (hends : Go.Session.Unbound ts.toGo tnext.toGo → ShuffleEnds ruleSet tnext.toGo.players)
    (hbind : Go.Session.bindDeck ruleSet.toGo ts.toGo tnext.toGo = .ok final) :
    ∃ tfinal, Ts.bindDeck ts tnext ruleSet = .ok tfinal ∧ tfinal.toGo = final ∧
      tfinal.recoveryDeadlineBlockHeight = tnext.recoveryDeadlineBlockHeight ∧
      DeckEnds ruleSet tfinal := by
  have hnext : DeckEnds ruleSet tnext := by
    intro text htext
    exact hdeck text (hkept ▸ htext)
  have hunbound : Ts.Unbound ts tnext ↔ Go.Session.Unbound ts.toGo tnext.toGo := by
    simp only [Ts.Unbound, Go.Session.Unbound, hnext.none_iff]
    rfl
  simp only [Ts.bindDeck, hunbound]
  simp only [Go.Session.bindDeck] at hbind
  split at hbind
  -- the last reveal: both build the deck from the same entropies
  · rename_i hopen
    rw [if_pos hopen]
    obtain ⟨entropies, dc, hentropies, hcombine, hdc, rfl⟩ := Go.Session.materialise_eq_ok hbind
    have hshuffle := hends hopen
    simp only [ShuffleEnds, hentropies] at hshuffle
    have hplayers : tnext.toGo.players = tnext.players.map Ts.PlayerState.toGo := rfl
    rw [hplayers, sortPlayers_toGo hnd] at hentropies
    obtain ⟨hne, hall, _⟩ := Go.combineEntropy_eq_ok hcombine
    have hts := collectEntropies_follows hentropies
    have hbuilt := buildDeckCommitment_follows hdc hshuffle
    obtain ⟨_, _, hlen, deck, _, rfl⟩ := Go.buildDeckCommitment_eq_ok_iff.mp hdc
    have hseed : Ts.asHash256 (Hex.encode (combinedSeed entropies)) = .ok _ :=
      Ts.asHash256_encode hlen
    have hhash : Ts.asHash256
        (Hex.encode (commitDeck (combinedSeed entropies) deck).deckCommitmentHash) = .ok _ :=
      Ts.asHash256_encode (length_domainHash _ _)
    refine ⟨{ tnext with
      combinedEntropy := some (Hex.encode (combinedSeed entropies))
      deckCommitmentHash :=
        some (Hex.encode (commitDeck (combinedSeed entropies) deck).deckCommitmentHash) },
      ?_, rfl, rfl, ?_⟩
    · replace hbuilt : Ts.buildDeckCommitment (combinedSeed entropies) ruleSet.deckFormat
        ruleSet.shuffleAlgorithmVersion = .ok _ := hbuilt
      simp [Ts.materialiseDeckCommitment, hts, Ts.combineEntropy_eq_ok hne hall, hbuilt, hseed,
        hhash]
    · intro text htext
      exact ⟨combinedSeed entropies, (Option.some.inj htext).symm, hlen, hshuffle⟩
  -- any other action: both leave the state alone
  · rename_i hclosed
    cases hbind
    rw [if_neg hclosed]
    exact ⟨tnext, rfl, rfl, rfl, hnext⟩

end Deck

/-! ## One step -/

/-- The deck is bound by the last reveal. -/
theorem reveal_of_unbound {ruleSet : Go.RuleSet} {height : UInt32} {state next : Go.RoundState}
    {a : Go.SignedAction} (h : Go.Accepts ruleSet height state a next)
    (hopen : Go.Session.Unbound state next) :
    a.actionType = .entropyReveal ∧ next.players = withReveal state.players a := by
  obtain ⟨h4, h5, _⟩ := hopen
  cases h with
  | entropyReveal hkind _ hseat hfind hplayers =>
      refine ⟨hkind, ?_⟩
      simp only [withReveal, hseat, hfind]
      exact hplayers
  | recovery => cases h5
  | fold _ hclass =>
      rw [h4] at hclass
      rcases hclass with hclass | hclass
      · cases hclass
      · cases hclass
  | _ _ hclass =>
      rw [h4] at hclass
      cases hclass

theorem table_toGo (ts : Ts.RoundState) : ts.toGo.table = ts.table := by
  simp only [Go.RoundState.table, Ts.RoundState.table, Ts.RoundState.toGo, List.map_map]
  rfl

variable {gameId ruleSetHash : String} {ruleSet : Ts.RuleSet} {deadline height : UInt32}
  {s : Go.Session} {ts : Ts.RoundState} {a : Go.SignedAction} {next final : Go.RoundState}

/-- **One step of the audit.** What the gate, the engine and the deck of
the relay accept of an auditable action, `verifyAndApply` accepts, and
the states still correspond. -/
theorem Mirrors.step (hm : Mirrors ruleSet deadline s.state ts)
    (htracks : Go.Session.Tracks gameId ruleSet.toGo ruleSetHash deadline s)
    (hsound : Go.Session.Sound s) (haud : Auditable ruleSet s.state a)
    (hgate : s.verifyCrypto a = .ok ())
    (hnext : Go.applyAction s.state a s.ruleSet height = .ok next)
    (hbind : Go.Session.bindDeck s.ruleSet s.state next = .ok final) :
    ∃ t ts', a.toTs = some t ∧ Ts.verifyAndApply ts t ruleSet (blockHeight height) = .ok ts' ∧
      Mirrors ruleSet deadline final ts' := by
  obtain ⟨hstate, hrecovery, hdeck⟩ := hm
  have hrules := htracks.rules
  have hwf : ts.table.WF := by
    rw [← table_toGo, hstate]
    exact hsound.table
  have hreveals := htracks.reveals
  have hformat := hsound.format
  have hconcealed := hsound.concealed
  have hdecision := hsound.decision
  rw [hrules] at hnext hbind hformat
  rw [← hstate] at hnext hbind haud hreveals hformat hconcealed hdecision
  have haccepts := (Go.accepts_of_applyAction hnext).2
  -- the recorded action, as the harness reads it
  obtain ⟨t, ht⟩ : ∃ t, Decodes ruleSet ts a t := by
    apply haud.decodes hwf hconcealed (Option.map_eq_none_iff.mp hdecision) ?_ ?_ haccepts
    · intro hclass
      apply hformat
      have hclass' : ts.toGo.stateClass = .s5DeckCommitted := hclass
      rwa [hclass'] at hreveals
    · intro hkind
      simp only [Go.Session.verifyCrypto, hkind] at hgate
      obtain ⟨o⟩ := Go.Session.opensCard_of_checkCardReveal hgate
      exact o.ordinal
  have hverify := verify_follows hstate hsound.game hrules hdeck (hstate ▸ haud) hgate ht
  -- the engines
  have hagree : Agree (Ts.applyAction ts t ruleSet (blockHeight height))
      (Go.applyAction ts.toGo t.toGo ruleSet.toGo (uint32 (blockHeight height))) := by
    refine (agree_applyAction_iff ht.join ht.bet (blockHeight_lt height) ?_ ?_).mpr ht.follows
    · intro d hd
      rw [Option.map_eq_none_iff.mp hdecision] at hd
      cases hd
    · intro d hd
      rw [hrecovery] at hd
      cases hd
      exact blockHeight_lt deadline
  rw [uint32_blockHeight, Go.applyAction_same ht.same, hnext] at hagree
  cases hts : Ts.applyAction ts t ruleSet (blockHeight height) with
  | err e =>
      rw [hts] at hagree
      exact hagree.elim
  | halt k =>
      rw [hts] at hagree
      exact hagree.elim
  | ok tnext =>
      rw [hts, agree_ok_ok] at hagree
      subst hagree
      obtain ⟨hkeptDeck, hkeptDue⟩ := (Ts.accepts_of_applyAction hts).2.keepsDeck
      have hnd : (tnext.players.map fun p => (p.seat.val : Int)).Nodup := by
        have hwf' : tnext.toGo.table.WF := by
          rw [← table_toGo] at hwf
          have hstep : Go.Step ruleSet.toGo ts.toGo (a, height) tnext.toGo := hnext
          exact hwf.step (Go.table_step hwf hstep)
        rw [table_toGo] at hwf'
        exact hwf'.seatsNodup
      have hends : Go.Session.Unbound ts.toGo tnext.toGo →
          ShuffleEnds ruleSet tnext.toGo.players := by
        intro hopen
        obtain ⟨hkind, hplayers⟩ := reveal_of_unbound haccepts hopen
        rw [hplayers]
        exact (haud.reveal hkind).2
      obtain ⟨tfinal, htfinal, hfinal, hdue, hdeck'⟩ :=
        bindDeck_follows hnd hkeptDeck hdeck hends hbind
      refine ⟨t, tfinal, ht.read, ?_, hfinal, ?_, hdeck'⟩
      · simp [Ts.verifyAndApply, hverify, hts, htfinal]
      · rw [hdue, hkeptDue, hrecovery]

end CardTable
