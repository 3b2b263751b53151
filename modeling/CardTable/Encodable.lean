import CardTable.Chain

/-!
# Encodable — which reachable states have a hash

The encoder reads ten kinds of hex text. Game id, rule-set hash and prior
hash are what they were at the start; the one text that comes out of an
action on every table is the player id. `PlayerId` is documented as
derived from the player's key, the encoder reads it as 32 bytes, and
`applyJoin` stores the 33-byte key itself.
-/

namespace CardTable

open Basis

/-! ## TypeScript -/

namespace Ts

variable {ruleSet : RuleSet} {gameId ruleSetHash : String} {deadline height : SafeNat}
  {state state' : RoundState} {action : SignedAction}
  {hist : List ((SignedAction × SafeNat) × RoundState)}

/-- **A key is no player id**: it is 66 characters long. -/
theorem not_readsHex_of_isPubkey33 {key : String} (h : isPubkey33 key = true) :
    ¬ReadsHex (codeUnits key) := by
  intro hreads
  obtain ⟨hchars, hascii⟩ := Ts.pubkey_chars h
  have hlen := hreads.1
  rw [codeUnits, units_of_ascii hascii, List.length_map, hchars] at hlen
  cases hlen

/-- The key a `Join` brings. -/
def joinedKey : SignedAction → Option String
  | .join a => some a.playerPubkey
  | _ => none

/-- Every action leaves the player ids alone, but `Join` adds its key. -/
theorem Accepts.playerIds (h : Accepts ruleSet height state action state') :
    state'.players.map (·.playerId) =
      state.players.map (·.playerId) ++ (joinedKey action).toList := by
  cases h with
  | join => simp [joinedKey, joinedPlayer]
  | entropyCommit _ hfind =>
      simp only [joinedKey, Option.toList_none, List.append_nil]
      exact map_set_of_eq (findSeat_getElem? hfind) rfl
  | entropyReveal _ hfind =>
      simp only [joinedKey, Option.toList_none, List.append_nil]
      exact map_set_of_eq (findSeat_getElem? hfind) rfl
  | fold _ _ _ hfind =>
      simp only [joinedKey, Option.toList_none, List.append_nil]
      exact map_set_of_eq (findSeat_getElem? hfind) rfl
  | settle _ _ _ _ _ _ hplayers =>
      simp only [joinedKey, Option.toList_none, List.append_nil]
      exact settlePlayers_map (fun _ _ => rfl) hplayers
  | _ => simp [joinedKey, RoundState.advance]

/-- The player ids of a run are the keys of its joins. -/
theorem playerIds_of_run (h : Run ruleSet (initialState gameId ruleSetHash deadline) hist state) :
    state.players.map (·.playerId) = hist.filterMap (fun e => joinedKey e.1.1) := by
  refine h.collected (L := fun state => state.players.map (·.playerId))
    (A := fun call => joinedKey call.1) rfl ?_
  intro state call state' hstep
  obtain ⟨_, haccepts⟩ := accepts_of_applyAction hstep
  exact haccepts.playerIds

/-- No action touches the rule set, or the hashes no handler fills. -/
theorem Accepts.keepsHashes (h : Accepts ruleSet height state action state') :
    state'.ruleSetHash = state.ruleSetHash ∧
      state'.hiddenCommitmentRefs = state.hiddenCommitmentRefs ∧
      state'.successorTemplateHashes = state.successorTemplateHashes ∧
      state'.deckCommitmentHash = state.deckCommitmentHash := by
  cases h with
  | _ => exact ⟨rfl, rfl, rfl, rfl⟩

/-- The hex texts outside players and cards, after any run. -/
structure OuterHashes (gameId ruleSetHash : String) (state : RoundState) : Prop where
  gameId : state.gameId = gameId
  ruleSetHash : state.ruleSetHash = ruleSetHash
  hiddenCommitmentRefs : state.hiddenCommitmentRefs = []
  successorTemplateHashes : state.successorTemplateHashes = []
  combinedEntropy : state.combinedEntropy = none
  deckCommitmentHash : state.deckCommitmentHash = none
  priorStateHash : ∀ h ∈ state.priorStateHash, h = zeroHash
  stateHash : state.stateHash = zeroHash

theorem outerHashes_of_run
    (h : Run ruleSet (initialState gameId ruleSetHash deadline) hist state) :
    OuterHashes gameId ruleSetHash state := by
  refine h.invariant (I := OuterHashes gameId ruleSetHash) ?_ ?_
  · constructor
    case priorStateHash =>
      intro hash hmem
      cases hmem
    all_goals rfl
  · intro s input s' hs hstep
    obtain ⟨_, haccepts⟩ := accepts_of_applyAction hstep
    obtain ⟨hrules, hhidden, hsuccessors, hdeck⟩ := haccepts.keepsHashes
    obtain ⟨hprior, hhash⟩ := haccepts.chains
    exact {
      gameId := haccepts.keepsIdentity.1.trans hs.gameId
      ruleSetHash := hrules.trans hs.ruleSetHash
      hiddenCommitmentRefs := hhidden.trans hs.hiddenCommitmentRefs
      successorTemplateHashes := hsuccessors.trans hs.successorTemplateHashes
      combinedEntropy := haccepts.keepsDeck.1.trans hs.combinedEntropy
      deckCommitmentHash := hdeck.trans hs.deckCommitmentHash
      priorStateHash := by
        intro hash hmem
        rw [hprior, hs.stateHash] at hmem
        exact (Option.some.inj hmem).symm
      stateHash := hhash.trans hs.stateHash }

/-- A table without players stays in front of the deal. -/
def EmptyTable (state : RoundState) : Prop :=
  state.players = [] → state.concealedDeck = none ∧
    (state.stateClass = .s1SeatOpen ∨ state.stateClass = .s3EntropyCommitWindow ∨
      state.stateClass = .recovered)

theorem EmptyTable.step {input : SignedAction × SafeNat} (h : EmptyTable state)
    (hstep : Step ruleSet state input state') : EmptyTable state' := by
  obtain ⟨action, height⟩ := input
  obtain ⟨_, haccepts⟩ := accepts_of_applyAction hstep
  intro hempty
  have hids := haccepts.playerIds
  rw [hempty, List.map_nil, eq_comm, List.append_eq_nil_iff, List.map_eq_nil_iff] at hids
  obtain ⟨hdeck, hclass⟩ := h hids.1
  cases haccepts with
  | join => cases hids.2
  | tableLock => exact ⟨hdeck, .inr (.inl rfl)⟩
  | recovery => exact ⟨hdeck, .inr (.inr rfl)⟩
  | entropyCommit _ hfind | entropyReveal _ hfind | fold _ _ _ hfind =>
      have hmem := findSeat_mem hfind
      rw [hids.1] at hmem
      cases hmem
  -- the other handlers want a class that only seated players reach
  | _ hthere => simp [hthere] at hclass

theorem emptyTable_of_run
    (h : Run ruleSet (initialState gameId ruleSetHash deadline) hist state) : EmptyTable state :=
  h.invariant (fun _ => ⟨rfl, .inl rfl⟩) EmptyTable.step

/-- The key of a `Join` is a public key. -/
def ValidJoin (action : SignedAction) : Prop :=
  ∀ key ∈ joinedKey action, isPubkey33 key = true

/-- **A state encodes until somebody joins.** -/
theorem encodes_iff_nobody_joined (hgame : isHex64 gameId = true)
    (hrules : isHex64 ruleSetHash = true)
    (h : Run ruleSet (initialState gameId ruleSetHash deadline) hist state)
    (hjoins : ∀ e ∈ hist, ValidJoin e.1.1) :
    (∃ bytes, encodeRoundState state = .ok bytes) ↔
      ∀ e ∈ hist, e.1.1.actionType ≠ .join := by
  have hids := playerIds_of_run h
  have houter := outerHashes_of_run h
  rw [encodes_iff]
  constructor
  -- the key of a join is a player id for the rest of the run
  · intro hfields e he hjoin
    obtain ⟨key, hkey⟩ : ∃ key, joinedKey e.1.1 = some key := by
      cases haction : e.1.1 with
      | join a => exact ⟨_, rfl⟩
      | _ =>
          rw [haction] at hjoin
          cases hjoin
    have hmem : key ∈ state.players.map (·.playerId) := by
      rw [hids]
      exact List.mem_filterMap.mpr ⟨e, he, hkey⟩
    obtain ⟨p, hp, rfl⟩ := List.mem_map.mp hmem
    exact not_readsHex_of_isPubkey33 (hjoins e he _ hkey) (hfields.players p hp).playerId
  -- without players nothing but the ids given at the start is written
  · intro hnone
    have hempty : state.players = [] := by
      rw [← List.map_eq_nil_iff (f := (·.playerId)), hids, List.filterMap_eq_nil_iff]
      intro e he
      cases haction : e.1.1 with
      | join a => exact absurd (by rw [haction]; rfl) (hnone e he)
      | _ => rfl
    obtain ⟨hdeck, _⟩ := emptyTable_of_run h hempty
    exact {
      players := by simp [hempty]
      gameId := by rw [houter.gameId]; exact readsHex_of_isHex64 hgame
      ruleSetHash := by rw [houter.ruleSetHash]; exact readsHex_of_isHex64 hrules
      hiddenCommitmentRefs := by simp [houter.hiddenCommitmentRefs]
      successorTemplateHashes := by simp [houter.successorTemplateHashes]
      combinedEntropy := by simp [houter.combinedEntropy]
      deckCommitmentHash := by simp [houter.deckCommitmentHash]
      concealedDeck := by simp [hdeck]
      priorStateHash := by
        intro hash hmem
        rw [houter.priorStateHash hash hmem]
        exact readsHex_of_isHex64 (by decide) }

end Ts

/-! ## Go -/

namespace Go

variable {ruleSet : RuleSet} {gameId ruleSetHash : String} {deadline height : UInt32}
  {state state' : RoundState} {action : SignedAction}
  {hist : List ((SignedAction × UInt32) × RoundState)}

theorem readsHex_of_isHex64 {s : String} (h : Ts.isHex64 s = true) : ReadsHex s := by
  obtain ⟨bytes, hbytes, hlen⟩ := Ts.decodes_of_isHex64 h
  refine ⟨?_, bytes, hbytes⟩
  rw [Hex.utf8ByteSize_of_decode hbytes, hlen]

theorem not_readsHex_of_isPubkey33 {key : String} (h : Ts.isPubkey33 key = true) :
    ¬ReadsHex key := by
  intro hreads
  obtain ⟨hchars, hascii⟩ := Ts.pubkey_chars h
  have hsize := Hex.utf8ByteSize_ofList hascii
  rw [String.ofList_toList, hreads.1, hchars] at hsize
  cases hsize

/-- The key a `Join` brings. -/
def joinedKey (action : SignedAction) : Option String :=
  if action.actionType = .join then some action.playerPubkey else none

theorem Accepts.playerIds (h : Accepts ruleSet height state action state') :
    state'.players.map (·.playerId) =
      state.players.map (·.playerId) ++ (joinedKey action).toList := by
  cases h with
  | join hkind => simp [joinedKey, hkind, joinedPlayer]
  | entropyCommit hkind _ _ hfind =>
      simp only [joinedKey, hkind, reduceCtorEq, if_false, Option.toList_none, List.append_nil]
      exact map_set_of_eq (findSeat_getElem? hfind) rfl
  | entropyReveal hkind _ _ hfind hplayers =>
      simp only [joinedKey, hkind, reduceCtorEq, if_false, Option.toList_none, List.append_nil,
        hplayers]
      exact map_set_of_eq (findSeat_getElem? hfind) rfl
  | fold hkind _ _ hfind =>
      simp only [joinedKey, hkind, reduceCtorEq, if_false, Option.toList_none, List.append_nil]
      exact map_set_of_eq (findSeat_getElem? hfind) rfl
  | settle hkind _ _ _ _ _ _ hplayers =>
      simp only [joinedKey, hkind, reduceCtorEq, if_false, Option.toList_none, List.append_nil]
      exact settlePlayers_map (fun _ _ => rfl) hplayers
  | _ hkind => simp [joinedKey, hkind, RoundState.advance]

theorem playerIds_of_run (h : Run ruleSet (initialState gameId ruleSetHash deadline) hist state) :
    state.players.map (·.playerId) = hist.filterMap (fun e => joinedKey e.1.1) := by
  refine h.collected (L := fun state => state.players.map (·.playerId))
    (A := fun call => joinedKey call.1) rfl ?_
  intro state call state' hstep
  obtain ⟨_, haccepts⟩ := accepts_of_applyAction hstep
  exact haccepts.playerIds

theorem Accepts.keepsHashes (h : Accepts ruleSet height state action state') :
    state'.ruleSetHash = state.ruleSetHash ∧
      state'.hiddenCommitmentRefs = state.hiddenCommitmentRefs ∧
      state'.successorTemplateHashes = state.successorTemplateHashes := by
  cases h with
  | _ => exact ⟨rfl, rfl, rfl⟩

/-- The hex texts outside players and cards, after any run. -/
structure OuterHashes (gameId ruleSetHash : String) (state : RoundState) : Prop where
  gameId : state.gameId = gameId
  ruleSetHash : state.ruleSetHash = ruleSetHash
  hiddenCommitmentRefs : state.hiddenCommitmentRefs = []
  successorTemplateHashes : state.successorTemplateHashes = []
  combinedEntropy : state.combinedEntropy = ""
  deckCommitmentHash : state.deckCommitmentHash = ""
  priorStateHash : ∀ h ∈ state.priorStateHash, h = zeroHash
  stateHash : state.stateHash = zeroHash

theorem outerHashes_of_run
    (h : Run ruleSet (initialState gameId ruleSetHash deadline) hist state) :
    OuterHashes gameId ruleSetHash state := by
  refine h.invariant (I := OuterHashes gameId ruleSetHash) ?_ ?_
  · constructor
    case priorStateHash =>
      intro hash hmem
      cases hmem
    all_goals rfl
  · intro s input s' hs hstep
    obtain ⟨_, haccepts⟩ := accepts_of_applyAction hstep
    obtain ⟨hrules, hhidden, hsuccessors⟩ := haccepts.keepsHashes
    obtain ⟨hprior, hhash⟩ := haccepts.chains
    exact {
      gameId := haccepts.keepsIdentity.1.trans hs.gameId
      ruleSetHash := hrules.trans hs.ruleSetHash
      hiddenCommitmentRefs := hhidden.trans hs.hiddenCommitmentRefs
      successorTemplateHashes := hsuccessors.trans hs.successorTemplateHashes
      combinedEntropy := haccepts.keepsDeck.1.trans hs.combinedEntropy
      deckCommitmentHash := haccepts.keepsDeck.2.trans hs.deckCommitmentHash
      priorStateHash := by
        intro hash hmem
        rw [hprior, hs.stateHash] at hmem
        exact (Option.some.inj hmem).symm
      stateHash := hhash.trans hs.stateHash }

/-- A table without players stays in front of the deal. -/
def EmptyTable (state : RoundState) : Prop :=
  state.players = [] → state.concealedDeck = none ∧
    (state.stateClass = .s1SeatOpen ∨ state.stateClass = .s3EntropyCommitWindow ∨
      state.stateClass = .recovered)

theorem EmptyTable.step {input : SignedAction × UInt32} (h : EmptyTable state)
    (hstep : Step ruleSet state input state') : EmptyTable state' := by
  obtain ⟨action, height⟩ := input
  obtain ⟨_, haccepts⟩ := accepts_of_applyAction hstep
  intro hempty
  have hids := haccepts.playerIds
  rw [hempty, List.map_nil, eq_comm, List.append_eq_nil_iff, List.map_eq_nil_iff] at hids
  obtain ⟨hdeck, hclass⟩ := h hids.1
  cases haccepts with
  | join => simp at hempty
  | tableLock => exact ⟨hdeck, .inr (.inl rfl)⟩
  | recovery => exact ⟨hdeck, .inr (.inr rfl)⟩
  | entropyCommit _ _ _ hfind | entropyReveal _ _ _ hfind | fold _ _ _ hfind =>
      have hmem := findSeat_mem hfind
      rw [hids.1] at hmem
      cases hmem
  | _ _ hthere => simp [hthere] at hclass

theorem emptyTable_of_run
    (h : Run ruleSet (initialState gameId ruleSetHash deadline) hist state) : EmptyTable state :=
  h.invariant (fun _ => ⟨rfl, .inl rfl⟩) EmptyTable.step

/-- The key of a `Join` is a public key. -/
def ValidJoin (action : SignedAction) : Prop :=
  ∀ key ∈ joinedKey action, Ts.isPubkey33 key = true

/-- **A state encodes until somebody joins.** -/
theorem encodes_iff_nobody_joined (hgame : Ts.isHex64 gameId = true)
    (hrules : Ts.isHex64 ruleSetHash = true)
    (h : Run ruleSet (initialState gameId ruleSetHash deadline) hist state)
    (hjoins : ∀ e ∈ hist, ValidJoin e.1.1) :
    (∃ bytes, encodeRoundState state = .ok bytes) ↔
      ∀ e ∈ hist, e.1.1.actionType ≠ .join := by
  have hids := playerIds_of_run h
  have houter := outerHashes_of_run h
  rw [encodes_iff]
  constructor
  -- the key of a join is a player id for the rest of the run
  · intro hfields e he hjoin
    have hkey : joinedKey e.1.1 = some e.1.1.playerPubkey := if_pos hjoin
    have hmem : e.1.1.playerPubkey ∈ state.players.map (·.playerId) := by
      rw [hids]
      exact List.mem_filterMap.mpr ⟨e, he, hkey⟩
    obtain ⟨p, hp, hid⟩ := List.mem_map.mp hmem
    have hreads := (hfields.players p hp).playerId
    rw [hid] at hreads
    exact not_readsHex_of_isPubkey33 (hjoins e he _ hkey) hreads
  -- without players nothing but the ids given at the start is written
  · intro hnone
    have hempty : state.players = [] := by
      rw [← List.map_eq_nil_iff (f := (·.playerId)), hids, List.filterMap_eq_nil_iff]
      intro e he
      exact if_neg (hnone e he)
    obtain ⟨hdeck, _⟩ := emptyTable_of_run h hempty
    exact {
      players := by simp [hempty]
      gameId := by rw [houter.gameId]; exact readsHex_of_isHex64 hgame
      ruleSetHash := by rw [houter.ruleSetHash]; exact readsHex_of_isHex64 hrules
      hiddenCommitmentRefs := by simp [houter.hiddenCommitmentRefs]
      successorTemplateHashes := by simp [houter.successorTemplateHashes]
      combinedEntropy := by simp [houter.combinedEntropy]
      deckCommitmentHash := by simp [houter.deckCommitmentHash]
      concealedDeck := by simp [hdeck]
      priorStateHash := by
        intro hash hmem _
        rw [houter.priorStateHash hash hmem]
        exact readsHex_of_isHex64 (by decide) }

end Go

/-! ## Both engines -/

/-- **What can be hashed.** In every run whose joins carry public keys
the state encodes exactly as long as nobody has joined. -/
theorem hashable_iff_nobody_joined (gameId ruleSetHash : String)
    (hgame : Ts.isHex64 gameId = true) (hrules : Ts.isHex64 ruleSetHash = true) :
    (∀ ruleSet deadline hist state,
      Ts.Run ruleSet (Ts.initialState gameId ruleSetHash deadline) hist state →
      (∀ e ∈ hist, Ts.ValidJoin e.1.1) →
      ((∃ bytes, Ts.encodeRoundState state = .ok bytes) ↔
        ∀ e ∈ hist, e.1.1.actionType ≠ .join)) ∧
    (∀ ruleSet deadline hist state,
      Go.Run ruleSet (Go.initialState gameId ruleSetHash deadline) hist state →
      (∀ e ∈ hist, Go.ValidJoin e.1.1) →
      ((∃ bytes, Go.encodeRoundState state = .ok bytes) ↔
        ∀ e ∈ hist, e.1.1.actionType ≠ .join)) :=
  ⟨fun _ _ _ _ => Ts.encodes_iff_nobody_joined hgame hrules,
    fun _ _ _ _ => Go.encodes_iff_nobody_joined hgame hrules⟩

/-- A player joins the sample table with a key. -/
def sampleJoinAction : Ts.JoinAction :=
  { Ts.actionBy none with
    gameId := String.ofList (List.replicate 64 'a')
    playerPubkey := String.ofList ('0' :: '2' :: List.replicate 64 'a')
    stakeAmount := 1000 }

def sampleJoined : Ts.RoundState :=
  { sampleTable with
    players := [Ts.joinedPlayer sampleJoinAction 0 1000], priorStateHash := some Ts.zeroHash }

theorem sampleJoined_run :
    Ts.Run Ts.defaultRuleSet sampleTable [((.join sampleJoinAction, 0), sampleJoined)]
      sampleJoined :=
  Path.snoc (.start : Ts.Run Ts.defaultRuleSet sampleTable [] sampleTable) rfl

theorem sampleJoined_valid :
    ∀ e ∈ [((Ts.SignedAction.join sampleJoinAction, (0 : SafeNat)), sampleJoined)],
      Ts.ValidJoin e.1.1 := by
  intro e he key hkey
  rw [List.mem_singleton.mp he] at hkey
  cases hkey
  decide

theorem hashable_iff_nobody_joined_sample :
    (∃ bytes, Ts.encodeRoundState sampleJoined = .ok bytes) ↔
      ∀ e ∈ [((Ts.SignedAction.join sampleJoinAction, (0 : SafeNat)), sampleJoined)],
        e.1.1.actionType ≠ .join :=
  (hashable_iff_nobody_joined _ _ (by decide) (by decide)).1 _ _ _ _ sampleJoined_run
    sampleJoined_valid

/-- An action whose key, commitment, entropy and card commitments are
what they should be. -/
def Ts.ValidAction : Ts.SignedAction → Prop
  | .join a => Ts.isPubkey33 a.playerPubkey = true
  | .entropyCommit a => Ts.isHex64 a.commitmentHash = true
  | .entropyReveal a => Ts.isHex64 a.entropy = true
  | .dealConcealed a =>
      ∀ c ∈ a.concealedCards, Ts.isHex64 c.cardCommitment.cardCommitment = true
  | _ => True

/-- The table with that one player has no hash. -/
theorem joined_unhashable :
    ¬∀ (ruleSet : Ts.RuleSet) (gameId ruleSetHash : String) (deadline : SafeNat)
      (hist : List ((Ts.SignedAction × SafeNat) × Ts.RoundState)) (state : Ts.RoundState),
      Ts.isHex64 gameId = true → Ts.isHex64 ruleSetHash = true →
      Ts.Run ruleSet (Ts.initialState gameId ruleSetHash deadline) hist state →
      (∀ e ∈ hist, Ts.ValidAction e.1.1) →
        ∃ bytes, Ts.encodeRoundState state = .ok bytes := by
  intro hclaim
  have hvalid : ∀ e ∈ [((Ts.SignedAction.join sampleJoinAction, (0 : SafeNat)), sampleJoined)],
      Ts.ValidAction e.1.1 := by
    intro e he
    rw [List.mem_singleton.mp he]
    exact sampleJoined_valid _ (List.mem_singleton_self _) _ rfl
  obtain ⟨bytes, hbytes⟩ := hclaim _ _ _ _ _ _ (by decide) (by decide) sampleJoined_run hvalid
  have hfails : (Ts.encodeRoundState sampleJoined).toOption = none := by decide
  rw [hbytes] at hfails
  cases hfails

end CardTable
