import CardTable.Go.Engine
import CardTable.Serialise
import Mathlib.Data.List.Sort

/-!
# Go.Serialise — the canonical state hash

`apps/relay-go/pkg/types/serialise.go`: the canonical encoding of a round
state and its SHA-256. The encoding fails on a field that is not the hex
it should be; the error names the field, and the quotation of the
offending text that Go appends to it is left out.

A Go `int` that is written in 32 bits, and an ordinal that is written in
8, keep their low bits.
-/

namespace CardTable.Go

open Basis Cards

/-! ## Primitive encoders -/

def encU32Int (n : Int) : List UInt8 := encodeU32LE (n % 4294967296).toNat

def encBool (b : Bool) : List UInt8 := if b then [1] else [0]

/-- The UTF-8 bytes, behind their number. -/
def encString (s : String) : List UInt8 :=
  encodeVarint s.utf8ByteSize ++ s.toUTF8.data.toList

/-- Exactly 64 hex characters. -/
def encBytes32Hex (path : String) (h : String) : Except String (List UInt8) :=
  if h.utf8ByteSize ≠ 64 then .error path
  else match Hex.decode h with
  | none => .error path
  | some b => .ok b

/-- The last 64 characters of a key. -/
def encHexTail (path : String) (key : String) : Except String (List UInt8) :=
  if key.utf8ByteSize < 64 then .error path
  else
    let chars := key.toList
    match Hex.decodeChars (chars.drop (chars.length - 64)) with
    | none => .error path
    | some b => .ok b

def encOptionalHash (path : String) (h : String) : Except String (List UInt8) :=
  if h = "" then .ok (encBool false)
  else do
    let body ← encBytes32Hex path h
    pure (encBool true ++ body)

def encOptionalU32Ptr : Option UInt32 → List UInt8
  | none => encBool false
  | some n => encBool true ++ encodeU32LE n.toNat

def encOptionalSeatPtr : Option Int → List UInt8
  | none => encBool false
  | some n => encBool true ++ encU32Int n

def encOptionalString (s : String) : List UInt8 :=
  if s = "" then encBool false else encBool true ++ encString s

/-- A list behind its length; the first entry that does not encode ends
it. -/
def encArray {α : Type} (enc : α → Except String (List UInt8)) (items : List α) :
    Except String (List UInt8) := do
  let parts ← items.mapM enc
  pure (encodeVarint items.length ++ parts.flatten)

def encArrayBytes32 (path : String) (items : List String) : Except String (List UInt8) :=
  encArray (encBytes32Hex path) items

/-- A list of strings behind its length. -/
def encArrayString (items : List String) : List UInt8 :=
  encodeVarint items.length ++ items.flatMap encString

/-- The preferences by key. `sort.Strings` compares bytes, and the bytes
of UTF-8 compare as its characters do. -/
def encPreferences (prefs : List (String × String)) : List UInt8 :=
  let sorted := List.insertionSort (fun a b => decide (a.1 ≤ b.1)) prefs
  encodeVarint sorted.length ++ sorted.flatMap (fun kv => encString kv.1 ++ encString kv.2)

/-! ## Composite encoders -/

def encPlayer (p : PlayerState) : Except String (List UInt8) := do
  let playerId ← encBytes32Hex "encPlayer: player_id" p.playerId
  let pubkeyTail ← encHexTail "encPlayer: pubkey tail" p.valueSigningPubkey
  let commitOpt ← encOptionalHash "encPlayer: entropy_commitment_hash" p.entropyCommitmentHash
  let entropyOpt ← encOptionalHash "encPlayer: entropy_value" p.entropyValue
  pure (encodeU16LE 0x0002 ++ encodeU8 1 ++ encU32Int p.seat ++ playerId ++ pubkeyTail ++
    encString p.participationStatus.wire ++ encodeU64LE p.stakeAtRisk.toNat ++
    encOptionalString p.stakeOutpoint ++ encBool p.entropyCommitted ++ commitOpt ++
    encBool p.entropyRevealed ++ entropyOpt ++ encArrayString p.concealedCardRefs ++
    encPreferences p.defaultPreferences)

def encConcealedCard (c : ConcealedCard) : Except String (List UInt8) := do
  let commit ← encBytes32Hex "encConcealedCard: card_commitment" c.cardCommitment.cardCommitment
  let nonce ← encBytes32Hex "encConcealedCard: card_nonce" c.cardCommitment.cardNonce
  let holderTail ← encHexTail "encConcealedCard: holder_pubkey tail" c.holderPubkey
  pure (encodeU16LE 0x0008 ++ encodeU8 1 ++ encU32Int c.cardCommitment.position ++ commit ++
    nonce ++ encString c.ciphertext ++ encString c.custodyOutpoint ++ holderTail ++
    encString c.lifecycleState)

def encOptionalConcealedDeck :
    Option (List ConcealedCard) → Except String (List UInt8)
  | none => .ok (encBool false)
  | some deck => do
      let cards ← encArray encConcealedCard deck
      pure (encBool true ++ cards)

def encVisibleCards (cards : List RevealedCard) : List UInt8 :=
  encodeVarint cards.length ++ cards.flatMap (fun c => encodeU8 (c.ordinal % 256).toNat)

/-- `EncodeRoundState`: the canonical encoding, with 32 zero bytes in the
place of the state's own hash. -/
def encodeRoundState (s : RoundState) : Except String (List UInt8) := do
  let players ← encArray encPlayer s.players
  let gameId ← encBytes32Hex "EncodeRoundState: game_id" s.gameId
  let ruleHash ← encBytes32Hex "EncodeRoundState: rule_set_hash" s.ruleSetHash
  let hiddenRefs ←
    encArrayBytes32 "EncodeRoundState: hidden_commitment_refs" s.hiddenCommitmentRefs
  let successorRefs ←
    encArrayBytes32 "EncodeRoundState: successor_template_hashes" s.successorTemplateHashes
  let combinedOpt ← encOptionalHash "EncodeRoundState: combined_entropy" s.combinedEntropy
  let deckOpt ← encOptionalHash "EncodeRoundState: deck_commitment_hash" s.deckCommitmentHash
  let concealedOpt ← encOptionalConcealedDeck s.concealedDeck
  let priorOpt ← match s.priorStateHash with
    | none => .ok (encBool false)
    | some h => encOptionalHash "EncodeRoundState: prior_state_hash" h
  pure (encodeU16LE 0x0009 ++ encodeU8 1 ++ encString s.stateClass.wire ++ gameId ++ ruleHash ++
    encU32Int s.roundNumber ++ encOptionalSeatPtr s.actingPlayerSeat ++ players ++
    encodeU64LE s.potValue.toNat ++ encVisibleCards s.visibleCards ++ hiddenRefs ++
    encArrayString (s.allowedActions.map ActionType.wire) ++
    encOptionalU32Ptr s.decisionDeadlineBlockHeight ++
    encOptionalU32Ptr s.recoveryDeadlineBlockHeight ++ successorRefs ++ combinedOpt ++ deckOpt ++
    concealedOpt ++ priorOpt ++ List.replicate 32 0)

/-- `ComputeStateHash`. -/
def computeStateHash (s : RoundState) : Except String String := do
  let encoded ← encodeRoundState s
  pure (Hex.encode (Sha256.sha256 encoded))

/-- `ChainsFromHash`. -/
def chainsFromHash : Option RoundState → RoundState → Except String Bool
  | none, next => .ok (next.priorStateHash == none)
  | some prior, next =>
      match next.priorStateHash with
      | none => .ok false
      | some hash => do
          let expected ← computeStateHash prior
          pure (hash == expected)

/-- The state's own hash is not part of what is hashed. -/
theorem computeStateHash_stateHash (s : RoundState) (stateHash : String) :
    computeStateHash { s with stateHash := stateHash } = computeStateHash s := rfl

/-- A state hash is the text of 32 bytes. -/
theorem computeStateHash_ne_empty {s : RoundState} {h : String}
    (hhash : computeStateHash s = .ok h) : h ≠ "" := by
  simp only [computeStateHash] at hhash
  cases hencoded : encodeRoundState s with
  | error path =>
      rw [hencoded] at hhash
      cases hhash
  | ok encoded =>
      rw [hencoded] at hhash
      cases hhash
      intro hempty
      have hlen := Sha256.length_sha256 encoded
      rw [Hex.encode_eq_empty_iff.mp hempty] at hlen
      cases hlen

/-! ## The parts of an encoding -/

variable {s : RoundState} {p : PlayerState} {c : ConcealedCard} {path : String} {x : List UInt8}

/-- `w` are the parts of `p`. -/
structure PlayerState.Parts (p : PlayerState) (w : PlayerParts) : Prop where
  playerId : encBytes32Hex "encPlayer: player_id" p.playerId = .ok w.playerId
  pubkeyTail : encHexTail "encPlayer: pubkey tail" p.valueSigningPubkey = .ok w.pubkeyTail
  commitment : encOptionalHash "encPlayer: entropy_commitment_hash" p.entropyCommitmentHash =
    .ok w.commitment
  entropy : encOptionalHash "encPlayer: entropy_value" p.entropyValue = .ok w.entropy

/-- The player around its parts. -/
def PlayerState.layout (p : PlayerState) (w : PlayerParts) : List UInt8 :=
  encodeU16LE 0x0002 ++ encodeU8 1 ++ encU32Int p.seat ++ w.playerId ++ w.pubkeyTail ++
    encString p.participationStatus.wire ++ encodeU64LE p.stakeAtRisk.toNat ++
    encOptionalString p.stakeOutpoint ++ encBool p.entropyCommitted ++ w.commitment ++
    encBool p.entropyRevealed ++ w.entropy ++ encArrayString p.concealedCardRefs ++
    encPreferences p.defaultPreferences

theorem encPlayer_eq_ok : encPlayer p = .ok x ↔ ∃ w, p.Parts w ∧ x = p.layout w := by
  simp only [encPlayer, except_bind_eq_ok]
  constructor
  · intro hx
    obtain ⟨playerId, hid, pubkeyTail, htail, commitment, hcommit, entropy, hentropy, h⟩ := hx
    cases h
    exact ⟨⟨playerId, pubkeyTail, commitment, entropy⟩, ⟨hid, htail, hcommit, hentropy⟩, rfl⟩
  · intro hx
    obtain ⟨w, hw, rfl⟩ := hx
    exact ⟨_, hw.playerId, _, hw.pubkeyTail, _, hw.commitment, _, hw.entropy, rfl⟩

/-- `w` are the parts of `c`. -/
structure CardParts.Of (c : ConcealedCard) (w : CardParts) : Prop where
  commitment : encBytes32Hex "encConcealedCard: card_commitment" c.cardCommitment.cardCommitment =
    .ok w.commitment
  nonce : encBytes32Hex "encConcealedCard: card_nonce" c.cardCommitment.cardNonce = .ok w.nonce
  holderTail : encHexTail "encConcealedCard: holder_pubkey tail" c.holderPubkey =
    .ok w.holderTail

/-- The concealed card around its parts. -/
def cardLayout (c : ConcealedCard) (w : CardParts) : List UInt8 :=
  encodeU16LE 0x0008 ++ encodeU8 1 ++ encU32Int c.cardCommitment.position ++ w.commitment ++
    w.nonce ++ encString c.ciphertext ++ encString c.custodyOutpoint ++ w.holderTail ++
    encString c.lifecycleState

theorem encConcealedCard_eq_ok :
    encConcealedCard c = .ok x ↔ ∃ w, CardParts.Of c w ∧ x = cardLayout c w := by
  simp only [encConcealedCard, except_bind_eq_ok]
  constructor
  · intro hx
    obtain ⟨commitment, hcommit, nonce, hnonce, holderTail, hholder, h⟩ := hx
    cases h
    exact ⟨⟨commitment, nonce, holderTail⟩, ⟨hcommit, hnonce, hholder⟩, rfl⟩
  · intro hx
    obtain ⟨w, hw, rfl⟩ := hx
    exact ⟨_, hw.commitment, _, hw.nonce, _, hw.holderTail, rfl⟩

/-- The prior hash: no pointer, or a pointer to an optional hash. -/
def encPriorHash : Option String → Except String (List UInt8)
  | none => .ok (encBool false)
  | some h => encOptionalHash "EncodeRoundState: prior_state_hash" h

/-- `w` are the parts of `s`. -/
structure RoundState.Parts (s : RoundState) (w : StateParts) : Prop where
  players : encArray encPlayer s.players = .ok w.players
  gameId : encBytes32Hex "EncodeRoundState: game_id" s.gameId = .ok w.gameId
  ruleHash : encBytes32Hex "EncodeRoundState: rule_set_hash" s.ruleSetHash = .ok w.ruleHash
  hiddenRefs : encArrayBytes32 "EncodeRoundState: hidden_commitment_refs"
    s.hiddenCommitmentRefs = .ok w.hiddenRefs
  successorRefs : encArrayBytes32 "EncodeRoundState: successor_template_hashes"
    s.successorTemplateHashes = .ok w.successorRefs
  combined : encOptionalHash "EncodeRoundState: combined_entropy" s.combinedEntropy =
    .ok w.combined
  deckHash : encOptionalHash "EncodeRoundState: deck_commitment_hash" s.deckCommitmentHash =
    .ok w.deckHash
  concealed : encOptionalConcealedDeck s.concealedDeck = .ok w.concealed
  prior : encPriorHash s.priorStateHash = .ok w.prior

/-- The state around its parts. -/
def RoundState.layout (s : RoundState) (w : StateParts) : List UInt8 :=
  encodeU16LE 0x0009 ++ encodeU8 1 ++ encString s.stateClass.wire ++ w.gameId ++ w.ruleHash ++
    encU32Int s.roundNumber ++ encOptionalSeatPtr s.actingPlayerSeat ++ w.players ++
    encodeU64LE s.potValue.toNat ++ encVisibleCards s.visibleCards ++ w.hiddenRefs ++
    encArrayString (s.allowedActions.map ActionType.wire) ++
    encOptionalU32Ptr s.decisionDeadlineBlockHeight ++
    encOptionalU32Ptr s.recoveryDeadlineBlockHeight ++ w.successorRefs ++ w.combined ++
    w.deckHash ++ w.concealed ++ w.prior ++ List.replicate 32 0

/-- **An encoding is a layout of parts.** -/
theorem encodeRoundState_eq_ok :
    encodeRoundState s = .ok x ↔ ∃ w, s.Parts w ∧ x = s.layout w := by
  -- the source matches on the pointer in the middle of the chain
  have hchain : encodeRoundState s = (do
      let players ← encArray encPlayer s.players
      let gameId ← encBytes32Hex "EncodeRoundState: game_id" s.gameId
      let ruleHash ← encBytes32Hex "EncodeRoundState: rule_set_hash" s.ruleSetHash
      let hiddenRefs ←
        encArrayBytes32 "EncodeRoundState: hidden_commitment_refs" s.hiddenCommitmentRefs
      let successorRefs ←
        encArrayBytes32 "EncodeRoundState: successor_template_hashes" s.successorTemplateHashes
      let combined ← encOptionalHash "EncodeRoundState: combined_entropy" s.combinedEntropy
      let deckHash ←
        encOptionalHash "EncodeRoundState: deck_commitment_hash" s.deckCommitmentHash
      let concealed ← encOptionalConcealedDeck s.concealedDeck
      let prior ← encPriorHash s.priorStateHash
      pure (s.layout ⟨players, gameId, ruleHash, hiddenRefs, successorRefs, combined, deckHash,
        concealed, prior⟩)) := by
    unfold encodeRoundState
    cases s.priorStateHash with
    | _ => rfl
  rw [hchain]
  simp only [except_bind_eq_ok]
  constructor
  · intro hx
    obtain ⟨players, hplayers, gameId, hgame, ruleHash, hrules, hiddenRefs, hhidden,
      successorRefs, hsuccessors, combined, hcombined, deckHash, hdeck, concealed, hconcealed,
      prior, hprior, h⟩ := hx
    exact ⟨_, ⟨hplayers, hgame, hrules, hhidden, hsuccessors, hcombined, hdeck, hconcealed,
      hprior⟩, (Except.ok.inj h).symm⟩
  · intro hx
    obtain ⟨w, hw, h⟩ := hx
    exact ⟨_, hw.players, _, hw.gameId, _, hw.ruleHash, _, hw.hiddenRefs, _, hw.successorRefs,
      _, hw.combined, _, hw.deckHash, _, hw.concealed, _, hw.prior, congrArg Except.ok h.symm⟩

/-! ## What encodes -/

/-- What `encBytes32Hex` takes for 32 bytes. -/
def ReadsHex (h : String) : Prop :=
  h.utf8ByteSize = 64 ∧ ∃ bytes, Hex.decode h = some bytes

/-- What `encHexTail` takes for a key. -/
def ReadsTail (key : String) : Prop :=
  64 ≤ key.utf8ByteSize ∧
    ∃ bytes, Hex.decodeChars (key.toList.drop (key.toList.length - 64)) = some bytes

/-- The texts of a player that are read as hex. -/
structure PlayerState.HexFields (p : PlayerState) : Prop where
  playerId : ReadsHex p.playerId
  valueSigningPubkey : ReadsTail p.valueSigningPubkey
  entropyCommitmentHash : p.entropyCommitmentHash ≠ "" → ReadsHex p.entropyCommitmentHash
  entropyValue : p.entropyValue ≠ "" → ReadsHex p.entropyValue

/-- The texts of a concealed card that are read as hex. -/
structure CardHexFields (c : ConcealedCard) : Prop where
  cardCommitment : ReadsHex c.cardCommitment.cardCommitment
  cardNonce : ReadsHex c.cardCommitment.cardNonce
  holderPubkey : ReadsTail c.holderPubkey

/-- The texts of a state that are read as hex. -/
structure RoundState.HexFields (s : RoundState) : Prop where
  players : ∀ p ∈ s.players, p.HexFields
  gameId : ReadsHex s.gameId
  ruleSetHash : ReadsHex s.ruleSetHash
  hiddenCommitmentRefs : ∀ h ∈ s.hiddenCommitmentRefs, ReadsHex h
  successorTemplateHashes : ∀ h ∈ s.successorTemplateHashes, ReadsHex h
  combinedEntropy : s.combinedEntropy ≠ "" → ReadsHex s.combinedEntropy
  deckCommitmentHash : s.deckCommitmentHash ≠ "" → ReadsHex s.deckCommitmentHash
  concealedDeck : ∀ deck ∈ s.concealedDeck, ∀ c ∈ deck, CardHexFields c
  priorStateHash : ∀ h ∈ s.priorStateHash, h ≠ "" → ReadsHex h

theorem encBytes32Hex_eq_ok {h : String} :
    encBytes32Hex path h = .ok x ↔ h.utf8ByteSize = 64 ∧ Hex.decode h = some x := by
  unfold encBytes32Hex
  by_cases hlen : h.utf8ByteSize = 64
  · rw [if_neg (not_not_intro hlen)]
    cases Hex.decode h with
    | none => simp
    | some bytes => simp [hlen]
  · rw [if_pos hlen]
    simp [hlen]

theorem encodes_hex_iff {h : String} : (∃ x, encBytes32Hex path h = .ok x) ↔ ReadsHex h := by
  simp only [encBytes32Hex_eq_ok, exists_and_left, ReadsHex]

theorem encHexTail_eq_ok {key : String} :
    encHexTail path key = .ok x ↔ 64 ≤ key.utf8ByteSize ∧
      Hex.decodeChars (key.toList.drop (key.toList.length - 64)) = some x := by
  unfold encHexTail
  by_cases hlen : key.utf8ByteSize < 64
  · rw [if_pos hlen]
    simp [Nat.not_le.mpr hlen]
  · rw [if_neg hlen]
    simp only [Nat.not_lt.mp hlen, true_and]
    cases Hex.decodeChars (key.toList.drop (key.toList.length - 64)) with
    | none => simp
    | some bytes => simp

theorem encodes_tail_iff {key : String} :
    (∃ x, encHexTail path key = .ok x) ↔ ReadsTail key := by
  simp only [encHexTail_eq_ok, exists_and_left, ReadsTail]

theorem encodes_optionalHash_iff {h : String} :
    (∃ x, encOptionalHash path h = .ok x) ↔ (h ≠ "" → ReadsHex h) := by
  unfold encOptionalHash
  by_cases hempty : h = ""
  · simp [hempty]
  · simp only [hempty, if_false, except_bind_pure_isOk, ne_eq, not_false_eq_true, forall_const]
    exact encodes_hex_iff

/-- An array is its length and the codes of its entries. -/
theorem encArray_eq_ok {α : Type} {enc : α → Except String (List UInt8)} {items : List α} :
    encArray enc items = .ok x ↔
      Codec.Counted (fun n y => y = encodeVarint n) (fun a y => enc a = .ok y) items x :=
  Codec.counted_mapM

theorem encodes_array_iff {α : Type} {enc : α → Except String (List UInt8)} {items : List α} :
    (∃ x, encArray enc items = .ok x) ↔ ∀ a ∈ items, ∃ y, enc a = .ok y := by
  simp only [encArray_eq_ok]
  exact Codec.exists_counted_iff

theorem encodes_refs_iff {refs : List String} :
    (∃ x, encArrayBytes32 path refs = .ok x) ↔ ∀ h ∈ refs, ReadsHex h := by
  simp only [encArrayBytes32, encodes_array_iff, encodes_hex_iff]

theorem encodes_player_iff : (∃ x, encPlayer p = .ok x) ↔ p.HexFields := by
  simp only [encPlayer_eq_ok]
  constructor
  · intro hx
    obtain ⟨_, w, hw, _⟩ := hx
    exact {
      playerId := encodes_hex_iff.mp ⟨_, hw.playerId⟩
      valueSigningPubkey := encodes_tail_iff.mp ⟨_, hw.pubkeyTail⟩
      entropyCommitmentHash := encodes_optionalHash_iff.mp ⟨_, hw.commitment⟩
      entropyValue := encodes_optionalHash_iff.mp ⟨_, hw.entropy⟩ }
  · intro h
    obtain ⟨playerId, hid⟩ := encodes_hex_iff.mpr h.playerId
    obtain ⟨pubkeyTail, htail⟩ := encodes_tail_iff.mpr h.valueSigningPubkey
    obtain ⟨commitment, hcommit⟩ := encodes_optionalHash_iff.mpr h.entropyCommitmentHash
    obtain ⟨entropy, hentropy⟩ := encodes_optionalHash_iff.mpr h.entropyValue
    exact ⟨_, ⟨playerId, pubkeyTail, commitment, entropy⟩, ⟨hid, htail, hcommit, hentropy⟩, rfl⟩

theorem encodes_card_iff : (∃ x, encConcealedCard c = .ok x) ↔ CardHexFields c := by
  simp only [encConcealedCard_eq_ok]
  constructor
  · intro hx
    obtain ⟨_, w, hw, _⟩ := hx
    exact {
      cardCommitment := encodes_hex_iff.mp ⟨_, hw.commitment⟩
      cardNonce := encodes_hex_iff.mp ⟨_, hw.nonce⟩
      holderPubkey := encodes_tail_iff.mp ⟨_, hw.holderTail⟩ }
  · intro h
    obtain ⟨commitment, hcommit⟩ := encodes_hex_iff.mpr h.cardCommitment
    obtain ⟨nonce, hnonce⟩ := encodes_hex_iff.mpr h.cardNonce
    obtain ⟨holderTail, hholder⟩ := encodes_tail_iff.mpr h.holderPubkey
    exact ⟨_, ⟨commitment, nonce, holderTail⟩, ⟨hcommit, hnonce, hholder⟩, rfl⟩

theorem encodes_deck_iff {deck : Option (List ConcealedCard)} :
    (∃ x, encOptionalConcealedDeck deck = .ok x) ↔ ∀ d ∈ deck, ∀ c ∈ d, CardHexFields c := by
  cases deck with
  | none => simp [encOptionalConcealedDeck]
  | some cards =>
      simp only [encOptionalConcealedDeck, except_bind_pure_isOk, encodes_array_iff,
        encodes_card_iff, Option.mem_some_iff, forall_eq']

theorem encodes_prior_iff {prior : Option String} :
    (∃ x, encPriorHash prior = .ok x) ↔ ∀ h ∈ prior, h ≠ "" → ReadsHex h := by
  cases prior with
  | none => simp [encPriorHash]
  | some h => simp only [encPriorHash, encodes_optionalHash_iff, Option.mem_some_iff, forall_eq']

/-- **What encodes**: a state whose hex texts `hex.DecodeString` can
read, where the optional ones may be empty. -/
theorem encodes_iff : (∃ x, encodeRoundState s = .ok x) ↔ s.HexFields := by
  have hplayers : (∃ x, encArray encPlayer s.players = .ok x) ↔ ∀ p ∈ s.players, p.HexFields := by
    simp only [encodes_array_iff, encodes_player_iff]
  simp only [encodeRoundState_eq_ok]
  constructor
  · intro hx
    obtain ⟨_, w, hw, _⟩ := hx
    exact {
      players := hplayers.mp ⟨_, hw.players⟩
      gameId := encodes_hex_iff.mp ⟨_, hw.gameId⟩
      ruleSetHash := encodes_hex_iff.mp ⟨_, hw.ruleHash⟩
      hiddenCommitmentRefs := encodes_refs_iff.mp ⟨_, hw.hiddenRefs⟩
      successorTemplateHashes := encodes_refs_iff.mp ⟨_, hw.successorRefs⟩
      combinedEntropy := encodes_optionalHash_iff.mp ⟨_, hw.combined⟩
      deckCommitmentHash := encodes_optionalHash_iff.mp ⟨_, hw.deckHash⟩
      concealedDeck := encodes_deck_iff.mp ⟨_, hw.concealed⟩
      priorStateHash := encodes_prior_iff.mp ⟨_, hw.prior⟩ }
  · intro h
    obtain ⟨players, hplayers⟩ := hplayers.mpr h.players
    obtain ⟨gameId, hgame⟩ := encodes_hex_iff.mpr h.gameId
    obtain ⟨ruleHash, hrules⟩ := encodes_hex_iff.mpr h.ruleSetHash
    obtain ⟨hiddenRefs, hhidden⟩ := encodes_refs_iff.mpr h.hiddenCommitmentRefs
    obtain ⟨successorRefs, hsuccessors⟩ := encodes_refs_iff.mpr h.successorTemplateHashes
    obtain ⟨combined, hcombined⟩ := encodes_optionalHash_iff.mpr h.combinedEntropy
    obtain ⟨deckHash, hdeck⟩ := encodes_optionalHash_iff.mpr h.deckCommitmentHash
    obtain ⟨concealed, hconcealed⟩ := encodes_deck_iff.mpr h.concealedDeck
    obtain ⟨prior, hprior⟩ := encodes_prior_iff.mpr h.priorStateHash
    exact ⟨_, ⟨players, gameId, ruleHash, hiddenRefs, successorRefs, combined, deckHash,
      concealed, prior⟩, ⟨hplayers, hgame, hrules, hhidden, hsuccessors, hcombined, hdeck,
      hconcealed, hprior⟩, rfl⟩

/-- The hash both languages pin for a fresh session. -/
example : (computeStateHash (initialState (String.ofList (List.replicate 64 'a'))
    (String.ofList (List.replicate 64 'b')) 244)).toOption =
      some "ede024c39e71fb16e652fdf949978adf8426ac62cdadb1c2ccd1baf353a63d50" := by
  decide +kernel

end CardTable.Go
