import CardTable.Serialise
import CardTable.Ts.CryptoCards
import CardTable.Ts.Engine
import Mathlib.Data.List.Lex
import Mathlib.Data.List.Sort

/-!
# Ts.Serialise — the canonical state hash

`packages/protocol-types/src/serialise.ts`: the canonical encoding of a
round state and its SHA-256. Where Go refuses a field that is not the hex
it should be, this encoder throws; what it takes for hex is what
`parseInt` reads, and it cuts strings by their code units.

Bit operations on a number see its low 32 bits.
-/

namespace CardTable.Ts

open Basis Basis.Sha256 Cards

/-- What `encBytes32Hex` throws: `encBytes32Hex: expected 64 hex chars,
got {got}` and `encBytes32Hex: bad hex at {offset}: {hex}`. The text is
kept as code units, since a key may be cut inside a character. -/
inductive EncodeError where
  | expected64 (got : Nat)
  | badHex (offset : Nat) (hex : List Nat)
  deriving DecidableEq, Repr

abbrev Encoded := Except EncodeError (List UInt8)

/-! ## Primitive encoders -/

def encBool (b : Bool) : List UInt8 := [if b then 1 else 0]

/-- The UTF-8 bytes, behind their number. -/
def encString (s : String) : List UInt8 :=
  encodeVarint s.utf8ByteSize ++ s.toUTF8.data.toList

/-- `encBytes32Hex` on the code units of its argument. -/
def encBytes32Units (hex : List Nat) : Encoded :=
  if hex.length ≠ 64 then .error (.expected64 hex.length)
  else match fromHexUnits 0 hex with
  | .error offset => .error (.badHex offset hex)
  | .ok bytes => .ok bytes

def encBytes32Hex (h : String) : Encoded := encBytes32Units (codeUnits h)

/-- `key.substring(key.length - 64)`; a negative start counts as 0. -/
def keyTail (key : String) : List Nat :=
  let units := codeUnits key
  units.drop (units.length - 64)

def encOptionalHash : Option String → Encoded
  | none => .ok (encBool false)
  | some h => do
      let body ← encBytes32Hex h
      pure (encBool true ++ body)

def encOptionalU32 : Option SafeNat → List UInt8
  | none => encBool false
  | some n => encBool true ++ encodeU32LE n.val

def encOptionalSeat : Option SafeNat → List UInt8
  | none => encBool false
  | some n => encBool true ++ encodeU32LE n.val

def encOptionalString : Option String → List UInt8
  | none => encBool false
  | some s => if s = "" then encBool false else encBool true ++ encString s

/-- A list behind its length; the first entry that does not encode ends
it. -/
def encArray {α : Type} (enc : α → Encoded) (items : List α) : Encoded := do
  let parts ← items.mapM enc
  pure (encodeVarint items.length ++ parts.flatten)

def encArrayBytes32 (items : List String) : Encoded := encArray encBytes32Hex items

def encArrayString (items : List String) : List UInt8 :=
  encodeVarint items.length ++ items.flatMap encString

/-! ## Composite encoders -/

/-- `Object.keys(prefs).sort()` compares code units. -/
def sortPreferences (prefs : List (String × String)) : List (String × String) :=
  List.insertionSort (fun a b => decide (codeUnits a.1 ≤ codeUnits b.1)) prefs

def encPreferences (prefs : List (String × String)) : List UInt8 :=
  let sorted := sortPreferences prefs
  encodeVarint sorted.length ++ sorted.flatMap (fun kv => encString kv.1 ++ encString kv.2)

def encPlayer (p : PlayerState) : Encoded := do
  let playerId ← encBytes32Hex p.playerId
  let pubkeyTail ← encBytes32Units (keyTail p.valueSigningPubkey)
  let commitment ← encOptionalHash p.entropyCommitmentHash
  let entropy ← encOptionalHash p.entropyValue
  pure (encodeU16LE 0x0002 ++ encodeU8 1 ++ encodeU32LE p.seat.val ++ playerId ++ pubkeyTail ++
    encString p.participationStatus.wire ++ encodeU64LE p.stakeAtRisk.val ++
    encOptionalString p.stakeOutpoint ++ encBool p.entropyCommitted ++ commitment ++
    encBool p.entropyRevealed ++ entropy ++ encArrayString p.concealedCardRefs ++
    encPreferences p.defaultPreferences)

/-- `encU8` keeps the low byte of the ordinal. -/
def encVisibleCards (cards : List RevealedCard) : List UInt8 :=
  encodeVarint cards.length ++ cards.flatMap (fun c => encodeU8 (c.ordinal % 256).toNat)

def encConcealedCard (c : ConcealedCard) : Encoded := do
  let commitment ← encBytes32Hex c.cardCommitment.cardCommitment
  let nonce ← encBytes32Hex c.cardCommitment.cardNonce
  let holderTail ← encBytes32Units (keyTail c.holderPubkey)
  pure (encodeU16LE 0x0008 ++ encodeU8 1 ++
    encodeU32LE (c.cardCommitment.position % 4294967296).toNat ++ commitment ++ nonce ++
    encString c.ciphertext ++ encString c.custodyOutpoint ++ holderTail ++
    encString c.lifecycleState)

def encOptionalConcealedDeck : Option (List ConcealedCard) → Encoded
  | none => .ok (encBool false)
  | some deck => do
      let cards ← encArray encConcealedCard deck
      pure (encBool true ++ cards)

/-- `encodeRoundState`: the canonical encoding, with 32 zero bytes in the
place of the state's own hash. -/
def encodeRoundState (s : RoundState) : Encoded := do
  let players ← encArray encPlayer s.players
  let gameId ← encBytes32Hex s.gameId
  let ruleHash ← encBytes32Hex s.ruleSetHash
  let hiddenRefs ← encArrayBytes32 s.hiddenCommitmentRefs
  let successorRefs ← encArrayBytes32 s.successorTemplateHashes
  let combined ← encOptionalHash s.combinedEntropy
  let deckHash ← encOptionalHash s.deckCommitmentHash
  let concealed ← encOptionalConcealedDeck s.concealedDeck
  let prior ← encOptionalHash s.priorStateHash
  pure (encodeU16LE 0x0009 ++ encodeU8 1 ++ encString s.stateClass.wire ++ gameId ++ ruleHash ++
    encodeU32LE s.roundNumber.val ++ encOptionalSeat s.actingPlayerSeat ++ players ++
    encodeU64LE s.potValue.val ++ encVisibleCards s.visibleCards ++ hiddenRefs ++
    encArrayString (s.allowedActions.map ActionType.wire) ++
    encOptionalU32 s.decisionDeadlineBlockHeight ++
    encOptionalU32 s.recoveryDeadlineBlockHeight ++ successorRefs ++ combined ++ deckHash ++
    concealed ++ prior ++ List.replicate 32 0)

/-- `computeStateHash`. Its `asHash256` lets the text of 32 bytes
through (`asHash256_encode`). -/
def computeStateHash (s : RoundState) : Except EncodeError String := do
  let encoded ← encodeRoundState s
  pure (Hex.encode (sha256 encoded))

/-- `chainsFromHash`. -/
def chainsFromHash : Option RoundState → RoundState → Except EncodeError Bool
  | none, next => .ok (next.priorStateHash == none)
  | some prior, next =>
      match next.priorStateHash with
      | none => .ok false
      | some hash => do
          let expected ← computeStateHash prior
          pure (hash == expected)

/-! ## The parts of an encoding -/

variable {s : RoundState} {p : PlayerState} {c : ConcealedCard} {x : List UInt8}

/-- `w` are the parts of `p`. -/
structure PlayerState.Parts (p : PlayerState) (w : PlayerParts) : Prop where
  playerId : encBytes32Hex p.playerId = .ok w.playerId
  pubkeyTail : encBytes32Units (keyTail p.valueSigningPubkey) = .ok w.pubkeyTail
  commitment : encOptionalHash p.entropyCommitmentHash = .ok w.commitment
  entropy : encOptionalHash p.entropyValue = .ok w.entropy

/-- The player around its parts. -/
def PlayerState.layout (p : PlayerState) (w : PlayerParts) : List UInt8 :=
  encodeU16LE 0x0002 ++ encodeU8 1 ++ encodeU32LE p.seat.val ++ w.playerId ++ w.pubkeyTail ++
    encString p.participationStatus.wire ++ encodeU64LE p.stakeAtRisk.val ++
    encOptionalString p.stakeOutpoint ++ encBool p.entropyCommitted ++ w.commitment ++
    encBool p.entropyRevealed ++ w.entropy ++ encArrayString p.concealedCardRefs ++
    encPreferences p.defaultPreferences

theorem encPlayer_eq_ok : encPlayer p = .ok x ↔ ∃ w, p.Parts w ∧ x = p.layout w := by
  simp only [encPlayer, except_bind_eq_ok]
  constructor
  · intro hx
    obtain ⟨playerId, hid, pubkeyTail, htail, commitment, hcommit, entropy, hentropy, h⟩ := hx
    cases h
    exact ⟨⟨playerId, pubkeyTail, commitment, entropy⟩, ⟨hid, htail, hcommit, hentropy⟩, rfl⟩
  · intro hx
    obtain ⟨w, hw, rfl⟩ := hx
    exact ⟨_, hw.playerId, _, hw.pubkeyTail, _, hw.commitment, _, hw.entropy, rfl⟩

/-- `w` are the parts of `c`. -/
structure CardParts.Of (c : ConcealedCard) (w : CardParts) : Prop where
  commitment : encBytes32Hex c.cardCommitment.cardCommitment = .ok w.commitment
  nonce : encBytes32Hex c.cardCommitment.cardNonce = .ok w.nonce
  holderTail : encBytes32Units (keyTail c.holderPubkey) = .ok w.holderTail

/-- The concealed card around its parts. -/
def cardLayout (c : ConcealedCard) (w : CardParts) : List UInt8 :=
  encodeU16LE 0x0008 ++ encodeU8 1 ++
    encodeU32LE (c.cardCommitment.position % 4294967296).toNat ++ w.commitment ++ w.nonce ++
    encString c.ciphertext ++ encString c.custodyOutpoint ++ w.holderTail ++
    encString c.lifecycleState

theorem encConcealedCard_eq_ok :
    encConcealedCard c = .ok x ↔ ∃ w, CardParts.Of c w ∧ x = cardLayout c w := by
  simp only [encConcealedCard, except_bind_eq_ok]
  constructor
  · intro hx
    obtain ⟨commitment, hcommit, nonce, hnonce, holderTail, hholder, h⟩ := hx
    cases h
    exact ⟨⟨commitment, nonce, holderTail⟩, ⟨hcommit, hnonce, hholder⟩, rfl⟩
  · intro hx
    obtain ⟨w, hw, rfl⟩ := hx
    exact ⟨_, hw.commitment, _, hw.nonce, _, hw.holderTail, rfl⟩

/-- `w` are the parts of `s`. -/
structure RoundState.Parts (s : RoundState) (w : StateParts) : Prop where
  players : encArray encPlayer s.players = .ok w.players
  gameId : encBytes32Hex s.gameId = .ok w.gameId
  ruleHash : encBytes32Hex s.ruleSetHash = .ok w.ruleHash
  hiddenRefs : encArrayBytes32 s.hiddenCommitmentRefs = .ok w.hiddenRefs
  successorRefs : encArrayBytes32 s.successorTemplateHashes = .ok w.successorRefs
  combined : encOptionalHash s.combinedEntropy = .ok w.combined
  deckHash : encOptionalHash s.deckCommitmentHash = .ok w.deckHash
  concealed : encOptionalConcealedDeck s.concealedDeck = .ok w.concealed
  prior : encOptionalHash s.priorStateHash = .ok w.prior

/-- The state around its parts. -/
def RoundState.layout (s : RoundState) (w : StateParts) : List UInt8 :=
  encodeU16LE 0x0009 ++ encodeU8 1 ++ encString s.stateClass.wire ++ w.gameId ++ w.ruleHash ++
    encodeU32LE s.roundNumber.val ++ encOptionalSeat s.actingPlayerSeat ++ w.players ++
    encodeU64LE s.potValue.val ++ encVisibleCards s.visibleCards ++ w.hiddenRefs ++
    encArrayString (s.allowedActions.map ActionType.wire) ++
    encOptionalU32 s.decisionDeadlineBlockHeight ++
    encOptionalU32 s.recoveryDeadlineBlockHeight ++ w.successorRefs ++ w.combined ++
    w.deckHash ++ w.concealed ++ w.prior ++ List.replicate 32 0

/-- **An encoding is a layout of parts.** -/
theorem encodeRoundState_eq_ok :
    encodeRoundState s = .ok x ↔ ∃ w, s.Parts w ∧ x = s.layout w := by
  simp only [encodeRoundState, except_bind_eq_ok]
  constructor
  · intro hx
    obtain ⟨players, hplayers, gameId, hgame, ruleHash, hrules, hiddenRefs, hhidden,
      successorRefs, hsuccessors, combined, hcombined, deckHash, hdeck, concealed, hconcealed,
      prior, hprior, h⟩ := hx
    exact ⟨⟨players, gameId, ruleHash, hiddenRefs, successorRefs, combined, deckHash, concealed,
      prior⟩, ⟨hplayers, hgame, hrules, hhidden, hsuccessors, hcombined, hdeck, hconcealed,
      hprior⟩, (Except.ok.inj h).symm⟩
  · intro hx
    obtain ⟨w, hw, h⟩ := hx
    exact ⟨_, hw.players, _, hw.gameId, _, hw.ruleHash, _, hw.hiddenRefs, _, hw.successorRefs,
      _, hw.combined, _, hw.deckHash, _, hw.concealed, _, hw.prior, congrArg Except.ok h.symm⟩

/-! ## What encodes -/

/-- What `encBytes32Hex` takes for 32 bytes. -/
def ReadsHex (hex : List Nat) : Prop :=
  hex.length = 64 ∧ ∃ bytes, fromHexUnits 0 hex = .ok bytes

/-- A hash is read. -/
theorem readsHex_of_isHex64 {s : String} (h : isHex64 s = true) : ReadsHex (codeUnits s) := by
  obtain ⟨bytes, hbytes, hlen⟩ := decodes_of_isHex64 h
  obtain ⟨hchars, hascii⟩ := Hex.ascii_of_decodeChars hbytes
  refine ⟨?_, bytes, fromHexUnits_of_decodeChars hbytes 0⟩
  rw [codeUnits, units_of_ascii hascii, List.length_map]
  omega

/-- The texts of a player that are read as hex. -/
structure PlayerState.HexFields (p : PlayerState) : Prop where
  playerId : ReadsHex (codeUnits p.playerId)
  valueSigningPubkey : ReadsHex (keyTail p.valueSigningPubkey)
  entropyCommitmentHash : ∀ h ∈ p.entropyCommitmentHash, ReadsHex (codeUnits h)
  entropyValue : ∀ h ∈ p.entropyValue, ReadsHex (codeUnits h)

/-- The texts of a concealed card that are read as hex. -/
structure CardHexFields (c : ConcealedCard) : Prop where
  cardCommitment : ReadsHex (codeUnits c.cardCommitment.cardCommitment)
  cardNonce : ReadsHex (codeUnits c.cardCommitment.cardNonce)
  holderPubkey : ReadsHex (keyTail c.holderPubkey)

/-- The texts of a state that are read as hex. -/
structure RoundState.HexFields (s : RoundState) : Prop where
  players : ∀ p ∈ s.players, p.HexFields
  gameId : ReadsHex (codeUnits s.gameId)
  ruleSetHash : ReadsHex (codeUnits s.ruleSetHash)
  hiddenCommitmentRefs : ∀ h ∈ s.hiddenCommitmentRefs, ReadsHex (codeUnits h)
  successorTemplateHashes : ∀ h ∈ s.successorTemplateHashes, ReadsHex (codeUnits h)
  combinedEntropy : ∀ h ∈ s.combinedEntropy, ReadsHex (codeUnits h)
  deckCommitmentHash : ∀ h ∈ s.deckCommitmentHash, ReadsHex (codeUnits h)
  concealedDeck : ∀ deck ∈ s.concealedDeck, ∀ c ∈ deck, CardHexFields c
  priorStateHash : ∀ h ∈ s.priorStateHash, ReadsHex (codeUnits h)

theorem encBytes32Units_eq_ok {hex : List Nat} :
    encBytes32Units hex = .ok x ↔ hex.length = 64 ∧ fromHexUnits 0 hex = .ok x := by
  unfold encBytes32Units
  by_cases hlen : hex.length = 64
  · rw [if_neg (not_not_intro hlen)]
    cases fromHexUnits 0 hex with
    | error offset => simp
    | ok bytes => simp [hlen]
  · rw [if_pos hlen]
    simp [hlen]

theorem encodes_hex_iff {hex : List Nat} :
    (∃ x, encBytes32Units hex = .ok x) ↔ ReadsHex hex := by
  simp only [encBytes32Units_eq_ok, exists_and_left, ReadsHex]

theorem encodes_optionalHash_iff {h : Option String} :
    (∃ x, encOptionalHash h = .ok x) ↔ ∀ hash ∈ h, ReadsHex (codeUnits hash) := by
  cases h with
  | none => simp [encOptionalHash]
  | some hash =>
      simp only [encOptionalHash, except_bind_pure_isOk, Option.mem_some_iff, forall_eq',
        encBytes32Hex]
      exact encodes_hex_iff

/-- An array is its length and the codes of its entries. -/
theorem encArray_eq_ok {α : Type} {enc : α → Encoded} {items : List α} :
    encArray enc items = .ok x ↔
      Codec.Counted (fun n y => y = encodeVarint n) (fun a y => enc a = .ok y) items x :=
  Codec.counted_mapM

theorem encodes_array_iff {α : Type} {enc : α → Encoded} {items : List α} :
    (∃ x, encArray enc items = .ok x) ↔ ∀ a ∈ items, ∃ y, enc a = .ok y := by
  simp only [encArray_eq_ok]
  exact Codec.exists_counted_iff

theorem encodes_refs_iff {refs : List String} :
    (∃ x, encArrayBytes32 refs = .ok x) ↔ ∀ h ∈ refs, ReadsHex (codeUnits h) := by
  simp only [encArrayBytes32, encodes_array_iff, encBytes32Hex, encodes_hex_iff]

theorem encodes_player_iff : (∃ x, encPlayer p = .ok x) ↔ p.HexFields := by
  simp only [encPlayer_eq_ok]
  constructor
  · intro hx
    obtain ⟨_, w, hw, _⟩ := hx
    exact {
      playerId := encodes_hex_iff.mp ⟨_, hw.playerId⟩
      valueSigningPubkey := encodes_hex_iff.mp ⟨_, hw.pubkeyTail⟩
      entropyCommitmentHash := encodes_optionalHash_iff.mp ⟨_, hw.commitment⟩
      entropyValue := encodes_optionalHash_iff.mp ⟨_, hw.entropy⟩ }
  · intro h
    obtain ⟨playerId, hid⟩ := encodes_hex_iff.mpr h.playerId
    obtain ⟨pubkeyTail, htail⟩ := encodes_hex_iff.mpr h.valueSigningPubkey
    obtain ⟨commitment, hcommit⟩ := encodes_optionalHash_iff.mpr h.entropyCommitmentHash
    obtain ⟨entropy, hentropy⟩ := encodes_optionalHash_iff.mpr h.entropyValue
    exact ⟨_, ⟨playerId, pubkeyTail, commitment, entropy⟩, ⟨hid, htail, hcommit, hentropy⟩, rfl⟩

theorem encodes_card_iff : (∃ x, encConcealedCard c = .ok x) ↔ CardHexFields c := by
  simp only [encConcealedCard_eq_ok]
  constructor
  · intro hx
    obtain ⟨_, w, hw, _⟩ := hx
    exact {
      cardCommitment := encodes_hex_iff.mp ⟨_, hw.commitment⟩
      cardNonce := encodes_hex_iff.mp ⟨_, hw.nonce⟩
      holderPubkey := encodes_hex_iff.mp ⟨_, hw.holderTail⟩ }
  · intro h
    obtain ⟨commitment, hcommit⟩ := encodes_hex_iff.mpr h.cardCommitment
    obtain ⟨nonce, hnonce⟩ := encodes_hex_iff.mpr h.cardNonce
    obtain ⟨holderTail, hholder⟩ := encodes_hex_iff.mpr h.holderPubkey
    exact ⟨_, ⟨commitment, nonce, holderTail⟩, ⟨hcommit, hnonce, hholder⟩, rfl⟩

theorem encodes_deck_iff {deck : Option (List ConcealedCard)} :
    (∃ x, encOptionalConcealedDeck deck = .ok x) ↔ ∀ d ∈ deck, ∀ c ∈ d, CardHexFields c := by
  cases deck with
  | none => simp [encOptionalConcealedDeck]
  | some cards =>
      simp only [encOptionalConcealedDeck, except_bind_pure_isOk, encodes_array_iff,
        encodes_card_iff, Option.mem_some_iff, forall_eq']

/-- **What encodes**: a state whose hex texts `parseInt` can read. -/
theorem encodes_iff : (∃ x, encodeRoundState s = .ok x) ↔ s.HexFields := by
  have hplayers : (∃ x, encArray encPlayer s.players = .ok x) ↔ ∀ p ∈ s.players, p.HexFields := by
    simp only [encodes_array_iff, encodes_player_iff]
  simp only [encodeRoundState_eq_ok]
  constructor
  · intro hx
    obtain ⟨_, w, hw, _⟩ := hx
    exact {
      players := hplayers.mp ⟨_, hw.players⟩
      gameId := encodes_hex_iff.mp ⟨_, hw.gameId⟩
      ruleSetHash := encodes_hex_iff.mp ⟨_, hw.ruleHash⟩
      hiddenCommitmentRefs := encodes_refs_iff.mp ⟨_, hw.hiddenRefs⟩
      successorTemplateHashes := encodes_refs_iff.mp ⟨_, hw.successorRefs⟩
      combinedEntropy := encodes_optionalHash_iff.mp ⟨_, hw.combined⟩
      deckCommitmentHash := encodes_optionalHash_iff.mp ⟨_, hw.deckHash⟩
      concealedDeck := encodes_deck_iff.mp ⟨_, hw.concealed⟩
      priorStateHash := encodes_optionalHash_iff.mp ⟨_, hw.prior⟩ }
  · intro h
    obtain ⟨players, hplayers⟩ := hplayers.mpr h.players
    obtain ⟨gameId, hgame⟩ := encodes_hex_iff.mpr h.gameId
    obtain ⟨ruleHash, hrules⟩ := encodes_hex_iff.mpr h.ruleSetHash
    obtain ⟨hiddenRefs, hhidden⟩ := encodes_refs_iff.mpr h.hiddenCommitmentRefs
    obtain ⟨successorRefs, hsuccessors⟩ := encodes_refs_iff.mpr h.successorTemplateHashes
    obtain ⟨combined, hcombined⟩ := encodes_optionalHash_iff.mpr h.combinedEntropy
    obtain ⟨deckHash, hdeck⟩ := encodes_optionalHash_iff.mpr h.deckCommitmentHash
    obtain ⟨concealed, hconcealed⟩ := encodes_deck_iff.mpr h.concealedDeck
    obtain ⟨prior, hprior⟩ := encodes_optionalHash_iff.mpr h.priorStateHash
    exact ⟨_, ⟨players, gameId, ruleHash, hiddenRefs, successorRefs, combined, deckHash,
      concealed, prior⟩, ⟨hplayers, hgame, hrules, hhidden, hsuccessors, hcombined, hdeck,
      hconcealed, hprior⟩, rfl⟩

end CardTable.Ts
