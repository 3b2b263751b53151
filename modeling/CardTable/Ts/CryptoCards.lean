import CardTable.Cards
import CardTable.Ts.Types

/-!
# Ts.CryptoCards — the TypeScript side of the card cryptography

`packages/crypto-cards/src`: what each function checks before it
computes. Where Go returns an error these functions throw. Two of them
differ from their Go peers in what they let through: `fromHex` reads more
texts than hex, and the block counter of the byte stream throws where
Go's wraps.
-/

namespace CardTable.Ts

open Basis Basis.Sampling Cards

/-! ## encode.ts -/

/-- The UTF-16 code units of a character. -/
def charUnits (c : Char) : List Nat :=
  if c.toNat < 65536 then [c.toNat]
  else [55296 + (c.toNat - 65536) / 1024, 56320 + (c.toNat - 65536) % 1024]

/-- The code units of a string: JavaScript counts and cuts strings by
them. -/
def codeUnits (s : String) : List Nat := s.toList.flatMap charUnits

/-- The white space `parseInt` skips. -/
def isWhiteSpace (u : Nat) : Bool :=
  (9 ≤ u && u ≤ 13) || u == 32 || u == 160 || u == 5760 || (8192 ≤ u && u ≤ 8202) ||
    u == 8232 || u == 8233 || u == 8239 || u == 8287 || u == 12288 || u == 65279

/-- `parseInt(text, 16)` on a text of two code units; `none` is `NaN`.
It skips white space and a sign, takes a `0x` away, and stops at the
first unit that is no digit. -/
def parsePair (u v : Nat) : Option Int :=
  match Hex.digitVal? u with
  | some hi =>
      if u = 48 ∧ (v = 88 ∨ v = 120) then none
      else match Hex.digitVal? v with
        | some lo => some (16 * (hi : Int) + lo)
        | none => some (hi : Int)
  | none =>
      if u = 43 ∨ isWhiteSpace u then (Hex.digitVal? v).map fun d => (d : Int)
      else if u = 45 then (Hex.digitVal? v).map fun d => -(d : Int)
      else none

/-- The loop of `fromHex`: the bytes, or the offset of the pair that is
not a number. A `Uint8Array` stores a number modulo 256. -/
def fromHexUnits (offset : Nat) : List Nat → Except Nat (List UInt8)
  | u :: v :: rest =>
      match parsePair u v with
      | none => .error offset
      | some n =>
        match fromHexUnits (offset + 2) rest with
        | .error at_ => .error at_
        | .ok bytes => .ok (UInt8.ofNat (n % 256).toNat :: bytes)
  | _ => .ok []

/-- `fromHex`. -/
def fromHex (hex : String) : Js (List UInt8) :=
  if (codeUnits hex).length % 2 ≠ 0 then .halt s!"fromHex: odd-length input: {hex}"
  else match fromHexUnits 0 (codeUnits hex) with
  | .error offset => .halt s!"fromHex: bad hex at offset {offset}: {hex}"
  | .ok bytes => .ok bytes

/-- The test `/^[0-9a-f]{64}$/`. -/
def isHex64 (s : String) : Bool :=
  decide (s.toList.length = 64) && s.toList.all Hex.isLowerDigit

/-- `asHash256` of `packages/protocol-types`. -/
def asHash256 (hex : String) : Js String :=
  if isHex64 hex then .ok hex
  else
    let got := (codeUnits hex).length
    .halt s!"asHash256: expected 64 lowercase hex chars, got {got}"

/-- The test of `asPubkey33`, `/^0[23][0-9a-f]{64}$/`. -/
def isPubkey33 (s : String) : Bool :=
  match s.toList with
  | zero :: parity :: tail =>
      zero == '0' && (parity == '2' || parity == '3') &&
        (decide (tail.length = 64) && tail.all Hex.isLowerDigit)
  | _ => false

/-- `encodeBytes32`. -/
def encodeBytes32 (b : List UInt8) : Js (List UInt8) :=
  if b.length ≠ 32 then
    let got := b.length
    .halt s!"encodeBytes32: expected 32 bytes, got {got}"
  else .ok b

/-! ## shuffle.ts -/

/-- `nextByte`; `none` when `encodeU32LE` throws because the counter has
left 32 bits. -/
def nextByte (p : Prg) : Option (UInt8 × Prg) :=
  if p.buf.length ≤ p.offset then
    if p.counter ≤ 4294967295 then some (p.refill p.counter).takeByte else none
  else some p.takeByte

/-- `shuffleCanonicalDeck`. -/
def shuffleCanonicalDeck (combined : List UInt8) (deckSize : Int) : Js (List Nat) :=
  if deckSize ≠ 52 ∧ deckSize ≠ 54 then
    .halt s!"shuffleCanonicalDeck: unsupported deckSize {deckSize}"
  else if combined.length ≠ 32 then
    let got := combined.length
    .halt s!"Sha256CounterPrg: seed must be 32 bytes, got {got}"
  else match shuffleDeck nextByte combined deckSize.toNat with
  | none => .halt "encodeU32LE: out of range: 4294967296"
  | some deck => .ok deck

/-! ## entropy.ts -/

/-- `commitEntropy`. -/
def commitEntropy (entropy playerId gameId : List UInt8) : Js (List UInt8) := do
  let e ← encodeBytes32 entropy
  let p ← encodeBytes32 playerId
  let g ← encodeBytes32 gameId
  pure (entropyCommitment e p g)

/-- The loop of `combineEntropy`. -/
def encodeEntropies : List (List UInt8) → Js (List (List UInt8))
  | [] => .ok []
  | e :: rest => do
      let e ← encodeBytes32 e
      let parts ← encodeEntropies rest
      pure (e :: parts)

/-- `combineEntropy`. -/
def combineEntropy (entropies : List (List UInt8)) : Js (List UInt8) :=
  if entropies.length = 0 then .halt "combineEntropy: empty list"
  else do
    let parts ← encodeEntropies entropies
    pure (combinedSeed parts)

/-! ## deck.ts -/

/-- `commitCard`. -/
def commitCard (ordinal : Int) (cardNonce deckNonce : List UInt8) : Js (List UInt8) :=
  if ordinal < 0 ∨ 53 < ordinal then
    .halt s!"commitCard: ordinal out of 0..53 range: {ordinal}"
  else do
    let cn ← encodeBytes32 cardNonce
    let dn ← encodeBytes32 deckNonce
    pure (cardCommitment ordinal.toNat cn dn)

/-- The loop of `buildDeckCommitment` over the shuffled deck from
position `i` on. -/
def commitPositions (combined : List UInt8) (i : Nat) : List Nat → Js (List DeckPosition)
  | [] => .ok []
  | ordinal :: rest => do
      let cardNonce := deriveCardNonce combined i
      let deckNonce := deriveDeckNonce combined
      let commitment ← commitCard ordinal cardNonce deckNonce
      let per ← commitPositions combined (i + 1) rest
      pure (⟨i, ordinal, cardNonce, deckNonce, commitment⟩ :: per)

/-- `buildDeckCommitment`. -/
def buildDeckCommitment (combined : List UInt8) (deckSize shuffleAlgorithmVersion : Int) :
    Js DeckCommitment :=
  if shuffleAlgorithmVersion ≠ 1 then
    .halt s!"buildDeckCommitment: unsupported shuffle algorithm version {shuffleAlgorithmVersion}"
  else do
    let shuffled ← shuffleCanonicalDeck combined deckSize
    let per ← commitPositions combined 0 shuffled
    pure ⟨combined, shuffleAlgorithmVersion.toNat, shuffled, per,
      domainHash tagDeckCommitment
        (encodeU8 shuffleAlgorithmVersion.toNat :: per.map (·.commitment))⟩

/-- `verifyRevealProof`. -/
def verifyRevealProof (expected : List UInt8) (ordinal : Int) (cardNonce deckNonce : List UInt8) :
    Js Bool := do
  let recomputed ← commitCard ordinal cardNonce deckNonce
  pure (recomputed == expected)

/-! ## What the checks leave -/

theorem charUnits_digit {c : Char} {v : Nat} (h : Hex.digitVal? c.toNat = some v) :
    charUnits c = [c.toNat] := by
  have := Hex.code_lt_of_digitVal? h
  rw [charUnits, if_pos (by omega)]

/-- Two hex digits are a number below 256. -/
theorem parsePair_digits {u v hi lo : Nat} (hu : Hex.digitVal? u = some hi)
    (hv : Hex.digitVal? v = some lo) : parsePair u v = some (16 * (hi : Int) + lo) := by
  have hprefix : ¬(u = 48 ∧ (v = 88 ∨ v = 120)) := by
    intro h
    obtain ⟨_, rfl | rfl⟩ := h
    · cases hv
    · cases hv
  simp [parsePair, hu, hv, hprefix]

/-- ASCII text has one code unit a character. -/
theorem units_of_ascii {cs : List Char} (h : ∀ c ∈ cs, c.toNat < 128) :
    cs.flatMap charUnits = cs.map Char.toNat := by
  induction cs with
  | nil => rfl
  | cons c cs ih =>
      obtain ⟨hc, hcs⟩ := List.forall_mem_cons.mp h
      rw [List.flatMap_cons, ih hcs, charUnits, if_pos (by omega)]
      rfl

/-- The pairs of a text that decodes are read one by one. -/
theorem fromHexUnits_of_decodeChars {cs : List Char} {bytes : List UInt8}
    (h : Hex.decodeChars cs = some bytes) (offset : Nat) :
    fromHexUnits offset (cs.flatMap charUnits) = .ok bytes := by
  revert offset
  refine Hex.decode_induction
    (P := fun cs bytes => ∀ offset, fromHexUnits offset (cs.flatMap charUnits) = .ok bytes)
    (fun _ => rfl) ?_ h
  intro c d rest hi lo bytes hc hd ih offset
  have hhi := Hex.digitVal?_lt hc
  have hlo := Hex.digitVal?_lt hd
  have hmod : ((16 * hi + lo : Int) % 256).toNat = 16 * hi + lo := by omega
  simp only [List.flatMap_cons, charUnits_digit hc, charUnits_digit hd,
    List.singleton_append, fromHexUnits, parsePair_digits hc hd, ih, hmod]

/-- **What `hex.DecodeString` reads, `fromHex` reads the same way.** -/
theorem fromHex_of_decode {s : String} {bytes : List UInt8} (h : Hex.decode s = some bytes) :
    fromHex s = .ok bytes := by
  obtain ⟨hlen, hascii⟩ := Hex.ascii_of_decodeChars h
  have heven : (codeUnits s).length % 2 = 0 := by
    rw [codeUnits, units_of_ascii hascii, List.length_map]
    omega
  have hbytes : fromHexUnits 0 (codeUnits s) = .ok bytes := fromHexUnits_of_decodeChars h 0
  simp [fromHex, heven, hbytes]

/-- The text of 32 bytes is a hash. -/
theorem isHex64_encode {bytes : List UInt8} (h : bytes.length = 32) :
    isHex64 (Hex.encode bytes) = true := by
  simpa [isHex64, Hex.encode, Hex.length_encodeChars, h] using Hex.isLowerDigit_encodeChars bytes

theorem asHash256_encode {bytes : List UInt8} (h : bytes.length = 32) :
    asHash256 (Hex.encode bytes) = .ok (Hex.encode bytes) := by
  rw [asHash256, if_pos (isHex64_encode h)]

/-- A hash decodes. -/
theorem decodes_of_isHex64 {s : String} (h : isHex64 s = true) :
    ∃ bytes, Hex.decode s = some bytes ∧ bytes.length = 32 := by
  simp only [isHex64, Bool.and_eq_true, decide_eq_true_eq, List.all_eq_true] at h
  have hdigits : ∀ c ∈ s.toList, ∃ v, Hex.digitVal? c.toNat = some v :=
    fun c hc => Hex.digitVal?_isSome (h.2 c hc)
  obtain ⟨bytes, hbytes⟩ := Hex.decodeChars_isSome (by rw [h.1]) hdigits
  have hlen := (Hex.ascii_of_decodeChars hbytes).1
  exact ⟨bytes, hbytes, by omega⟩

/-- The 66 characters of a key. -/
theorem pubkey_chars {key : String} (h : isPubkey33 key = true) :
    key.toList.length = 66 ∧ ∀ c ∈ key.toList, c.toNat < 128 := by
  have hlower : ∀ c : Char, Hex.isLowerDigit c = true → c.toNat < 128 := by
    intro c hc
    have := of_decide_eq_true hc
    omega
  unfold isPubkey33 at h
  split at h
  · rename_i zero parity tail hkey
    simp only [Bool.and_eq_true, Bool.or_eq_true, beq_iff_eq, decide_eq_true_eq,
      List.all_eq_true] at h
    obtain ⟨⟨hzero, hparity⟩, hlen, htail⟩ := h
    rw [hkey]
    refine ⟨by simp [hlen], ?_⟩
    simp only [List.forall_mem_cons]
    refine ⟨?_, ?_, fun c hc => hlower c (htail c hc)⟩
    · rw [hzero]
      decide
    · rcases hparity with rfl | rfl
      · decide
      · decide
  · cases h

theorem encodeBytes32_eq_ok {b : List UInt8} (h : b.length = 32) : encodeBytes32 b = .ok b := by
  simp [encodeBytes32, h]

theorem commitEntropy_eq_ok {entropy playerId gameId : List UInt8} (he : entropy.length = 32)
    (hp : playerId.length = 32) (hg : gameId.length = 32) :
    commitEntropy entropy playerId gameId = .ok (entropyCommitment entropy playerId gameId) := by
  simp [commitEntropy, encodeBytes32_eq_ok, he, hp, hg]

theorem combineEntropy_eq_ok {entropies : List (List UInt8)} (hne : entropies ≠ [])
    (h : ∀ e ∈ entropies, e.length = 32) :
    combineEntropy entropies = .ok (combinedSeed entropies) := by
  have hparts : encodeEntropies entropies = .ok entropies := by
    clear hne
    induction entropies with
    | nil => rfl
    | cons e rest ih =>
        obtain ⟨he, hrest⟩ := List.forall_mem_cons.mp h
        simp [encodeEntropies, encodeBytes32_eq_ok he, ih hrest]
  have hlen : entropies.length ≠ 0 := fun h0 => hne (List.length_eq_zero_iff.mp h0)
  simp [combineEntropy, hlen, hparts]

theorem commitCard_eq_ok {ordinal : Int} {cardNonce deckNonce : List UInt8}
    (ho : ¬(ordinal < 0 ∨ 53 < ordinal)) (hc : cardNonce.length = 32)
    (hd : deckNonce.length = 32) :
    commitCard ordinal cardNonce deckNonce =
      .ok (cardCommitment ordinal.toNat cardNonce deckNonce) := by
  simp [commitCard, ho, encodeBytes32_eq_ok, hc, hd]

theorem commitPositions_eq_ok {combined : List UInt8} {deck : List Nat} (i : Nat)
    (h : ∀ o ∈ deck, o ≤ 53) :
    commitPositions combined i deck = .ok (deckPositions combined i deck) := by
  induction deck generalizing i with
  | nil => rfl
  | cons o deck ih =>
      obtain ⟨ho, hdeck⟩ := List.forall_mem_cons.mp h
      have hcard : commitCard o (deriveCardNonce combined i) (deriveDeckNonce combined) = .ok _ :=
        commitCard_eq_ok (by omega) (Sha256.length_sha256 _) (Sha256.length_sha256 _)
      simp [commitPositions, hcard, ih (i + 1) hdeck, deckPositions, deckPosition]

/-- A supported deck is committed whenever its shuffle ends. -/
theorem buildDeckCommitment_eq_ok {combined : List UInt8} {deckSize : Int} {deck : List Nat}
    (hsize : deckSize = 52 ∨ deckSize = 54) (hlen : combined.length = 32)
    (hdeck : shuffleDeck nextByte combined deckSize.toNat = some deck) :
    buildDeckCommitment combined deckSize 1 = .ok (commitDeck combined deck) := by
  have hsupported : ¬(deckSize ≠ 52 ∧ deckSize ≠ 54) := by omega
  have hords : ∀ o ∈ deck, o ≤ 53 := by
    intro o ho
    have := ordinal_lt_of_shuffleDeck (by omega) hdeck o ho
    omega
  simp [buildDeckCommitment, shuffleCanonicalDeck, hsupported, hlen, hdeck,
    commitPositions_eq_ok 0 hords, commitDeck]

end CardTable.Ts
