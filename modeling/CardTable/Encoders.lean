import CardTable.Agreement
import CardTable.Basis.Sorting
import CardTable.Go.Serialise
import CardTable.Ts.Canonical

/-!
# Encoders — one state, two encodings

Both encoders are documented to give the same bytes for the same state.
They lay it out alike, and differ in what they take for hex and in how
they sort the keys of the preferences: `parseInt` reads texts that
`hex.DecodeString` refuses, Go takes the empty text for a hash that is
not there, and JavaScript compares UTF-16 code units where Go compares
bytes. `Portable` says that none of this matters for a state, and the
encoders agree on exactly the portable ones.
-/

namespace CardTable

open Basis Basis.Codec

/-! ## Hex texts -/

/-- 64 hex digits of either case. -/
def IsHex (text : String) : Prop :=
  text.toList.length = 64 ∧ ∀ c ∈ text.toList, ∃ v, Hex.digitVal? c.toNat = some v

/-- The characters of the last 64. -/
def lastChars (text : String) : List Char := text.toList.drop (text.toList.length - 64)

/-- A text that ends in 64 hex digits. -/
def EndsInHex (text : String) : Prop := IsHex (String.ofList (lastChars text))

theorem IsHex.decode {text : String} (h : IsHex text) :
    ∃ bytes, Hex.decode text = some bytes ∧ bytes.length = 32 := by
  obtain ⟨bytes, hbytes⟩ := Hex.decodeChars_isSome (by rw [h.1]) h.2
  have hlen := (Hex.digits_of_decodeChars hbytes).1
  have h64 := h.1
  exact ⟨bytes, hbytes, by omega⟩

/-- **Go reads hex**, and nothing else. -/
theorem readsHex_iff {text : String} : Go.ReadsHex text ↔ IsHex text := by
  constructor
  · intro h
    obtain ⟨hsize, bytes, hbytes⟩ := h
    obtain ⟨hlen, hdigits⟩ := Hex.digits_of_decodeChars hbytes
    rw [Hex.utf8ByteSize_of_decode hbytes] at hsize
    exact ⟨hlen.trans hsize, hdigits⟩
  · intro h
    obtain ⟨bytes, hbytes, hlen⟩ := h.decode
    refine ⟨?_, bytes, hbytes⟩
    rw [Hex.utf8ByteSize_of_decode hbytes, hlen]

theorem length_le_utf8ByteSize (text : String) : text.toList.length ≤ text.utf8ByteSize := by
  have hchars : ∀ cs : List Char, cs.length ≤ (String.ofList cs).utf8ByteSize := by
    intro cs
    induction cs with
    | nil => exact Nat.zero_le _
    | cons c cs ih =>
        have hpos := c.utf8Size_pos
        rw [String.ofList_cons, String.utf8ByteSize_append, String.utf8ByteSize_singleton,
          List.length_cons]
        omega
  have hle := hchars text.toList
  rwa [String.ofList_toList] at hle

theorem length_lastChars {text : String} (h : 64 ≤ text.toList.length) :
    (lastChars text).length = 64 := by
  rw [lastChars, List.length_drop]
  omega

/-- A text that ends in 64 digits has as many characters. -/
theorem EndsInHex.length_le {text : String} (h : EndsInHex text) : 64 ≤ text.toList.length := by
  have h64 := h.1
  rw [String.toList_ofList, lastChars, List.length_drop] at h64
  omega

/-- **Go reads a key that ends in hex**, and no other: a key of fewer
characters has 64 bytes only if it is not ASCII. -/
theorem readsTail_iff {text : String} : Go.ReadsTail text ↔ EndsInHex text := by
  constructor
  · intro h
    obtain ⟨hsize, bytes, hbytes⟩ := h
    obtain ⟨_, hdigits⟩ := Hex.digits_of_decodeChars hbytes
    unfold EndsInHex IsHex
    rw [String.toList_ofList]
    by_cases hlong : 64 ≤ text.toList.length
    · exact ⟨length_lastChars hlong, hdigits⟩
    · have hall : lastChars text = text.toList := by
        rw [lastChars, show text.toList.length - 64 = 0 by omega, List.drop_zero]
      rw [show text.toList.drop (text.toList.length - 64) = text.toList from hall] at hbytes
      have hascii := Hex.utf8ByteSize_ofList (Hex.ascii_of_decodeChars hbytes).2
      rw [String.ofList_toList] at hascii
      omega
  · intro h
    obtain ⟨bytes, hbytes, _⟩ := h.decode
    rw [Hex.decode, String.toList_ofList] at hbytes
    exact ⟨h.length_le.trans (length_le_utf8ByteSize text), bytes, hbytes⟩

/-- The code units of the last 64 characters, when these are digits. -/
theorem keyTail_eq {key : String} (h : EndsInHex key) :
    Ts.keyTail key = Ts.codeUnits (String.ofList (lastChars key)) := by
  obtain ⟨bytes, hbytes, _⟩ := h.decode
  rw [Hex.decode, String.toList_ofList] at hbytes
  have hunits := Ts.units_of_ascii (Hex.ascii_of_decodeChars hbytes).2
  have hsplit : key.toList = key.toList.take (key.toList.length - 64) ++ lastChars key :=
    (List.take_append_drop ..).symm
  rw [Ts.keyTail, Ts.codeUnits, Ts.codeUnits, String.toList_ofList, hunits]
  -- 64 units at the end, whatever the front of the key takes
  rw [hsplit, List.flatMap_append, hunits]
  apply List.drop_left'
  rw [List.length_append, List.length_map, length_lastChars h.length_le, Nat.add_sub_cancel]

/-- **Both read hex the same way.** -/
theorem hash_bytes {text : String} (h : IsHex text) :
    ∃ x, Ts.encBytes32Hex text = .ok x ∧ ∀ path, Go.encBytes32Hex path text = .ok x := by
  obtain ⟨bytes, hbytes, hlen⟩ := h.decode
  obtain ⟨hchars, hascii⟩ := Hex.ascii_of_decodeChars hbytes
  refine ⟨bytes, ?_, ?_⟩
  · rw [Ts.encBytes32Hex, Ts.encBytes32Units_eq_ok]
    refine ⟨?_, Ts.fromHexUnits_of_decodeChars hbytes 0⟩
    rw [Ts.codeUnits, Ts.units_of_ascii hascii, List.length_map, hchars, hlen]
  · intro path
    rw [Go.encBytes32Hex_eq_ok, Hex.utf8ByteSize_of_decode hbytes, hlen]
    exact ⟨rfl, hbytes⟩

theorem key_bytes {key : String} (h : EndsInHex key) :
    ∃ x, Ts.encBytes32Units (Ts.keyTail key) = .ok x ∧ ∀ path, Go.encHexTail path key = .ok x := by
  obtain ⟨x, hts, hgo⟩ := hash_bytes h
  refine ⟨x, by rw [keyTail_eq h]; exact hts, ?_⟩
  intro path
  obtain ⟨_, hbytes⟩ := Go.encBytes32Hex_eq_ok.mp (hgo path)
  rw [Hex.decode, String.toList_ofList] at hbytes
  exact Go.encHexTail_eq_ok.mpr ⟨h.length_le.trans (length_le_utf8ByteSize key), hbytes⟩

/-! ## The texts of a state -/

namespace Ts

variable {H H' H'' O O' O'' K K' K'' : String → Prop} {p : PlayerState} {c : ConcealedCard} {s : RoundState}

/-- Every hash of a player meets `H`, one that may be absent `O`, and the
key `K`. -/
structure PlayerState.Texts (H O K : String → Prop) (p : PlayerState) : Prop where
  playerId : H p.playerId
  valueSigningPubkey : K p.valueSigningPubkey
  entropyCommitmentHash : ∀ h ∈ p.entropyCommitmentHash, O h
  entropyValue : ∀ h ∈ p.entropyValue, O h

structure CardTexts (H K : String → Prop) (c : ConcealedCard) : Prop where
  cardCommitment : H c.cardCommitment.cardCommitment
  cardNonce : H c.cardCommitment.cardNonce
  holderPubkey : K c.holderPubkey

/-- The same for everything in a state. -/
structure RoundState.Texts (H O K : String → Prop) (s : RoundState) : Prop where
  players : ∀ p ∈ s.players, p.Texts H O K
  gameId : H s.gameId
  ruleSetHash : H s.ruleSetHash
  hiddenCommitmentRefs : ∀ h ∈ s.hiddenCommitmentRefs, H h
  successorTemplateHashes : ∀ h ∈ s.successorTemplateHashes, H h
  combinedEntropy : ∀ h ∈ s.combinedEntropy, O h
  deckCommitmentHash : ∀ h ∈ s.deckCommitmentHash, O h
  concealedDeck : ∀ deck ∈ s.concealedDeck, ∀ c ∈ deck, CardTexts H K c
  priorStateHash : ∀ h ∈ s.priorStateHash, O h

/-- What two readings of a player give together. -/
theorem PlayerState.Texts.combine (h : p.Texts H O K) (h' : p.Texts H' O' K')
    (hH : ∀ t, H t → H' t → H'' t) (hO : ∀ t, O t → O' t → O'' t)
    (hK : ∀ t, K t → K' t → K'' t) : p.Texts H'' O'' K'' where
  playerId := hH _ h.playerId h'.playerId
  valueSigningPubkey := hK _ h.valueSigningPubkey h'.valueSigningPubkey
  entropyCommitmentHash := fun t ht =>
    hO t (h.entropyCommitmentHash t ht) (h'.entropyCommitmentHash t ht)
  entropyValue := fun t ht => hO t (h.entropyValue t ht) (h'.entropyValue t ht)

theorem CardTexts.combine (h : CardTexts H K c) (h' : CardTexts H' K' c)
    (hH : ∀ t, H t → H' t → H'' t) (hK : ∀ t, K t → K' t → K'' t) : CardTexts H'' K'' c where
  cardCommitment := hH _ h.cardCommitment h'.cardCommitment
  cardNonce := hH _ h.cardNonce h'.cardNonce
  holderPubkey := hK _ h.holderPubkey h'.holderPubkey

/-- What two readings of a state give together. -/
theorem RoundState.Texts.combine (h : s.Texts H O K) (h' : s.Texts H' O' K')
    (hH : ∀ t, H t → H' t → H'' t) (hO : ∀ t, O t → O' t → O'' t)
    (hK : ∀ t, K t → K' t → K'' t) : s.Texts H'' O'' K'' where
  players := fun p hp => (h.players p hp).combine (h'.players p hp) hH hO hK
  gameId := hH _ h.gameId h'.gameId
  ruleSetHash := hH _ h.ruleSetHash h'.ruleSetHash
  hiddenCommitmentRefs := fun t ht =>
    hH t (h.hiddenCommitmentRefs t ht) (h'.hiddenCommitmentRefs t ht)
  successorTemplateHashes := fun t ht =>
    hH t (h.successorTemplateHashes t ht) (h'.successorTemplateHashes t ht)
  combinedEntropy := fun t ht => hO t (h.combinedEntropy t ht) (h'.combinedEntropy t ht)
  deckCommitmentHash := fun t ht => hO t (h.deckCommitmentHash t ht) (h'.deckCommitmentHash t ht)
  concealedDeck := fun deck hdeck c hc =>
    (h.concealedDeck deck hdeck c hc).combine (h'.concealedDeck deck hdeck c hc) hH hK
  priorStateHash := fun t ht => hO t (h.priorStateHash t ht) (h'.priorStateHash t ht)

/-- A weaker reading. -/
theorem RoundState.Texts.mono (h : s.Texts H O K) (hH : ∀ t, H t → H' t)
    (hO : ∀ t, O t → O' t) (hK : ∀ t, K t → K' t) : s.Texts H' O' K' :=
  h.combine h (fun t ht _ => hH t ht) (fun t ht _ => hO t ht) (fun t ht _ => hK t ht)

/-- What TypeScript asks of the texts. -/
theorem hexFields_iff :
    s.HexFields ↔ s.Texts (fun t => ReadsHex (codeUnits t)) (fun t => ReadsHex (codeUnits t))
      (fun t => ReadsHex (keyTail t)) := by
  constructor
  · intro h
    exact { h with
      players := fun p hp => { h.players p hp with }
      concealedDeck := fun deck hdeck c hc => { h.concealedDeck deck hdeck c hc with } }
  · intro h
    exact { h with
      players := fun p hp => { h.players p hp with }
      concealedDeck := fun deck hdeck c hc => { h.concealedDeck deck hdeck c hc with } }

/-- An optional hash of Go, which is a plain text there. -/
theorem goOptional_iff {h : Option String} :
    (h.getD "" ≠ "" → Go.ReadsHex (h.getD "")) ↔ ∀ t ∈ h, t ≠ "" → IsHex t := by
  cases h with
  | none => simp
  | some t => simp [readsHex_iff]

theorem toGo_playerHexFields_iff :
    p.toGo.HexFields ↔ p.Texts IsHex (fun t => t ≠ "" → IsHex t) EndsInHex := by
  constructor
  · intro h
    exact {
      playerId := readsHex_iff.mp h.playerId
      valueSigningPubkey := readsTail_iff.mp h.valueSigningPubkey
      entropyCommitmentHash := goOptional_iff.mp h.entropyCommitmentHash
      entropyValue := goOptional_iff.mp h.entropyValue }
  · intro h
    exact {
      playerId := readsHex_iff.mpr h.playerId
      valueSigningPubkey := readsTail_iff.mpr h.valueSigningPubkey
      entropyCommitmentHash := goOptional_iff.mpr h.entropyCommitmentHash
      entropyValue := goOptional_iff.mpr h.entropyValue }

theorem cardHexFields_iff : Go.CardHexFields c ↔ CardTexts IsHex EndsInHex c := by
  constructor
  · intro h
    exact ⟨readsHex_iff.mp h.cardCommitment, readsHex_iff.mp h.cardNonce,
      readsTail_iff.mp h.holderPubkey⟩
  · intro h
    exact ⟨readsHex_iff.mpr h.cardCommitment, readsHex_iff.mpr h.cardNonce,
      readsTail_iff.mpr h.holderPubkey⟩

/-- What Go asks of them: a hash that may be absent may be empty. -/
theorem toGo_hexFields_iff :
    s.toGo.HexFields ↔ s.Texts IsHex (fun t => t ≠ "" → IsHex t) EndsInHex := by
  constructor
  · intro h
    exact {
      players := fun p hp => toGo_playerHexFields_iff.mp (h.players _ (List.mem_map_of_mem hp))
      gameId := readsHex_iff.mp h.gameId
      ruleSetHash := readsHex_iff.mp h.ruleSetHash
      hiddenCommitmentRefs := fun t ht => readsHex_iff.mp (h.hiddenCommitmentRefs t ht)
      successorTemplateHashes := fun t ht => readsHex_iff.mp (h.successorTemplateHashes t ht)
      combinedEntropy := goOptional_iff.mp h.combinedEntropy
      deckCommitmentHash := goOptional_iff.mp h.deckCommitmentHash
      concealedDeck := fun deck hdeck c hc =>
        cardHexFields_iff.mp (h.concealedDeck deck hdeck c hc)
      priorStateHash := fun t ht hne => readsHex_iff.mp (h.priorStateHash t ht hne) }
  · intro h
    have hplayers : ∀ q ∈ s.toGo.players, q.HexFields := by
      intro q hq
      obtain ⟨p, hp, rfl⟩ := List.mem_map.mp hq
      exact toGo_playerHexFields_iff.mpr (h.players p hp)
    exact {
      players := hplayers
      gameId := readsHex_iff.mpr h.gameId
      ruleSetHash := readsHex_iff.mpr h.ruleSetHash
      hiddenCommitmentRefs := fun t ht => readsHex_iff.mpr (h.hiddenCommitmentRefs t ht)
      successorTemplateHashes := fun t ht => readsHex_iff.mpr (h.successorTemplateHashes t ht)
      combinedEntropy := goOptional_iff.mpr h.combinedEntropy
      deckCommitmentHash := goOptional_iff.mpr h.deckCommitmentHash
      concealedDeck := fun deck hdeck c hc =>
        cardHexFields_iff.mpr (h.concealedDeck deck hdeck c hc)
      priorStateHash := fun t ht hne => readsHex_iff.mpr (h.priorStateHash t ht hne) }

/-- Every hash and key of a state is hex. -/
def RoundState.AllHex (s : RoundState) : Prop := s.Texts IsHex IsHex EndsInHex

theorem readsHex_of_isHex {t : String} (h : IsHex t) : ReadsHex (codeUnits t) := by
  obtain ⟨x, hts, _⟩ := hash_bytes h
  exact encodes_hex_iff.mp ⟨x, hts⟩

theorem readsTail_of_endsInHex {t : String} (h : EndsInHex t) : ReadsHex (keyTail t) := by
  obtain ⟨x, hts, _⟩ := key_bytes h
  exact encodes_hex_iff.mp ⟨x, hts⟩

/-- **Both languages read a state exactly when its texts are hex**: the
empty text is hex for neither, and TypeScript refuses it. -/
theorem allHex_iff : s.AllHex ↔ s.HexFields ∧ s.toGo.HexFields := by
  rw [hexFields_iff, toGo_hexFields_iff]
  constructor
  · intro h
    refine ⟨h.mono ?_ ?_ ?_, h.mono ?_ ?_ ?_⟩
    · exact fun t => readsHex_of_isHex
    · exact fun t => readsHex_of_isHex
    · exact fun t => readsTail_of_endsInHex
    · exact fun t ht => ht
    · exact fun t ht _ => ht
    · exact fun t ht => ht
  · intro h
    obtain ⟨hts, hgo⟩ := h
    -- Go lets the empty text through, TypeScript does not
    refine hts.combine hgo (fun _ _ ht => ht) ?_ (fun _ _ ht => ht)
    intro t hread hhex
    apply hhex
    intro hempty
    rw [hempty] at hread
    cases hread.1

/-! ## The parts of the two encodings -/

/-- Both languages write an optional hash the same way. -/
theorem optionalHash_bytes {h : Option String} (hhex : ∀ t ∈ h, IsHex t) :
    ∃ x, encOptionalHash h = .ok x ∧
      ∀ path, Go.encOptionalHash path (h.getD "") = .ok x := by
  cases h with
  | none => exact ⟨_, rfl, fun _ => rfl⟩
  | some t =>
      have hne : t ≠ "" := by
        intro heq
        subst heq
        cases (hhex "" rfl).1
      obtain ⟨body, hts, hgo⟩ := hash_bytes (hhex t rfl)
      refine ⟨encBool true ++ body, ?_, ?_⟩
      · exact except_bind_eq_ok.mpr ⟨body, hts, rfl⟩
      · intro path
        rw [Option.getD_some, Go.encOptionalHash, if_neg hne]
        exact except_bind_eq_ok.mpr ⟨body, hgo path, rfl⟩

/-- Lists are written alike when their entries are. -/
theorem array_bytes {α : Type} {enc : α → Encoded} {enc' : α → Except String (List UInt8)}
    {items : List α} (h : ∀ a ∈ items, ∃ x, enc a = .ok x ∧ enc' a = .ok x) :
    ∃ x, encArray enc items = .ok x ∧ Go.encArray enc' items = .ok x := by
  obtain ⟨parts, hparts⟩ := exists_forall₂ h
  refine ⟨_, encArray_eq_ok.mpr ⟨_, parts, rfl, hparts.imp fun _ _ hx => hx.1, rfl⟩, ?_⟩
  exact Go.encArray_eq_ok.mpr ⟨_, parts, rfl, hparts.imp fun _ _ hx => hx.2, rfl⟩

theorem refs_bytes {refs : List String} (hhex : ∀ t ∈ refs, IsHex t) (path : String) :
    ∃ x, encArrayBytes32 refs = .ok x ∧ Go.encArrayBytes32 path refs = .ok x := by
  refine array_bytes ?_
  intro t ht
  obtain ⟨x, hts, hgo⟩ := hash_bytes (hhex t ht)
  exact ⟨x, hts, hgo path⟩

theorem prior_bytes {prior : Option String} (hhex : ∀ t ∈ prior, IsHex t) :
    ∃ x, encOptionalHash prior = .ok x ∧ Go.encPriorHash prior = .ok x := by
  obtain ⟨x, hts, hgo⟩ := optionalHash_bytes hhex
  refine ⟨x, hts, ?_⟩
  cases prior with
  | none => exact hgo ""
  | some t => exact hgo _

/-- The low 32 bits of a number, however it is held. -/
theorem encU32Int_natCast (n : Nat) : Go.encU32Int n = Cards.encodeU32LE n := by
  rw [Go.encU32Int, ← encodeU32LE_mod n]
  rfl

/-- Both languages write a concealed card the same way. -/
theorem card_bytes (h : CardTexts IsHex EndsInHex c) :
    ∃ x, encConcealedCard c = .ok x ∧ Go.encConcealedCard c = .ok x := by
  obtain ⟨commitment, hcommit, hcommit'⟩ := hash_bytes h.cardCommitment
  obtain ⟨nonce, hnonce, hnonce'⟩ := hash_bytes h.cardNonce
  obtain ⟨holderTail, hholder, hholder'⟩ := key_bytes h.holderPubkey
  refine ⟨_, encConcealedCard_eq_ok.mpr ⟨⟨commitment, nonce, holderTail⟩,
    ⟨hcommit, hnonce, hholder⟩, rfl⟩, ?_⟩
  exact Go.encConcealedCard_eq_ok.mpr ⟨⟨commitment, nonce, holderTail⟩,
    ⟨hcommit' _, hnonce' _, hholder' _⟩, rfl⟩

theorem deck_bytes {deck : Option (List ConcealedCard)}
    (h : ∀ cards ∈ deck, ∀ c ∈ cards, CardTexts IsHex EndsInHex c) :
    ∃ x, encOptionalConcealedDeck deck = .ok x ∧
      Go.encOptionalConcealedDeck deck = .ok x := by
  cases deck with
  | none => exact ⟨_, rfl, rfl⟩
  | some cards =>
      obtain ⟨body, hts, hgo⟩ := array_bytes fun c hc => card_bytes (h cards rfl c hc)
      refine ⟨encBool true ++ body, ?_, ?_⟩
      · exact except_bind_eq_ok.mpr ⟨body, hts, rfl⟩
      · exact except_bind_eq_ok.mpr ⟨body, hgo, rfl⟩

/-- A player has the same parts in both languages. -/
theorem player_parts (h : p.Texts IsHex IsHex EndsInHex) : ∃ w, p.Parts w ∧ p.toGo.Parts w := by
  obtain ⟨playerId, hid, hid'⟩ := hash_bytes h.playerId
  obtain ⟨pubkeyTail, htail, htail'⟩ := key_bytes h.valueSigningPubkey
  obtain ⟨commitment, hcommit, hcommit'⟩ := optionalHash_bytes h.entropyCommitmentHash
  obtain ⟨entropy, hentropy, hentropy'⟩ := optionalHash_bytes h.entropyValue
  exact ⟨⟨playerId, pubkeyTail, commitment, entropy⟩, ⟨hid, htail, hcommit, hentropy⟩,
    ⟨hid' _, htail' _, hcommit' _, hentropy' _⟩⟩

/-- A state has the same parts in both languages, its players aside. -/
theorem state_parts (h : s.AllHex) {players players' : List UInt8}
    (hplayers : encArray encPlayer s.players = .ok players)
    (hplayers' : Go.encArray Go.encPlayer s.toGo.players = .ok players') :
    ∃ w : StateParts, s.Parts { w with players := players } ∧
      s.toGo.Parts { w with players := players' } := by
  obtain ⟨gameId, hgame, hgame'⟩ := hash_bytes h.gameId
  obtain ⟨ruleHash, hrules, hrules'⟩ := hash_bytes h.ruleSetHash
  obtain ⟨hiddenRefs, hhidden, hhidden'⟩ :=
    refs_bytes h.hiddenCommitmentRefs "EncodeRoundState: hidden_commitment_refs"
  obtain ⟨successorRefs, hsuccessors, hsuccessors'⟩ :=
    refs_bytes h.successorTemplateHashes "EncodeRoundState: successor_template_hashes"
  obtain ⟨combined, hcombined, hcombined'⟩ := optionalHash_bytes h.combinedEntropy
  obtain ⟨deckHash, hdeck, hdeck'⟩ := optionalHash_bytes h.deckCommitmentHash
  obtain ⟨concealed, hconcealed, hconcealed'⟩ := deck_bytes h.concealedDeck
  obtain ⟨prior, hprior, hprior'⟩ := prior_bytes h.priorStateHash
  exact ⟨⟨players, gameId, ruleHash, hiddenRefs, successorRefs, combined, deckHash, concealed,
    prior⟩, ⟨hplayers, hgame, hrules, hhidden, hsuccessors, hcombined, hdeck, hconcealed, hprior⟩,
    ⟨hplayers', hgame' _, hrules' _, hhidden', hsuccessors', hcombined' _, hdeck' _,
      hconcealed', hprior'⟩⟩

/-! ## The two layouts -/

theorem encBool_toGo (b : Bool) : Go.encBool b = encBool b := by
  cases b with
  | false => rfl
  | true => rfl

theorem encString_toGo (t : String) : Go.encString t = encString t := rfl

theorem arrayString_toGo (texts : List String) :
    Go.encArrayString texts = encArrayString texts := rfl

theorem optionalString_toGo (t : Option String) :
    Go.encOptionalString (t.getD "") = encOptionalString t := by
  cases t with
  | none => rfl
  | some t => rfl

theorem optionalSeat_toGo (n : Option SafeNat) :
    Go.encOptionalSeatPtr (n.map fun seat => (seat.val : Int)) = encOptionalSeat n := by
  cases n with
  | none => rfl
  | some n =>
      rw [Option.map_some, Go.encOptionalSeatPtr, encU32Int_natCast]
      rfl

theorem optionalU32_toGo (n : Option SafeNat) :
    Go.encOptionalU32Ptr (n.map uint32) = encOptionalU32 n := by
  cases n with
  | none => rfl
  | some n =>
      have hlow : Cards.encodeU32LE (uint32 n).toNat = Cards.encodeU32LE n.val := by
        rw [uint32, UInt32.toNat_ofNat', encodeU32LE_mod]
      rw [Option.map_some, Go.encOptionalU32Ptr, hlow]
      rfl

/-- A state is laid out the same way around the same parts. -/
theorem layout_toGo (w : StateParts) : s.toGo.layout w = s.layout w := by
  unfold Go.RoundState.layout RoundState.layout
  simp only [RoundState.toGo, optionalSeat_toGo, optionalU32_toGo, uint64_toNat,
    encU32Int_natCast]
  rfl

/-- A player too, but for the preferences. -/
theorem playerLayout_toGo (w : PlayerParts) :
    ∃ head, p.layout w = head ++ encPreferences p.defaultPreferences ∧
      p.toGo.layout w = head ++ Go.encPreferences p.defaultPreferences := by
  refine ⟨_, rfl, ?_⟩
  unfold Go.PlayerState.layout
  simp only [PlayerState.toGo, encBool_toGo, encString_toGo, arrayString_toGo,
    optionalString_toGo, uint64_toNat, encU32Int_natCast]

/-! ## The order of the preferences -/

/-- A character is read back from its code units: a surrogate is no
character. -/
theorem delimits_charUnits : Delimits (fun c x => x = charUnits c) Eq := by
  intro c d x y r s hx hy heq
  have hc := c.valid
  have hd := d.valid
  simp only [UInt32.isValidChar, Nat.isValidChar] at hc hd
  change c.toNat < 55296 ∨ 57343 < c.toNat ∧ c.toNat < 1114112 at hc
  change d.toNat < 55296 ∨ 57343 < d.toNat ∧ d.toNat < 1114112 at hd
  have hchar : c.toNat = d.toNat → c = d := fun h => Char.toNat_inj.mp h
  rw [hx, hy] at heq
  unfold charUnits at heq
  -- one unit or two; the first of two is a surrogate, which no character is
  by_cases hcs : c.toNat < 65536
  · rw [if_pos hcs] at heq
    by_cases hds : d.toNat < 65536
    · rw [if_pos hds] at heq
      obtain ⟨hunit, hrest⟩ := List.cons.inj heq
      exact ⟨hchar hunit, hrest⟩
    · rw [if_neg hds] at heq
      have hunit := (List.cons.inj heq).1
      omega
  · rw [if_neg hcs] at heq
    by_cases hds : d.toNat < 65536
    · rw [if_pos hds] at heq
      have hunit := (List.cons.inj heq).1
      omega
    · rw [if_neg hds] at heq
      obtain ⟨hhigh, heq⟩ := List.cons.inj heq
      obtain ⟨hlow, hrest⟩ := List.cons.inj heq
      exact ⟨hchar (by omega), hrest⟩

/-- Code units tell strings apart. -/
theorem codeUnits_inj {t u : String} : codeUnits t = codeUnits u ↔ t = u := by
  constructor
  · intro h
    have hparts : ∀ cs : List Char,
        List.Forall₂ (fun c x => x = charUnits c) cs (cs.map charUnits) := by
      intro cs
      rw [List.forall₂_map_right_iff, List.forall₂_same]
      exact fun _ _ => rfl
    have hne : ∀ c x, x = charUnits c → x ≠ [] := by
      intro c _ heq
      subst heq
      unfold charUnits
      split
      · exact List.cons_ne_nil _ _
      · exact List.cons_ne_nil _ _
    -- no character is written as nothing, so no count is needed
    have hchars := delimits_charUnits.concat hne (hparts t.toList) (hparts u.toList)
      (by simpa only [codeUnits, List.flatMap_def] using h)
    exact String.toList_inj.mp (List.forall₂_eq_eq_eq ▸ hchars)
  · intro hx
    subst hx
    rfl

/-- The keys stand in the same order by code units and by bytes. -/
def SameOrder (prefs : List (String × String)) : Prop :=
  ∀ a ∈ prefs, ∀ b ∈ prefs, codeUnits a.1 ≤ codeUnits b.1 ↔ a.1 ≤ b.1

/-- JavaScript's order on the keys of entries, and Go's. -/
abbrev unitsLe (a b : String × String) : Prop := decide (codeUnits a.1 ≤ codeUnits b.1) = true

abbrev bytesLe (a b : String × String) : Prop := decide (a.1 ≤ b.1) = true

instance : Std.Total unitsLe where
  total a b := by
    simpa only [decide_eq_true_eq] using le_total (codeUnits a.1) (codeUnits b.1)

instance : IsTrans (String × String) unitsLe where
  trans a b c := by
    simpa only [decide_eq_true_eq] using le_trans

instance : Std.Total bytesLe where
  total a b := by
    simpa only [decide_eq_true_eq] using le_total a.1 b.1

instance : IsTrans (String × String) bytesLe where
  trans a b c := by
    simpa only [decide_eq_true_eq] using le_trans

/-- Only equal keys tie, in either order. -/
theorem ties_iff (a b : String × String) :
    unitsLe a b ∧ unitsLe b a ↔ bytesLe a b ∧ bytesLe b a := by
  simp only [decide_eq_true_eq, ← le_antisymm_iff, codeUnits_inj]

/-- **Preferences are written alike exactly when their keys stand in the
same order.** -/
theorem preferences_eq_iff {prefs : List (String × String)} (hfits : FitsEntries prefs) :
    Go.encPreferences prefs = encPreferences prefs ↔ SameOrder prefs := by
  have hsort : sortPreferences prefs = List.insertionSort bytesLe prefs ↔ SameOrder prefs := by
    change List.insertionSort unitsLe prefs = List.insertionSort bytesLe prefs ↔ _
    rw [insertionSort_eq_iff ties_iff]
    simp only [decide_eq_true_eq, SameOrder]
  rw [← hsort]
  constructor
  · intro h
    have hts : FitsEntries (sortPreferences prefs) := hfits.perm (sortPreferences_perm prefs)
    have hgo : FitsEntries (List.insertionSort bytesLe prefs) :=
      hfits.perm (List.perm_insertionSort ..)
    exact delimits_entries.injective ⟨hts, rfl⟩ ⟨hgo, h.symm⟩
  · intro h
    rw [encPreferences, h]
    rfl

/-- In whatever order, the entries take as many bytes. -/
theorem length_encPreferences (prefs : List (String × String)) :
    (encPreferences prefs).length = (Go.encPreferences prefs).length := by
  have hts : (sortPreferences prefs).Perm prefs := sortPreferences_perm prefs
  have hgo : (List.insertionSort bytesLe prefs).Perm prefs := List.perm_insertionSort ..
  have hperm := hts.trans hgo.symm
  have hentries := (hperm.flatMap_right encEntry).length_eq
  change (_ ++ (sortPreferences prefs).flatMap encEntry).length =
    (_ ++ (List.insertionSort bytesLe prefs).flatMap encEntry).length
  rw [List.length_append, List.length_append, hentries, hperm.length_eq]

/-! ## Players -/

/-- A hex player is written twice, in as many bytes, and in the same ones
exactly when the preferences stand in the same order. -/
theorem player_bytes (h : p.Texts IsHex IsHex EndsInHex)
    (hfits : FitsEntries p.defaultPreferences) :
    ∃ x y, encPlayer p = .ok x ∧ Go.encPlayer p.toGo = .ok y ∧ x.length = y.length ∧
      (x = y ↔ SameOrder p.defaultPreferences) := by
  obtain ⟨w, hts, hgo⟩ := player_parts h
  obtain ⟨head, hlayout, hlayout'⟩ := @playerLayout_toGo p w
  refine ⟨_, _, encPlayer_eq_ok.mpr ⟨w, hts, rfl⟩, Go.encPlayer_eq_ok.mpr ⟨w, hgo, rfl⟩, ?_, ?_⟩
  · rw [hlayout, hlayout', List.length_append, List.length_append, length_encPreferences]
  · rw [hlayout, hlayout', List.append_cancel_left_eq, eq_comm]
    exact preferences_eq_iff hfits

/-- All players, one after another. -/
theorem playerList_bytes {players : List PlayerState}
    (h : ∀ p ∈ players, p.Texts IsHex IsHex EndsInHex)
    (hfits : ∀ p ∈ players, FitsEntries p.defaultPreferences) :
    ∃ xs ys, List.Forall₂ (fun p x => encPlayer p = .ok x) players xs ∧
      List.Forall₂ (fun q y => Go.encPlayer q = .ok y) (players.map PlayerState.toGo) ys ∧
      (xs.flatten = ys.flatten ↔ ∀ p ∈ players, SameOrder p.defaultPreferences) := by
  induction players with
  | nil => exact ⟨[], [], .nil, .nil, by simp⟩
  | cons p players ih =>
      obtain ⟨hp, hplayers⟩ := List.forall_mem_cons.mp h
      obtain ⟨hpfits, hfits⟩ := List.forall_mem_cons.mp hfits
      obtain ⟨x, y, hx, hy, hlen, hsame⟩ := player_bytes hp hpfits
      obtain ⟨xs, ys, hxs, hys, hall⟩ := ih hplayers hfits
      refine ⟨x :: xs, y :: ys, .cons hx hxs, .cons hy hys, ?_⟩
      rw [List.forall_mem_cons, ← hsame, ← hall, List.flatten_cons, List.flatten_cons]
      -- codes of one length: the list is equal where the entries are
      constructor
      · exact fun heq => List.append_inj heq hlen
      · intro heq
        rw [heq.1, heq.2]

/-- **The two encodings of a hex state** exist, and are equal exactly
when every player's preferences stand in the same order. -/
theorem state_bytes (h : s.AllHex) (hfits : ∀ p ∈ s.players, FitsEntries p.defaultPreferences) :
    ∃ x y, encodeRoundState s = .ok x ∧ Go.encodeRoundState s.toGo = .ok y ∧
      (x = y ↔ ∀ p ∈ s.players, SameOrder p.defaultPreferences) := by
  obtain ⟨xs, ys, hxs, hys, hsame⟩ := playerList_bytes h.players hfits
  have hcount : s.toGo.players.length = s.players.length := List.length_map ..
  obtain ⟨w, hts, hgo⟩ := state_parts h (encArray_eq_ok.mpr ⟨_, xs, rfl, hxs, rfl⟩)
    (Go.encArray_eq_ok.mpr ⟨_, ys, rfl, hys, rfl⟩)
  refine ⟨_, _, encodeRoundState_eq_ok.mpr ⟨_, hts, rfl⟩,
    Go.encodeRoundState_eq_ok.mpr ⟨_, hgo, rfl⟩, ?_⟩
  rw [layout_toGo, ← hsame, hcount]
  -- the players are the one part that can differ
  unfold RoundState.layout
  simp only [List.append_cancel_right_eq, List.append_cancel_left_eq]

end Ts

/-! ## Agreement -/

/-- The same value, or a failure on both sides. -/
def SameOutcome {ε δ α : Type} : Except ε α → Except δ α → Prop
  | .ok a, .ok b => a = b
  | .error _, .error _ => True
  | _, _ => False

section SameOutcome

variable {ε δ α : Type} {x : Except ε α} {y : Except δ α}

theorem SameOutcome.cases (h : SameOutcome x y) :
    (∃ a, x = .ok a ∧ y = .ok a) ∨ ∃ e f, x = .error e ∧ y = .error f := by
  cases x with
  | ok a =>
      cases y with
      | ok b => exact .inl ⟨a, rfl, congrArg Except.ok h.symm⟩
      | error f => exact h.elim
  | error e =>
      cases y with
      | ok b => exact h.elim
      | error f => exact .inr ⟨e, f, rfl, rfl⟩

theorem SameOutcome.ok_iff (h : SameOutcome x y) : (∃ a, x = .ok a) ↔ ∃ b, y = .ok b := by
  obtain ⟨a, rfl, rfl⟩ | ⟨e, f, rfl, rfl⟩ := h.cases
  · simp
  · simp

theorem SameOutcome.toOption_eq (h : SameOutcome x y) : x.toOption = y.toOption := by
  obtain ⟨a, rfl, rfl⟩ | ⟨e, f, rfl, rfl⟩ := h.cases
  · rfl
  · rfl

/-- What is computed from the same outcomes is the same. -/
theorem SameOutcome.bind_pure {β : Type} (h : SameOutcome x y) (f : α → β) :
    SameOutcome (x >>= fun a => pure (f a)) (y >>= fun a => pure (f a)) := by
  obtain ⟨a, rfl, rfl⟩ | ⟨e, f', rfl, rfl⟩ := h.cases
  · exact rfl
  · trivial

theorem sameOutcome_of_fail (hx : ¬∃ a, x = .ok a) (hy : ¬∃ b, y = .ok b) : SameOutcome x y := by
  cases x with
  | ok a => exact absurd ⟨a, rfl⟩ hx
  | error e =>
      cases y with
      | ok b => exact absurd ⟨b, rfl⟩ hy
      | error f => trivial

end SameOutcome

/-- The encoders agree on a state and on its Go counterpart, in bytes and
in the hash of these. -/
def EncodersAgree (s : Ts.RoundState) : Prop :=
  SameOutcome (Ts.encodeRoundState s) (Go.encodeRoundState s.toGo) ∧
    SameOutcome (Ts.computeStateHash s) (Go.computeStateHash s.toGo)

/-- A state without the texts on which the languages differ: what either
of them reads as hex is hex, and then the preferences are sorted alike. -/
structure Portable (s : Ts.RoundState) : Prop where
  hex : s.HexFields ∨ s.toGo.HexFields → s.AllHex
  order : s.AllHex → ∀ p ∈ s.players, Ts.SameOrder p.defaultPreferences

/-- The hashes agree where the bytes do. -/
theorem encodersAgree_iff {s : Ts.RoundState} :
    EncodersAgree s ↔ SameOutcome (Ts.encodeRoundState s) (Go.encodeRoundState s.toGo) := by
  constructor
  · exact fun h => h.1
  · exact fun h => ⟨h, h.bind_pure fun bytes => Hex.encode (Sha256.sha256 bytes)⟩

/-- **The two encoders agree on exactly the portable states.** -/
theorem encoders_agree_iff {s : Ts.RoundState}
    (hfits : ∀ p ∈ s.players, Ts.FitsEntries p.defaultPreferences) :
    EncodersAgree s ↔ Portable s := by
  rw [encodersAgree_iff]
  by_cases hhex : s.AllHex
  · -- both encode, and it is the order that counts
    obtain ⟨x, y, hx, hy, hsame⟩ := Ts.state_bytes hhex hfits
    rw [hx, hy]
    constructor
    · exact fun h => ⟨fun _ => hhex, fun _ => hsame.mp h⟩
    · exact fun h => hsame.mpr (h.order hhex)
  · -- one of them fails, and they agree when both do
    constructor
    · intro h
      have hreads : s.HexFields ↔ s.toGo.HexFields := by
        rw [← Ts.encodes_iff, ← Go.encodes_iff]
        exact h.ok_iff
      refine ⟨?_, fun hall => absurd hall hhex⟩
      intro heither
      rw [hreads, or_self] at heither
      exact Ts.allHex_iff.mpr ⟨hreads.mpr heither, heither⟩
    · intro h
      refine sameOutcome_of_fail ?_ ?_
      · rw [Ts.encodes_iff]
        exact fun hts => hhex (h.hex (.inl hts))
      · rw [Go.encodes_iff]
        exact fun hgo => hhex (h.hex (.inr hgo))

/-- A player with two preferences, under a private-use character and
under one beyond the first plane: the latter has the greater bytes and
the smaller code units. -/
def keyedState : Ts.RoundState :=
  let keys := [String.ofList [Char.ofNat 0xE000], String.ofList [Char.ofNat 0x1F600]]
  { Ts.parityState '2' 0 with
    players := [{ Ts.parityPlayer '2' with
      defaultPreferences := keys.map fun key => (key, "fold") }] }

theorem keyedState_fits : ∀ p ∈ keyedState.players, Ts.FitsEntries p.defaultPreferences := by
  intro p hp
  rw [List.mem_singleton.mp hp]
  exact ⟨by decide, by decide⟩

theorem encoders_agree_sample : EncodersAgree keyedState ↔ Portable keyedState :=
  encoders_agree_iff keyedState_fits

/-- Both languages write this player, each in its own order. -/
theorem keys_reordered :
    ¬∀ s : Ts.RoundState, (∀ p ∈ s.players, Ts.FitsEntries p.defaultPreferences) →
      EncodersAgree s := by
  intro hclaim
  have hagree := (hclaim keyedState keyedState_fits).1
  have hdiffer : (Ts.encodeRoundState keyedState).toOption ≠
      (Go.encodeRoundState keyedState.toGo).toOption := by
    decide +kernel
  exact hdiffer hagree.toOption_eq

end CardTable
