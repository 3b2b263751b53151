import CardTable.Ts.Serialise
import Mathlib.Data.String.Basic

/-!
# Ts.Canonical — what the canonical encoding keeps

Two well-formed states with one encoding are the same state, but for two
things the encoder leaves out on purpose: a state's own hash, and the
parity byte of the public keys, of which it writes the 32 bytes that
follow. Preferences are a map, so their order is not part of a state.

The argument goes through the encoding from left to right: every field
code delimits itself (`Basis.Codec`), so equal encodings have equal
fields.
-/

namespace CardTable.Ts

open Basis Basis.Codec Basis.Sha256 Cards

/-! ## Texts -/

/-- A string that can be written: its length fits the varint. -/
def IsString (t : String) (x : List UInt8) : Prop :=
  t.utf8ByteSize < 18446744073709551616 ∧ x = encString t

theorem delimits_string : Delimits IsString Eq := by
  intro t u _ _ r s h hx heq
  obtain ⟨ht, rfl⟩ := h
  obtain ⟨hu, rfl⟩ := hx
  simp only [encString, List.append_assoc] at heq
  obtain ⟨hsize, heq⟩ := delimits_varint ⟨ht, rfl⟩ ⟨hu, rfl⟩ heq
  -- equal lengths, so the bytes are cut at the same place
  obtain ⟨hbytes, hrest⟩ := List.append_inj heq (by simpa using hsize)
  refine ⟨?_, hrest⟩
  apply String.toByteArray_inj.mp
  apply ByteArray.ext
  exact Array.toList_inj.mp hbytes

/-- A hash and its 32 bytes. -/
def IsHash (h : String) (x : List UInt8) : Prop :=
  isHex64 h = true ∧ encBytes32Hex h = .ok x

/-- The bytes of a hash are as many as they should be, and write it. -/
theorem IsHash.bytes {h : String} {x : List UInt8} (hx : IsHash h x) :
    x.length = 32 ∧ Hex.encode x = h := by
  obtain ⟨hhex, hencoded⟩ := hx
  obtain ⟨bytes, hdecode, hlen⟩ := decodes_of_isHex64 hhex
  have hread : fromHexUnits 0 (codeUnits h) = .ok bytes := fromHexUnits_of_decodeChars hdecode 0
  rw [encBytes32Hex, encBytes32Units_eq_ok, hread] at hencoded
  cases hencoded.2
  simp only [isHex64, Bool.and_eq_true, List.all_eq_true] at hhex
  refine ⟨hlen, ?_⟩
  rw [Hex.encode, Hex.encodeChars_of_decodeChars hdecode hhex.2, String.ofList_toList]

/-- A list of strings. -/
def FitsList (texts : List String) : Prop :=
  texts.length < 18446744073709551616 ∧ ∀ t ∈ texts, t.utf8ByteSize < 18446744073709551616

/-- A list written without a loop that can fail. -/
theorem counted_flatMap {α : Type} {E : α → List UInt8 → Prop} {enc : α → List UInt8}
    {items : List α} (hlen : items.length < 18446744073709551616)
    (henc : ∀ a ∈ items, E a (enc a)) :
    Counted IsVarint E items (encodeVarint items.length ++ items.flatMap enc) := by
  refine ⟨_, items.map enc, ⟨hlen, rfl⟩, ?_, rfl⟩
  rw [List.forall₂_map_right_iff, List.forall₂_same]
  exact henc

/-- Entries that can be written. -/
def FitsEntries (entries : List (String × String)) : Prop :=
  entries.length < 18446744073709551616 ∧
    ∀ kv ∈ entries, kv.1.utf8ByteSize < 18446744073709551616 ∧
      kv.2.utf8ByteSize < 18446744073709551616

theorem FitsEntries.perm {entries entries' : List (String × String)}
    (h : FitsEntries entries) (hperm : entries'.Perm entries) : FitsEntries entries' := by
  refine ⟨?_, fun kv hkv => h.2 kv (hperm.mem_iff.mp hkv)⟩
  rw [hperm.length_eq]
  exact h.1

theorem sortPreferences_perm (prefs : List (String × String)) :
    (sortPreferences prefs).Perm prefs := List.perm_insertionSort ..

def encEntry (kv : String × String) : List UInt8 := encString kv.1 ++ encString kv.2

/-- Entries one after another, key and value. -/
theorem delimits_entries :
    Delimits (fun entries x => FitsEntries entries ∧
      x = encodeVarint entries.length ++ entries.flatMap encEntry) Eq := by
  have hentry : Delimits (fun (kv : String × String) x =>
      (kv.1.utf8ByteSize < 18446744073709551616 ∧ kv.2.utf8ByteSize < 18446744073709551616) ∧
        x = encEntry kv) Eq := by
    intro kv kv' x y r s hx hy heq
    rw [hx.2, hy.2] at heq
    simp only [encEntry, List.append_assoc] at heq
    obtain ⟨hkey, heq⟩ := delimits_string ⟨hx.1.1, rfl⟩ ⟨hy.1.1, rfl⟩ heq
    obtain ⟨hvalue, hrest⟩ := delimits_string ⟨hx.1.2, rfl⟩ ⟨hy.1.2, rfl⟩ heq
    exact ⟨Prod.ext hkey hvalue, hrest⟩
  refine (delimits_varint.counted_eq hentry).mono ?_ (fun _ _ h => h)
  intro entries x hentries
  obtain ⟨⟨hlen, hsize⟩, rfl⟩ := hentries
  exact counted_flatMap hlen (fun kv hkv => ⟨hsize kv hkv, rfl⟩)

/-- A player that can be written and read back. -/
structure PlayerState.WellFormed (p : PlayerState) : Prop where
  seat : p.seat.val < 4294967296
  playerId : isHex64 p.playerId = true
  valueSigningPubkey : isPubkey33 p.valueSigningPubkey = true
  stakeOutpoint : ∀ t ∈ p.stakeOutpoint, t ≠ "" ∧ t.utf8ByteSize < 18446744073709551616
  entropyCommitmentHash : ∀ h ∈ p.entropyCommitmentHash, isHex64 h = true
  entropyValue : ∀ h ∈ p.entropyValue, isHex64 h = true
  concealedCardRefs : FitsList p.concealedCardRefs
  defaultPreferences : FitsEntries p.defaultPreferences
  preferenceKeys : (p.defaultPreferences.map Prod.fst).Nodup

/-- A concealed card that can be written and read back. -/
structure CardWellFormed (c : ConcealedCard) : Prop where
  position : 0 ≤ c.cardCommitment.position ∧ c.cardCommitment.position < 4294967296
  cardCommitment : isHex64 c.cardCommitment.cardCommitment = true
  cardNonce : isHex64 c.cardCommitment.cardNonce = true
  ciphertext : c.ciphertext.utf8ByteSize < 18446744073709551616
  custodyOutpoint : c.custodyOutpoint.utf8ByteSize < 18446744073709551616
  holderPubkey : isPubkey33 c.holderPubkey = true
  lifecycleState : c.lifecycleState.utf8ByteSize < 18446744073709551616

def suitsInOrder : List String := ["clubs", "diamonds", "hearts", "spades"]

def ranksInOrder : List String :=
  ["2", "3", "4", "5", "6", "7", "8", "9", "10", "J", "Q", "K", "A"]

/-- The face of a 52-card ordinal. -/
def faceOf (ordinal : Int) : String × String :=
  (ranksInOrder.getD (ordinal % 13).toNat "", suitsInOrder.getD (ordinal / 13).toNat "")

/-- `cardFromOrdinal`; its second check never fires. -/
def cardFromOrdinal (ordinal : Int) : Js RevealedCard :=
  if ordinal < 0 ∨ 51 < ordinal then
    .halt s!"cardFromOrdinal: ordinal out of 52-card range: {ordinal}"
  else .ok ⟨(faceOf ordinal).1, (faceOf ordinal).2, ordinal⟩

/-- Face-up cards that show the face their ordinal stands for. `face` is
the table of faces: `faceOf`, or one that also names the jokers of the
54-card deck. -/
def FitsFaces (face : Int → String × String) (cards : List RevealedCard) : Prop :=
  cards.length < 18446744073709551616 ∧
    ∀ c ∈ cards, 0 ≤ c.ordinal ∧ c.ordinal < 256 ∧ (c.rank, c.suit) = face c.ordinal

/-- What `cardFromOrdinal` makes has its face. -/
theorem fits_of_cardFromOrdinal {cards : List RevealedCard}
    (hlen : cards.length < 18446744073709551616)
    (h : ∀ c ∈ cards, cardFromOrdinal c.ordinal = .ok c) : FitsFaces faceOf cards := by
  refine ⟨hlen, ?_⟩
  intro c hc
  have hmade := h c hc
  unfold cardFromOrdinal at hmade
  split at hmade
  · cases hmade
  · injection hmade with hcard
    refine ⟨by omega, by omega, ?_⟩
    rw [Prod.ext_iff]
    exact ⟨congrArg RevealedCard.rank hcard.symm, congrArg RevealedCard.suit hcard.symm⟩

/-- A state that can be written and read back. -/
structure RoundState.WellFormed (face : Int → String × String) (s : RoundState) : Prop where
  gameId : isHex64 s.gameId = true
  ruleSetHash : isHex64 s.ruleSetHash = true
  roundNumber : s.roundNumber.val < 4294967296
  actingPlayerSeat : ∀ n ∈ s.actingPlayerSeat, n.val < 4294967296
  players : s.players.length < 18446744073709551616 ∧ ∀ p ∈ s.players, p.WellFormed
  visibleCards : FitsFaces face s.visibleCards
  hiddenCommitmentRefs : s.hiddenCommitmentRefs.length < 18446744073709551616 ∧
    ∀ h ∈ s.hiddenCommitmentRefs, isHex64 h = true
  allowedActions : s.allowedActions.length < 18446744073709551616
  decisionDeadline : ∀ n ∈ s.decisionDeadlineBlockHeight, n.val < 4294967296
  recoveryDeadline : ∀ n ∈ s.recoveryDeadlineBlockHeight, n.val < 4294967296
  successorTemplateHashes : s.successorTemplateHashes.length < 18446744073709551616 ∧
    ∀ h ∈ s.successorTemplateHashes, isHex64 h = true
  combinedEntropy : ∀ h ∈ s.combinedEntropy, isHex64 h = true
  deckCommitmentHash : ∀ h ∈ s.deckCommitmentHash, isHex64 h = true
  concealedDeck : ∀ cards ∈ s.concealedDeck, cards.length < 18446744073709551616 ∧
    ∀ c ∈ cards, CardWellFormed c
  priorStateHash : ∀ h ∈ s.priorStateHash, isHex64 h = true

/-- A player with the given parity digit in its key. -/
def parityPlayer (parity : Char) : PlayerState := {
  seat := 0
  playerId := String.ofList (List.replicate 64 'c')
  valueSigningPubkey := String.ofList ('0' :: parity :: List.replicate 64 'd')
  participationStatus := .joined
  stakeAtRisk := 1000
  stakeOutpoint := none
  entropyCommitted := false
  entropyCommitmentHash := none
  entropyRevealed := false
  entropyValue := none
  concealedCardRefs := []
  defaultPreferences := [] }

/-- A table with that player alone, and the given pot. -/
def parityState (parity : Char) (pot : SafeNat) : RoundState :=
  { initialState (String.ofList (List.replicate 64 'a')) (String.ofList (List.replicate 64 'b'))
      244 with
    potValue := pot
    visibleCards := [⟨"2", "clubs", 0⟩]
    players := [parityPlayer parity] }

end CardTable.Ts
