import CardTable.Go.CryptoCards
import CardTable.Serialise
import CardTable.Ts.CryptoCards
import Mathlib.Data.Set.Function

/-!
# Domains — what the card cryptography hashes

`packages/crypto-cards` and `pkg/cryptocards` hash in six places. Three of
them write the same type tag, and one hashes a list of any length, so it
is not the tag alone that keeps them apart: `kindOf` reads off the bytes
which of the six wrote them.
-/

namespace CardTable

open Basis Basis.Codec Cards

/-- What `encodeBytes32` lets through. -/
abbrev Bytes32 := { b : List UInt8 // b.length = 32 }

/-- A use of the hash, with its inputs. -/
inductive HashUse where
  | entropyCommitment (entropy playerId gameId : Bytes32)
  | combinedEntropy (entropies : List Bytes32) (nonempty : entropies ≠ [])
  | deckNonce (combined : Bytes32)
  | cardNonce (combined : Bytes32) (position : UInt32)
  | cardCommitment (ordinal : Fin 54) (cardNonce deckNonce : Bytes32)
  | deckCommitment (commitments : List Bytes32)
      (size : commitments.length = 52 ∨ commitments.length = 54)

/-- What `domainHash` feeds to SHA-256. -/
def domainPreimage (typeTag : Nat) (parts : List (List UInt8)) : List UInt8 :=
  encodeU16LE typeTag ++ parts.flatten

namespace HashUse

/-- What is fed to SHA-256. -/
def preimage : HashUse → List UInt8
  | entropyCommitment e p g => domainPreimage tagEntropyCommitment [e.1, p.1, g.1]
  | combinedEntropy es _ =>
      domainPreimage tagDeckCommitment (encodeVarint es.length :: es.map Subtype.val)
  | deckNonce c => encodeU16LE tagDeckCommitment ++ c.1 ++ deckNonceLabel
  | cardNonce c i => encodeU16LE tagCard ++ c.1 ++ cardNonceLabel ++ encodeU32LE i.toNat
  | cardCommitment o cn dn => domainPreimage tagCard [encodeU8 o, cn.1, dn.1]
  | deckCommitment cs _ => domainPreimage tagDeckCommitment (encodeU8 1 :: cs.map Subtype.val)

/-- What the sources compute in this use: both languages, where each has
a function of its own. -/
def Computes : HashUse → List UInt8 → Prop
  | entropyCommitment e p g, h =>
      Ts.commitEntropy e.1 p.1 g.1 = .ok h ∧ Go.commitEntropy e.1 p.1 g.1 = .ok h
  | combinedEntropy es _, h =>
      Ts.combineEntropy (es.map Subtype.val) = .ok h ∧
        Go.combineEntropy (es.map Subtype.val) = .ok h
  | deckNonce c, h => deriveDeckNonce c.1 = h
  | cardNonce c i, h => deriveCardNonce c.1 i.toNat = h
  | cardCommitment o cn dn, h =>
      Ts.commitCard (o : Nat) cn.1 dn.1 = .ok h ∧ Go.commitCard (o : Nat) cn.1 dn.1 = .ok h
  | deckCommitment cs _, h =>
      ∀ combined deck, (deckPositions combined 0 deck).map (·.commitment) =
        cs.map Subtype.val → (commitDeck combined deck).deckCommitmentHash = h

/-- Which of the six it is. -/
def kind : HashUse → Nat
  | entropyCommitment .. => 0
  | combinedEntropy .. => 1
  | deckNonce .. => 2
  | cardNonce .. => 3
  | cardCommitment .. => 4
  | deckCommitment .. => 5

end HashUse

/-! ## The sources hash these bytes -/

theorem forall_length_bytes32 (es : List Bytes32) :
    ∀ e ∈ es.map Subtype.val, e.length = 32 := by
  intro e he
  obtain ⟨b, _, rfl⟩ := List.mem_map.mp he
  exact b.2

/-- `CombineEntropy` on what its checks let through. -/
theorem Go.combineEntropy_of_bytes32 {es : List Bytes32} (hne : es ≠ []) :
    Go.combineEntropy (es.map Subtype.val) = .ok (combinedSeed (es.map Subtype.val)) := by
  have hparts : ∀ i, Go.encodeEntropies i (es.map Subtype.val) = .ok (es.map Subtype.val) := by
    clear hne
    induction es with
    | nil => exact fun _ => rfl
    | cons e es ih =>
        intro i
        simp only [List.map_cons, Go.encodeEntropies, Go.encodeBytes32_eq_ok e.2, ih]
  have hlen : (es.map Subtype.val).length ≠ 0 := by simpa using hne
  rw [Go.combineEntropy, if_neg hlen, hparts 0]

theorem HashUse.computes (u : HashUse) : u.Computes (Sha256.sha256 u.preimage) := by
  cases u with
  | entropyCommitment e p g =>
      exact ⟨Ts.commitEntropy_eq_ok e.2 p.2 g.2, Go.commitEntropy_eq_ok e.2 p.2 g.2⟩
  | combinedEntropy es hne =>
      have hcount : combinedSeed (es.map Subtype.val) =
          Sha256.sha256 (HashUse.combinedEntropy es hne).preimage := by
        rw [combinedSeed, List.length_map]
        rfl
      rw [← hcount]
      exact ⟨Ts.combineEntropy_eq_ok (mt List.map_eq_nil_iff.mp hne) (forall_length_bytes32 es),
        Go.combineEntropy_of_bytes32 hne⟩
  | deckNonce c => rfl
  | cardNonce c i => rfl
  | cardCommitment o cn dn =>
      have hrange : ¬((o : Nat) < (0 : Int) ∨ (53 : Int) < (o : Nat)) := by omega
      exact ⟨Ts.commitCard_eq_ok hrange cn.2 dn.2, Go.commitCard_eq_ok (by omega) cn.2 dn.2⟩
  | deckCommitment cs hsize =>
      intro combined deck hrows
      show domainHash _ (encodeU8 1 :: (deckPositions combined 0 deck).map (·.commitment)) = _
      rw [hrows]
      rfl

/-! ## Which use it was -/

/-- Read the use off the bytes: by the tag and then by the length. A
combined entropy is told from a deck commitment of its length by the
count, which a deck commitment does not have. -/
def kindOf (w : List UInt8) : Nat :=
  if w.head? = some 5 then 0
  else if w.head? = some 8 then if w.length = 48 then 3 else 4
  else if w.length = 44 then 2
  else if (w.length = 1667 ∨ w.length = 1731) ∧ w[2]? = some 1 then 5
  else 1

theorem length_flatten_bytes32 (es : List Bytes32) :
    (es.map Subtype.val).flatten.length = 32 * es.length := by
  induction es with
  | nil => rfl
  | cons e es ih =>
      rw [List.map_cons, List.flatten_cons, List.length_append, ih, e.2, List.length_cons]
      omega

/-- A varint has 1, 3, 5 or 9 bytes, and 1 is its first byte only when it
is the number. -/
theorem varint_width (n : Nat) :
    ((encodeVarint n).length = 1 ∨ (encodeVarint n).length = 3 ∨ (encodeVarint n).length = 5 ∨
      (encodeVarint n).length = 9) ∧
    ∀ rest, (encodeVarint n ++ rest)[0]? = some 1 → n = 1 := by
  unfold encodeVarint
  by_cases h1 : n < 0xfd
  · rw [if_pos h1]
    refine ⟨.inl rfl, fun rest hfirst => ?_⟩
    have hbyte : n % 256 = 1 % 256 := ofNat_inj (Option.some.inj hfirst)
    omega
  · rw [if_neg h1]
    by_cases h2 : n ≤ 0xffff
    · rw [if_pos h2]
      exact ⟨.inr (.inl rfl), fun rest hfirst => by cases hfirst⟩
    · rw [if_neg h2]
      by_cases h3 : n ≤ 0xffffffff
      · rw [if_pos h3]
        exact ⟨.inr (.inr (.inl rfl)), fun rest hfirst => by cases hfirst⟩
      · rw [if_neg h3]
        exact ⟨.inr (.inr (.inr rfl)), fun rest hfirst => by cases hfirst⟩

theorem kindOf_preimage (u : HashUse) : kindOf u.preimage = u.kind := by
  cases u with
  | entropyCommitment e p g => rfl
  | combinedEntropy es hne =>
      obtain ⟨hwidth, hone⟩ := varint_width es.length
      have hlen : (HashUse.combinedEntropy es hne).preimage.length =
          2 + ((encodeVarint es.length).length + 32 * es.length) := by
        rw [HashUse.preimage, domainPreimage, List.length_append, List.flatten_cons,
          List.length_append, length_flatten_bytes32]
        rfl
      have hpos : 0 < es.length := List.length_pos_iff.mpr hne
      have hnot : ¬(((HashUse.combinedEntropy es hne).preimage.length = 1667 ∨
          (HashUse.combinedEntropy es hne).preimage.length = 1731) ∧
            (HashUse.combinedEntropy es hne).preimage[2]? = some 1) := by
        intro hboth
        obtain ⟨hsize, hfirst⟩ := hboth
        have hn : es.length = 1 := hone _ hfirst
        omega
      have hfive : (HashUse.combinedEntropy es hne).preimage.head? ≠ some 5 := by
        show some (7 : UInt8) ≠ some 5
        decide
      have height : (HashUse.combinedEntropy es hne).preimage.head? ≠ some 8 := by
        show some (7 : UInt8) ≠ some 8
        decide
      rw [kindOf, if_neg hfive, if_neg height, if_neg (by omega), if_neg hnot]
      rfl
  | deckNonce c =>
      have hlen : (HashUse.deckNonce c).preimage.length = 44 := by
        simp [HashUse.preimage, c.2, encodeU16LE, deckNonceLabel]
      rw [kindOf, if_pos hlen]
      rfl
  | cardNonce c i =>
      have hlen : (HashUse.cardNonce c i).preimage.length = 48 := by
        simp [HashUse.preimage, c.2, encodeU16LE, cardNonceLabel, encodeU32LE]
      rw [kindOf, if_pos hlen]
      rfl
  | cardCommitment o cn dn =>
      have hlen : (HashUse.cardCommitment o cn dn).preimage.length = 67 := by
        simp [HashUse.preimage, domainPreimage, cn.2, dn.2, encodeU16LE, encodeU8]
      rw [kindOf, if_neg (show ¬(HashUse.cardCommitment o cn dn).preimage.length = 48 by omega)]
      rfl
  | deckCommitment cs hsize =>
      have hlen : (HashUse.deckCommitment cs hsize).preimage.length = 3 + 32 * cs.length := by
        rw [HashUse.preimage, domainPreimage, List.length_append, List.flatten_cons,
          List.length_append, length_flatten_bytes32]
        simp only [encodeU16LE, encodeU8, List.length_cons, List.length_nil]
        omega
      rw [kindOf, if_neg (show ¬(HashUse.deckCommitment cs hsize).preimage.length = 44 by omega)]
      have hboth : ((HashUse.deckCommitment cs hsize).preimage.length = 1667 ∨
          (HashUse.deckCommitment cs hsize).preimage.length = 1731) ∧
            (HashUse.deckCommitment cs hsize).preimage[2]? = some 1 := by
        refine ⟨?_, rfl⟩
        rcases hsize with h | h
        · omega
        · omega
      rw [if_pos hboth]
      rfl

/-! ## The inputs of one use -/

/-- Parts of equal length are told apart. -/
theorem bytes32_append_inj {a b : Bytes32} {x y : List UInt8} (h : a.1 ++ x = b.1 ++ y) :
    a = b ∧ x = y := by
  obtain ⟨hab, hxy⟩ := List.append_inj h (a.2.trans b.2.symm)
  exact ⟨Subtype.ext hab, hxy⟩

theorem flatten_bytes32_inj {es es' : List Bytes32}
    (h : (es.map Subtype.val).flatten = (es'.map Subtype.val).flatten) : es = es' := by
  have hlen := congrArg List.length h
  rw [length_flatten_bytes32, length_flatten_bytes32] at hlen
  induction es generalizing es' with
  | nil =>
      cases es' with
      | nil => rfl
      | cons e' es' => simp at hlen
  | cons e es ih =>
      cases es' with
      | nil => simp at hlen
      | cons e' es' =>
          simp only [List.map_cons, List.flatten_cons] at h
          obtain ⟨rfl, hrest⟩ := bytes32_append_inj h
          rw [ih hrest (by simp only [List.length_cons] at hlen; omega)]

/-- **Bytes hashed twice were hashed in one use of one input.** -/
theorem preimage_injective : Function.Injective HashUse.preimage := by
  intro u v h
  have hkind : u.kind = v.kind := by rw [← kindOf_preimage, ← kindOf_preimage, h]
  cases u with
  | entropyCommitment e p g =>
      cases v with
      | entropyCommitment e' p' g' =>
          simp only [HashUse.preimage, domainPreimage, List.flatten_cons, List.flatten_nil,
            List.append_nil, List.append_cancel_left_eq] at h
          obtain ⟨he, hrest⟩ := bytes32_append_inj h
          obtain ⟨hp, hg⟩ := bytes32_append_inj hrest
          rw [he, hp, Subtype.ext hg]
      | _ => cases hkind
  | combinedEntropy es hne =>
      cases v with
      | combinedEntropy es' hne' =>
          simp only [HashUse.preimage, domainPreimage, List.flatten_cons,
            List.append_cancel_left_eq] at h
          -- the two lengths leave one count
          have hlen := congrArg List.length h
          rw [List.length_append, List.length_append, length_flatten_bytes32,
            length_flatten_bytes32] at hlen
          have hcount : es.length = es'.length := by
            have hwidth := (varint_width es.length).1
            have hwidth' := (varint_width es'.length).1
            omega
          rw [hcount, List.append_cancel_left_eq] at h
          cases flatten_bytes32_inj h
          rfl
      | _ => cases hkind
  | deckNonce c =>
      cases v with
      | deckNonce c' =>
          simp only [HashUse.preimage, List.append_assoc, List.append_cancel_left_eq] at h
          rw [(bytes32_append_inj h).1]
      | _ => cases hkind
  | cardNonce c i =>
      cases v with
      | cardNonce c' i' =>
          simp only [HashUse.preimage, List.append_assoc, List.append_cancel_left_eq] at h
          obtain ⟨hc, hrest⟩ := bytes32_append_inj h
          have hi : i.toNat = i'.toNat := delimits_u32LE.injective ⟨i.toNat_lt, rfl⟩
            ⟨i'.toNat_lt, List.append_cancel_left hrest⟩
          rw [hc, UInt32.toNat_inj.mp hi]
      | _ => cases hkind
  | cardCommitment o cn dn =>
      cases v with
      | cardCommitment o' cn' dn' =>
          simp only [HashUse.preimage, domainPreimage, List.flatten_cons, List.flatten_nil,
            List.append_nil, List.append_cancel_left_eq] at h
          obtain ⟨ho, hrest⟩ := delimits_u8 ⟨by omega, rfl⟩ ⟨by omega, rfl⟩ h
          obtain ⟨hc, hd⟩ := bytes32_append_inj hrest
          rw [Fin.ext ho, hc, Subtype.ext hd]
      | _ => cases hkind
  | deckCommitment cs hsize =>
      cases v with
      | deckCommitment cs' hsize' =>
          simp only [HashUse.preimage, domainPreimage, List.flatten_cons,
            List.append_cancel_left_eq] at h
          cases flatten_bytes32_inj h
          rfl
      | _ => cases hkind

/-- **Domain separation**: no two uses feed SHA-256 the same bytes, nor
does one use on two inputs, and these bytes are what the sources hash. So
the combined entropy tells the list it was made of, its length included,
unless SHA-256 collides on the two. -/
theorem hash_uses_separated :
    Function.Injective HashUse.preimage ∧
      (∀ u : HashUse, u.Computes (Sha256.sha256 u.preimage)) ∧
      ∀ (es es' : List Bytes32) (hne : es ≠ []) (hne' : es' ≠ []) (h : List UInt8),
        Set.InjOn Sha256.sha256 {(HashUse.combinedEntropy es hne).preimage,
          (HashUse.combinedEntropy es' hne').preimage} →
        (Ts.combineEntropy (es.map Subtype.val) = .ok h →
          Ts.combineEntropy (es'.map Subtype.val) = .ok h → es = es') ∧
        (Go.combineEntropy (es.map Subtype.val) = .ok h →
          Go.combineEntropy (es'.map Subtype.val) = .ok h → es = es') := by
  refine ⟨preimage_injective, HashUse.computes, ?_⟩
  intro es es' hne hne' h hinj
  obtain ⟨hts, hgo⟩ := (HashUse.combinedEntropy es hne).computes
  obtain ⟨hts', hgo'⟩ := (HashUse.combinedEntropy es' hne').computes
  have hsame : Sha256.sha256 (HashUse.combinedEntropy es hne).preimage =
      Sha256.sha256 (HashUse.combinedEntropy es' hne').preimage → es = es' := by
    intro hdigest
    exact HashUse.combinedEntropy.inj (preimage_injective (hinj (.inl rfl) (.inr rfl) hdigest))
  constructor
  · intro h1 h2
    exact hsame (Outcome.ok.inj ((hts.symm.trans h1).trans (h2.symm.trans hts')))
  · intro h1 h2
    exact hsame (Except.ok.inj ((hgo.symm.trans h1).trans (h2.symm.trans hgo')))

/-- One entropy of zeros and two of them are combined to different seeds. -/
theorem hash_uses_separated_sample :
    let zeros : Bytes32 := ⟨List.replicate 32 0, rfl⟩
    ∀ h, Ts.combineEntropy [zeros.1] = .ok h → Ts.combineEntropy [zeros.1, zeros.1] ≠ .ok h := by
  intro zeros h h1 h2
  have hdiffer : Sha256.sha256 (HashUse.combinedEntropy [zeros] (by simp)).preimage ≠
      Sha256.sha256 (HashUse.combinedEntropy [zeros, zeros] (by simp)).preimage := by
    decide +kernel
  have hinj : Set.InjOn Sha256.sha256 {(HashUse.combinedEntropy [zeros] (by simp)).preimage,
      (HashUse.combinedEntropy [zeros, zeros] (by simp)).preimage} := by
    intro x hx y hy hxy
    rcases hx with rfl | rfl
    · rcases hy with rfl | rfl
      · rfl
      · exact absurd hxy hdiffer
    · rcases hy with rfl | rfl
      · exact absurd hxy.symm hdiffer
      · rfl
  have hsame := (hash_uses_separated.2.2 [zeros] [zeros, zeros] _ _ h hinj).1 h1 h2
  simp at hsame

end CardTable
