import CardTable.Go.TxBuilder
import CardTable.Ts.TxBuilder

/-!
# TxCodec — the two transaction codecs

What `encode.ts` and `encode.go` make of a transaction and of a text. Both
write the canonical bytes and read them back. What they read is not always
canonical: neither looks at the form a length is written in. Go does not
compare a length with what is left of the text before it asks for memory.
-/

namespace CardTable

open Basis Tx

/-! ## There and back -/

/-- The slices of inputs and of outputs that Go can hold. -/
def Go.InMemory (tx : BsvTransaction) : Prop :=
  Go.inputSize * tx.inputs.length ≤ Go.maxAlloc ∧ Go.outputSize * tx.outputs.length ≤ Go.maxAlloc

instance (tx : BsvTransaction) : Decidable (Go.InMemory tx) :=
  inferInstanceAs (Decidable (_ ∧ _))

/-- The lengths of a transaction in memory fit. -/
theorem admits_fits {tx : BsvTransaction} {size : Nat} (hsize : size ≤ Go.maxAlloc)
    (hmem : Go.InMemory tx) : Admits Go.Fits size tx where
  inputs _ := hmem.1
  outputs _ := hmem.2
  script s r hle := by
    have hmax : Go.maxAlloc < 2 ^ 63 := by decide
    show r + s.length < 2 ^ 63
    omega

/-- **Round trip in both languages.** -/
theorem tx_round_trip {tx : BsvTransaction} (htxid : ∀ i ∈ tx.inputs, i.prevTxid.length = 32) :
    ∃ bytes, Ts.encodeBsvTransaction tx = .ok bytes ∧
      (bytes.length < 2 ^ 64 → Go.encodeBsvTransaction tx = .ok bytes) ∧
      (∀ h : bytes.length ≤ maxSafeInteger, Ts.decodeBsvTransaction ⟨bytes, h⟩ = .ok tx) ∧
      ∀ h : bytes.length ≤ Go.maxAlloc, Go.InMemory tx →
        Go.decodeBsvTransaction ⟨bytes, h⟩ = .ok tx := by
  refine ⟨txBytes tx, Ts.encodeBsvTransaction_eq htxid, ?_, ?_, ?_⟩
  · intro hsize
    exact Go.encodeBsvTransaction_eq (bounded_txBytes htxid) hsize
  · intro h
    have hany : Admits (fun _ => True) (txBytes tx).length tx :=
      ⟨fun _ => trivial, fun _ _ _ => trivial, fun _ => trivial⟩
    have hsize : (txBytes tx).length < 256 ^ 8 := Nat.lt_of_le_of_lt h (by decide)
    obtain ⟨hread, -⟩ := transaction_txBytes (bounded_txBytes htxid) hsize hany
    exact Ts.decodeBsvTransaction_eq_ok.mpr ⟨_, hread⟩
  · intro h hmem
    have hsize : (txBytes tx).length < 256 ^ 8 := Nat.lt_of_le_of_lt h (by decide)
    obtain ⟨hread, hfits⟩ := transaction_txBytes (bounded_txBytes htxid) hsize (admits_fits h hmem)
    exact Go.decodeBsvTransaction_eq_ok.mpr ⟨⟨_, hread⟩, hfits⟩

/-- One input with an empty script, one output with two bytes. -/
def sampleTx : BsvTransaction :=
  ⟨2, [⟨List.replicate 32 7, 1, [], 0xffffffff⟩], [⟨546, [0x6a, 0x00]⟩], 0⟩

theorem tx_round_trip_sample : ∃ bytes, Ts.encodeBsvTransaction sampleTx = .ok bytes ∧
    Go.encodeBsvTransaction sampleTx = .ok bytes ∧
    (∃ h, Ts.decodeBsvTransaction ⟨bytes, h⟩ = .ok sampleTx) ∧
    ∃ h, Go.decodeBsvTransaction ⟨bytes, h⟩ = .ok sampleTx := by
  have htxid : ∀ i ∈ sampleTx.inputs, i.prevTxid.length = 32 := by decide
  have hmem : Go.InMemory sampleTx := by decide
  obtain ⟨bytes, hts, hgo, hbackTs, hbackGo⟩ := tx_round_trip htxid
  have hbytes : bytes = txBytes sampleTx :=
    Outcome.ok.inj (hts.symm.trans (Ts.encodeBsvTransaction_eq htxid))
  have hlen : bytes.length = 62 := by
    rw [hbytes]
    rfl
  have hfits : bytes.length ≤ Go.maxAlloc := hlen.le.trans (by decide)
  exact ⟨bytes, hts, hgo (Nat.lt_of_le_of_lt hfits (by decide)),
    ⟨_, hbackTs (Nat.le_trans hfits (by decide))⟩, ⟨hfits, hbackGo hfits hmem⟩⟩

/-! ## What decodes is not always canonical -/

/-- A text that a transaction was read off is its canonical bytes just when
its lengths are in the shortest form. -/
theorem txBytes_eq_iff {text : List UInt8} (hsize : text.length < 256 ^ 8) {tx : BsvTransaction}
    {q : Nat} (h : (transaction text 0).2 = some (tx, q)) :
    txBytes tx = text ↔ ∀ f ∈ lengthFields text, f.Shortest := by
  obtain ⟨hbounded, hback⟩ := transaction_inv (Prod.ext rfl h)
  constructor
  · intro heq
    subst heq
    have hshort : Admits LengthField.Shortest (txBytes tx).length tx :=
      ⟨fun _ => rfl, fun _ _ _ => rfl, fun _ => rfl⟩
    exact (transaction_txBytes hbounded hsize hshort).2
  · intro hall
    exact (hback hall).symm

/-- **What is encoded again to the same bytes**, and has their hash. -/
theorem decoded_canonical_iff {b : List UInt8} {tx : BsvTransaction} :
    (∀ h : b.length ≤ maxSafeInteger, Ts.decodeBsvTransaction ⟨b, h⟩ = .ok tx →
      (Ts.encodeBsvTransaction tx = .ok b ↔ ∀ f ∈ lengthFields b, f.Shortest) ∧
        ((∀ f ∈ lengthFields b, f.Shortest) → Ts.computeTxId tx = .ok (sha256d b))) ∧
    ∀ h : b.length ≤ Go.maxAlloc, Go.decodeBsvTransaction ⟨b, h⟩ = .ok tx →
      (Go.encodeBsvTransaction tx = .ok b ↔ ∀ f ∈ lengthFields b, f.Shortest) ∧
        ((∀ f ∈ lengthFields b, f.Shortest) → Go.computeTxId tx = .ok (sha256d b)) := by
  constructor
  · intro hlen hdecode
    obtain ⟨q, hread⟩ := Ts.decodeBsvTransaction_eq_ok.mp hdecode
    have hsize : b.length < 256 ^ 8 := Nat.lt_of_le_of_lt hlen (by decide)
    obtain ⟨hbounded, -⟩ := transaction_inv (Prod.ext rfl hread)
    have hencode := Ts.encodeBsvTransaction_eq hbounded.prevTxids
    rw [← txBytes_eq_iff hsize hread, Ts.computeTxId, hencode]
    refine ⟨⟨Outcome.ok.inj, congrArg _⟩, fun heq => ?_⟩
    rw [heq]
    rfl
  · intro hlen hdecode
    obtain ⟨⟨q, hread⟩, -⟩ := Go.decodeBsvTransaction_eq_ok.mp hdecode
    have hsize : b.length < 256 ^ 8 := Nat.lt_of_le_of_lt hlen (by decide)
    obtain ⟨hbounded, -⟩ := transaction_inv (Prod.ext rfl hread)
    have hencode := Go.encodeBsvTransaction_eq hbounded hsize
    rw [← txBytes_eq_iff hsize hread, Go.computeTxId, hencode]
    refine ⟨⟨Except.ok.inj, congrArg _⟩, fun heq => ?_⟩
    rw [heq]
    rfl

/-- A transaction with nothing in it, and a text with its count of inputs in
three bytes. -/
def emptyTx : BsvTransaction := ⟨1, [], [], 0⟩

def longCount : List UInt8 := [1, 0, 0, 0, 0xfd, 0, 0, 0, 0, 0, 0, 0]

def shortCount : List UInt8 := [1, 0, 0, 0, 0, 0, 0, 0, 0, 0]

theorem decoded_canonical_sample :
    Ts.decodeBsvTransaction ⟨shortCount, by decide⟩ = .ok emptyTx ∧
      Ts.encodeBsvTransaction emptyTx = .ok shortCount ∧
      Go.encodeBsvTransaction emptyTx = .ok shortCount := by
  have hts : Ts.decodeBsvTransaction ⟨shortCount, by decide⟩ = .ok emptyTx := by rfl
  have hgo : Go.decodeBsvTransaction ⟨shortCount, by decide⟩ = .ok emptyTx := by rfl
  have hshort : ∀ f ∈ lengthFields shortCount, f.Shortest := by decide
  have hcanonTs := (decoded_canonical_iff.1 (by decide) hts).1
  have hcanonGo := (decoded_canonical_iff.2 (by decide) hgo).1
  exact ⟨hts, hcanonTs.mpr hshort, hcanonGo.mpr hshort⟩

/-- Both languages read it, and write other bytes. -/
theorem longCount_not_canonical :
    (Ts.decodeBsvTransaction ⟨longCount, by decide⟩ = .ok emptyTx ∧
        Ts.encodeBsvTransaction emptyTx ≠ .ok longCount) ∧
      Go.decodeBsvTransaction ⟨longCount, by decide⟩ = .ok emptyTx ∧
        Go.encodeBsvTransaction emptyTx ≠ .ok longCount := by
  have hts : Ts.encodeBsvTransaction emptyTx = .ok shortCount := by rfl
  have hgo : Go.encodeBsvTransaction emptyTx = .ok shortCount := by rfl
  have hne : shortCount ≠ longCount := by decide
  rw [hts, hgo]
  exact ⟨⟨by rfl, fun h => hne (Outcome.ok.inj h)⟩, by rfl, fun h => hne (Except.ok.inj h)⟩

/-! ## What panics -/

end CardTable
