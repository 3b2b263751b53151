import CardTable.Go.TxBuilder
import CardTable.Sighash

/-!
# Go.Sighash — `ComputeSighash` in Go

`apps/relay-go/pkg/txbuilder/sighash.go`.
-/

namespace CardTable.Go

open Basis Tx

def hashPrevouts (tx : BsvTransaction) (hashType : UInt32) : List UInt8 :=
  if hashType &&& sighashAnyoneCanPay ≠ 0 then zero32
  else sha256d (tx.inputs.flatMap fun i => i.prevTxid ++ encU32LE i.prevVout)

def hashSequence (tx : BsvTransaction) (hashType : UInt32) : List UInt8 :=
  if hashType &&& sighashAnyoneCanPay ≠ 0 then zero32
  else if IsBaseSighash hashType sighashNone ∨ IsBaseSighash hashType sighashSingle then zero32
  else sha256d (tx.inputs.flatMap fun i => encU32LE i.sequence)

/-- The parts of an output are those of `EncodeBsvTransaction`. -/
def hashOutputs (tx : BsvTransaction) (inputIdx : Nat) (hashType : UInt32) : List UInt8 :=
  if IsBaseSighash hashType sighashAll then sha256d (tx.outputs.flatMap encodeOutput)
  else if IsBaseSighash hashType sighashSingle then
    if h : inputIdx < tx.outputs.length then sha256d (encodeOutput (tx.outputs.get ⟨inputIdx, h⟩))
    else zero32
  else zero32

/-- `ComputeSighash`. -/
def computeSighash (s : SighashInputs) : Except String (List UInt8) :=
  if s.hashType &&& sighashForkID = 0 then .error "ComputeSighash: BSV requires SIGHASH_FORKID"
  else if h : s.inputIdx < 0 ∨ s.tx.inputs.length ≤ s.inputIdx then
    let inputIdx := s.inputIdx
    .error s!"ComputeSighash: input index {inputIdx} out of range"
  else
    let i := s.tx.inputs.get ⟨s.inputIdx.toNat, inputIdx_lt h⟩
    .ok (sha256d (encI32LE s.tx.version ++ hashPrevouts s.tx s.hashType ++
      hashSequence s.tx s.hashType ++ i.prevTxid ++ encU32LE i.prevVout ++
      encVarint (UInt64.ofNat s.prevScript.length) ++ s.prevScript ++ encU64LE s.prevValue ++
      encU32LE i.sequence ++ hashOutputs s.tx s.inputIdx.toNat s.hashType ++
      encU32LE s.tx.lockTime ++ encU32LE s.hashType))

/-! ## The digest -/

theorem hashPrevouts_eq (tx : BsvTransaction) (hashType : UInt32) :
    hashPrevouts tx hashType = prevoutsHash tx hashType := by
  rw [hashPrevouts, prevoutsHash, prevouts, List.flatMap_map]
  rfl

theorem hashSequence_eq (tx : BsvTransaction) (hashType : UInt32) :
    hashSequence tx hashType = sequencesHash tx hashType := by
  rw [hashSequence, sequencesHash, sequences, List.flatMap_map]
  rfl

section Bounded

variable {n : Nat}

theorem hashOutputs_eq {tx : BsvTransaction} (hn : n < 256 ^ 8) (h : Tx.Bounded n tx)
    (inputIdx : Nat) (hashType : UInt32) :
    hashOutputs tx inputIdx hashType = outputsHash tx inputIdx hashType :=
  outputsHash_eq (fun o ho => encodeOutput_eq (Nat.lt_of_le_of_lt (h.locking o ho) hn))
    inputIdx hashType

theorem preimage_eq {s : SighashInputs} (hn : n < 256 ^ 8) (h : s.Bounded n) (i : TxInput) :
    encI32LE s.tx.version ++ hashPrevouts s.tx s.hashType ++
      hashSequence s.tx s.hashType ++ i.prevTxid ++ encU32LE i.prevVout ++
      encVarint (UInt64.ofNat s.prevScript.length) ++ s.prevScript ++ encU64LE s.prevValue ++
      encU32LE i.sequence ++ hashOutputs s.tx s.inputIdx.toNat s.hashType ++
      encU32LE s.tx.lockTime ++ encU32LE s.hashType = preimage s i := by
  rw [hashPrevouts_eq, hashSequence_eq, hashOutputs_eq hn h.tx,
    encVarint_ofNat (Nat.lt_of_le_of_lt h.prevScript hn)]
  simp only [preimage, outpointBytes, TxInput.outpoint, scriptBytes, List.append_assoc]
  rfl

/-- **What is signed**: the hash of the preimage. -/
theorem computeSighash_eq_ok {s : SighashInputs} (hn : n < 256 ^ 8) (h : s.Bounded n)
    {d : List UInt8} :
    computeSighash s = .ok d ↔ ∃ i, Signs s i ∧ d = sha256d (preimage s i) := by
  unfold computeSighash
  by_cases hfork : s.hashType &&& sighashForkID = 0
  · rw [if_pos hfork]
    constructor
    · intro h
      cases h
    · rintro ⟨i, hsigns, -⟩
      exact absurd hsigns (not_signs_of_flag hfork)
  rw [if_neg hfork]
  by_cases hidx : s.inputIdx < 0 ∨ s.tx.inputs.length ≤ s.inputIdx
  · rw [dif_pos hidx]
    constructor
    · intro h
      cases h
    · rintro ⟨i, hsigns, -⟩
      exact absurd hsigns (not_signs_of_idx hidx)
  · rw [dif_neg hidx]
    simp only [signs_iff hfork hidx, exists_eq_left', preimage_eq hn h]
    exact ⟨fun h => (Except.ok.inj h).symm, fun h => congrArg _ h.symm⟩

end Bounded

end CardTable.Go
