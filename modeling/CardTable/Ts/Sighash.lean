import CardTable.Sighash
import CardTable.Ts.TxBuilder

/-!
# Ts.Sighash — `computeSighash` in TypeScript

`packages/tx-builder/src/sighash.ts`.
-/

namespace CardTable.Ts

open Basis Tx

/-- The version as the four elements of an array literal. -/
def versionBytes (version : Int32) : List UInt8 :=
  [version &&& 0xff, (version >>> 8) &&& 0xff, (version >>> 16) &&& 0xff,
    (version >>> 24) &&& 0xff].map fun n => n.toUInt32.toUInt8

def hashPrevouts (tx : BsvTransaction) (hashType : UInt32) : List UInt8 :=
  if hashType &&& sighashAnyoneCanPay ≠ 0 then zero32
  else sha256d (tx.inputs.flatMap fun i => i.prevTxid ++ encU32LE i.prevVout)

def hashSequence (tx : BsvTransaction) (hashType : UInt32) : List UInt8 :=
  if hashType &&& sighashAnyoneCanPay ≠ 0 then zero32
  else if IsBaseSighash hashType sighashNone then zero32
  else if IsBaseSighash hashType sighashSingle then zero32
  else sha256d (tx.inputs.flatMap fun i => encU32LE i.sequence)

/-- The parts of an output are those of `encOutput`. -/
def hashOutputs (tx : BsvTransaction) (inputIdx : Nat) (hashType : UInt32) : List UInt8 :=
  if IsBaseSighash hashType sighashAll then sha256d (tx.outputs.flatMap encOutput)
  else if IsBaseSighash hashType sighashSingle then
    if h : inputIdx < tx.outputs.length then sha256d (encOutput (tx.outputs.get ⟨inputIdx, h⟩))
    else zero32
  else zero32

/-- `computeSighash`. -/
def computeSighash (s : SighashInputs) : Js (List UInt8) :=
  if s.hashType &&& sighashForkID = 0 then .halt "computeSighash: BSV requires SIGHASH_FORKID"
  else if h : s.inputIdx < 0 ∨ s.tx.inputs.length ≤ s.inputIdx then
    let inputIdx := s.inputIdx
    .halt s!"computeSighash: inputIdx {inputIdx} out of range"
  else
    let i := s.tx.inputs.get ⟨s.inputIdx.toNat, inputIdx_lt h⟩
    .ok (sha256d (versionBytes s.tx.version ++ hashPrevouts s.tx s.hashType ++
      hashSequence s.tx s.hashType ++ i.prevTxid ++ encU32LE i.prevVout ++
      encVarint s.prevScript.length ++ s.prevScript ++ encU64LE s.prevValue ++
      encU32LE i.sequence ++ hashOutputs s.tx s.inputIdx.toNat s.hashType ++
      encU32LE s.tx.lockTime ++ encU32LE s.hashType))

/-! ## The digest -/

/-- A byte shifted down and masked, the sign shifted in behind it. -/
theorem byte_sshiftRight (w : BitVec 32) {k : Nat} (hk : k ≤ 24) :
    ((w.sshiftRight k) &&& 0xff#32).setWidth 8 = BitVec.ofNat 8 (w.toNat >>> k) := by
  apply BitVec.eq_of_getLsbD_eq
  intro j hj
  have hmask : (0xff#32).getLsbD j = true := by
    have hall : ∀ j < 8, (0xff#32).getLsbD j = true := by decide
    exact hall j hj
  rw [BitVec.getLsbD_setWidth, BitVec.getLsbD_and, hmask, Bool.and_true,
    BitVec.getLsbD_sshiftRight, BitVec.getLsbD_ofNat, Nat.testBit_shiftRight,
    if_pos (show k + j < 32 by omega), decide_eq_false (show ¬32 ≤ j by omega)]
  simp [BitVec.getLsbD]

theorem versionBytes_eq (v : Int32) : versionBytes v = putUintLE v.toUInt32.toNat 4 := by
  have hbyte : ∀ k ≤ 24, UInt8.ofBitVec (((v.toBitVec.sshiftRight k) &&& 0xff#32).setWidth 8) =
      UInt8.ofNat (v.toUInt32.toNat >>> k) := by
    intro k hk
    rw [byte_sshiftRight _ hk]
    rfl
  rw [putUintLE_four, ← hbyte 0 (by decide), ← hbyte 8 (by decide), ← hbyte 16 (by decide),
    ← hbyte 24 (by decide), BitVec.sshiftRight_zero]
  rfl

theorem hashPrevouts_eq (tx : BsvTransaction) (hashType : UInt32) :
    hashPrevouts tx hashType = prevoutsHash tx hashType := by
  rw [hashPrevouts, prevoutsHash, prevouts, List.flatMap_map]
  rfl

theorem hashSequence_eq (tx : BsvTransaction) (hashType : UInt32) :
    hashSequence tx hashType = sequencesHash tx hashType := by
  rw [hashSequence, sequencesHash, sequences, List.flatMap_map]
  by_cases hany : hashType &&& sighashAnyoneCanPay ≠ 0
  · rw [if_pos hany, if_pos hany]
  rw [if_neg hany, if_neg hany]
  by_cases hnone : IsBaseSighash hashType sighashNone
  · rw [if_pos hnone, if_pos (.inl hnone)]
  · rw [if_neg hnone]
    simp only [hnone, false_or]
    rfl

theorem hashOutputs_eq (tx : BsvTransaction) (inputIdx : Nat) (hashType : UInt32) :
    hashOutputs tx inputIdx hashType = outputsHash tx inputIdx hashType :=
  outputsHash_eq (fun o _ => encOutput_eq o) inputIdx hashType

theorem preimage_eq (s : SighashInputs) (i : TxInput) :
    versionBytes s.tx.version ++ hashPrevouts s.tx s.hashType ++
      hashSequence s.tx s.hashType ++ i.prevTxid ++ encU32LE i.prevVout ++
      encVarint s.prevScript.length ++ s.prevScript ++ encU64LE s.prevValue ++
      encU32LE i.sequence ++ hashOutputs s.tx s.inputIdx.toNat s.hashType ++
      encU32LE s.tx.lockTime ++ encU32LE s.hashType = preimage s i := by
  rw [versionBytes_eq, hashPrevouts_eq, hashSequence_eq, hashOutputs_eq]
  simp only [preimage, outpointBytes, TxInput.outpoint, scriptBytes, List.append_assoc]
  rfl

/-- **What is signed**: the hash of the preimage. -/
theorem computeSighash_eq_ok {s : SighashInputs} {d : List UInt8} :
    computeSighash s = .ok d ↔ ∃ i, Signs s i ∧ d = sha256d (preimage s i) := by
  unfold computeSighash
  by_cases hfork : s.hashType &&& sighashForkID = 0
  · rw [if_pos hfork]
    constructor
    · intro h
      cases h
    · rintro ⟨i, hsigns, -⟩
      exact absurd hsigns (not_signs_of_flag hfork)
  rw [if_neg hfork]
  by_cases hidx : s.inputIdx < 0 ∨ s.tx.inputs.length ≤ s.inputIdx
  · rw [dif_pos hidx]
    constructor
    · intro h
      cases h
    · rintro ⟨i, hsigns, -⟩
      exact absurd hsigns (not_signs_of_idx hidx)
  · rw [dif_neg hidx]
    simp only [signs_iff hfork hidx, exists_eq_left', preimage_eq]
    exact ⟨fun h => (Outcome.ok.inj h).symm, fun h => congrArg _ h.symm⟩

end CardTable.Ts
