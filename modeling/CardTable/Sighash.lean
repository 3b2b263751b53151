import CardTable.Transaction

/-!
# Sighash — what a signature is made of

A signature signs a digest of one input: fields of the transaction, three
hashes over its inputs and outputs, the script and the value that are
spent, one after another. With every output and every input signed the
digest determines them all, as long as the hash has no collision among
the texts that were hashed.
-/

namespace CardTable.Tx

open Basis Basis.Codec

/-! ## Flags -/

def sighashAll : UInt32 := 0x01

def sighashNone : UInt32 := 0x02

def sighashSingle : UInt32 := 0x03

def sighashForkID : UInt32 := 0x40

def sighashAnyoneCanPay : UInt32 := 0x80

def sighashAllForkID : UInt32 := sighashAll ||| sighashForkID

/-- `isBaseSighash`. -/
abbrev IsBaseSighash (t base : UInt32) : Prop := t &&& 0x1f = base

/-- `ZERO_32`, `zero32Sig`. -/
def zero32 : List UInt8 := List.replicate 32 0

/-- `SighashInputs`, the `args` of `computeSighash`. -/
structure SighashInputs where
  tx : BsvTransaction
  inputIdx : Int
  prevScript : List UInt8
  prevValue : UInt64
  hashType : UInt32

/-! ## The texts -/

/-- What an input spends. -/
def TxInput.outpoint (i : TxInput) : List UInt8 × UInt32 := (i.prevTxid, i.prevVout)

def outpointBytes (o : List UInt8 × UInt32) : List UInt8 := o.1 ++ putUintLE o.2.toNat 4

def sequenceBytes (n : UInt32) : List UInt8 := putUintLE n.toNat 4

def prevouts (tx : BsvTransaction) : List UInt8 :=
  (tx.inputs.map TxInput.outpoint).flatMap outpointBytes

def sequences (tx : BsvTransaction) : List UInt8 :=
  (tx.inputs.map TxInput.sequence).flatMap sequenceBytes

def outputs (tx : BsvTransaction) : List UInt8 := tx.outputs.flatMap outputBytes

/-- The hash of all outpoints, unless others may add inputs. -/
def prevoutsHash (tx : BsvTransaction) (hashType : UInt32) : List UInt8 :=
  if hashType &&& sighashAnyoneCanPay ≠ 0 then zero32 else sha256d (prevouts tx)

def sequencesHash (tx : BsvTransaction) (hashType : UInt32) : List UInt8 :=
  if hashType &&& sighashAnyoneCanPay ≠ 0 then zero32
  else if IsBaseSighash hashType sighashNone ∨ IsBaseSighash hashType sighashSingle then zero32
  else sha256d (sequences tx)

/-- The hash of all outputs, of the one next to the input, or of none. -/
def outputsHash (tx : BsvTransaction) (inputIdx : Nat) (hashType : UInt32) : List UInt8 :=
  if IsBaseSighash hashType sighashAll then sha256d (outputs tx)
  else if IsBaseSighash hashType sighashSingle then
    match tx.outputs[inputIdx]? with
    | some o => sha256d (outputBytes o)
    | none => zero32
  else zero32

/-- What is hashed for the signature of input `i`. -/
def preimage (s : SighashInputs) (i : TxInput) : List UInt8 :=
  putUintLE s.tx.version.toUInt32.toNat 4 ++ (prevoutsHash s.tx s.hashType ++
    (sequencesHash s.tx s.hashType ++ (outpointBytes i.outpoint ++ (scriptBytes s.prevScript ++
      (putUintLE s.prevValue.toNat 8 ++ (sequenceBytes i.sequence ++
        (outputsHash s.tx s.inputIdx.toNat s.hashType ++ (putUintLE s.tx.lockTime.toNat 4 ++
          putUintLE s.hashType.toNat 4))))))))

/-- The input that is signed, when there is one. -/
def SighashInputs.signed (s : SighashInputs) : Option TxInput :=
  if s.inputIdx < 0 then none else s.tx.inputs[s.inputIdx.toNat]?

/-- An index that passes the check is one of an input. -/
theorem inputIdx_lt {s : SighashInputs}
    (h : ¬(s.inputIdx < 0 ∨ s.tx.inputs.length ≤ s.inputIdx)) :
    s.inputIdx.toNat < s.tx.inputs.length := by
  omega

/-- A digest is made: the fork flag is set and there is an input to sign. -/
def Signs (s : SighashInputs) (i : TxInput) : Prop :=
  s.hashType &&& sighashForkID ≠ 0 ∧ s.signed = some i

/-- Lengths up to `n`. -/
structure SighashInputs.Bounded (n : Nat) (s : SighashInputs) : Prop where
  tx : Tx.Bounded n s.tx
  prevScript : s.prevScript.length ≤ n

section Signed

variable {s : SighashInputs} {i : TxInput}

theorem signed_eq_none (h : s.inputIdx < 0 ∨ s.tx.inputs.length ≤ s.inputIdx) :
    s.signed = none := by
  unfold SighashInputs.signed
  split
  · rfl
  · exact List.getElem?_eq_none (by omega)

theorem signed_eq_some (h : ¬(s.inputIdx < 0 ∨ s.tx.inputs.length ≤ s.inputIdx)) :
    s.signed = some (s.tx.inputs.get ⟨s.inputIdx.toNat, inputIdx_lt h⟩) := by
  rw [SighashInputs.signed, if_neg (by omega)]
  exact List.getElem?_eq_getElem (inputIdx_lt h)

theorem mem_of_signed (h : s.signed = some i) : i ∈ s.tx.inputs := by
  unfold SighashInputs.signed at h
  split at h
  · cases h
  · exact List.mem_of_getElem? h

theorem not_signs_of_flag (h : s.hashType &&& sighashForkID = 0) : ¬Signs s i :=
  fun hsigns => hsigns.1 h

theorem not_signs_of_idx (h : s.inputIdx < 0 ∨ s.tx.inputs.length ≤ s.inputIdx) : ¬Signs s i := by
  intro hsigns
  have hsigned := hsigns.2
  rw [signed_eq_none h] at hsigned
  cases hsigned

/-- Past both checks there is one input to sign. -/
theorem signs_iff (hflag : s.hashType &&& sighashForkID ≠ 0)
    (hidx : ¬(s.inputIdx < 0 ∨ s.tx.inputs.length ≤ s.inputIdx)) :
    Signs s i ↔ s.tx.inputs.get ⟨s.inputIdx.toNat, inputIdx_lt hidx⟩ = i := by
  rw [Signs, signed_eq_some hidx, Option.some.injEq]
  exact and_iff_right hflag

/-- `hashOutputs`, whatever writes an output to its canonical bytes. -/
theorem outputsHash_eq {tx : BsvTransaction} {write : TxOutput → List UInt8}
    (hwrite : ∀ o ∈ tx.outputs, write o = outputBytes o) (inputIdx : Nat) (hashType : UInt32) :
    (if IsBaseSighash hashType sighashAll then sha256d (tx.outputs.flatMap write)
      else if IsBaseSighash hashType sighashSingle then
        if h : inputIdx < tx.outputs.length then sha256d (write (tx.outputs.get ⟨inputIdx, h⟩))
        else zero32
      else zero32) = outputsHash tx inputIdx hashType := by
  have hall : tx.outputs.flatMap write = outputs tx := by
    rw [outputs, List.flatMap_def, List.flatMap_def, List.map_congr_left hwrite]
  rw [outputsHash, hall]
  by_cases hbase : IsBaseSighash hashType sighashAll
  · rw [if_pos hbase, if_pos hbase]
  rw [if_neg hbase, if_neg hbase]
  by_cases hsingle : IsBaseSighash hashType sighashSingle
  · rw [if_pos hsingle, if_pos hsingle]
    by_cases hidx : inputIdx < tx.outputs.length
    · rw [dif_pos hidx, List.getElem?_eq_getElem hidx]
      exact congrArg sha256d (hwrite _ (List.getElem_mem hidx))
    · rw [dif_neg hidx, List.getElem?_eq_none (by omega)]
  · rw [if_neg hsingle, if_neg hsingle]

end Signed

/-! ## Every text is read back -/

theorem length_sha256d (b : List UInt8) : (sha256d b).length = 32 :=
  Sha256.length_sha256 _

theorem delimits_i32 : Delimits (fun (n : Int32) x => x = putUintLE n.toUInt32.toNat 4) Eq := by
  refine Walk.Finds.delimits (m := i32) ?_
  rintro text n _ rfl
  exact finds_i32 n

theorem delimits_u32 : Delimits (fun (n : UInt32) x => x = putUintLE n.toNat 4) Eq := by
  refine Walk.Finds.delimits (m := u32) ?_
  rintro text n _ rfl
  exact finds_u32 n

theorem delimits_u64 : Delimits (fun (n : UInt64) x => x = putUintLE n.toNat 8) Eq := by
  refine Walk.Finds.delimits (m := u64) ?_
  rintro text n _ rfl
  exact finds_u64 n

theorem delimits_script : Delimits (fun s x => s.length < 256 ^ 8 ∧ x = scriptBytes s) Eq := by
  refine Walk.Finds.delimits (m := script) ?_
  rintro text s _ ⟨hs, rfl⟩
  exact finds_script hs fun _ _ => trivial

theorem delimits_output :
    Delimits (fun (o : TxOutput) x => o.lockingScript.length < 256 ^ 8 ∧ x = outputBytes o) Eq := by
  refine Walk.Finds.delimits (m := output) ?_
  rintro text o _ ⟨ho, rfl⟩
  exact finds_output ho fun _ _ => trivial

theorem delimits_outpoint :
    Delimits (fun (o : List UInt8 × UInt32) x => o.1.length = 32 ∧ x = outpointBytes o) Eq := by
  intro o o' x y r s hx hy heq
  obtain ⟨ho, rfl⟩ := hx
  obtain ⟨ho', rfl⟩ := hy
  simp only [outpointBytes, List.append_assoc] at heq
  obtain ⟨htxid, heq⟩ := List.append_inj heq (ho.trans ho'.symm)
  obtain ⟨hvout, hrest⟩ := delimits_u32 rfl rfl heq
  exact ⟨Prod.ext htxid hvout, hrest⟩

theorem prevouts_inj {tx tx' : BsvTransaction} {n : Nat} (h : Bounded n tx) (h' : Bounded n tx')
    (heq : prevouts tx = prevouts tx') :
    tx.inputs.map TxInput.outpoint = tx'.inputs.map TxInput.outpoint := by
  refine delimits_outpoint.flatMap_inj ?_ ?_ ?_ heq
  · intro o ho
    exact List.ne_nil_of_length_pos (by simp [outpointBytes])
  · exact List.forall_mem_map.mpr h.prevTxids
  · exact List.forall_mem_map.mpr h'.prevTxids

theorem sequences_inj {tx tx' : BsvTransaction} (heq : sequences tx = sequences tx') :
    tx.inputs.map TxInput.sequence = tx'.inputs.map TxInput.sequence := by
  have hcode : Delimits (fun n x => True ∧ x = sequenceBytes n) Eq :=
    delimits_u32.mono (fun _ _ hx => hx.2) fun _ _ hab => hab
  refine hcode.flatMap_inj ?_ (fun _ _ => trivial) (fun _ _ => trivial) heq
  intro n _
  exact List.ne_nil_of_length_pos (by simp [sequenceBytes])

theorem outputs_inj {tx tx' : BsvTransaction} {n : Nat} (hn : n < 256 ^ 8) (h : Bounded n tx)
    (h' : Bounded n tx') (heq : outputs tx = outputs tx') : tx.outputs = tx'.outputs := by
  refine delimits_output.flatMap_inj ?_ ?_ ?_ heq
  · intro o _
    exact List.ne_nil_of_length_pos (by simp [outputBytes])
  · exact fun o ho => Nat.lt_of_le_of_lt (h.locking o ho) hn
  · exact fun o ho => Nat.lt_of_le_of_lt (h'.locking o ho) hn

/-! ## What a digest determines -/

/-- The texts hashed for a signature. -/
def SighashInputs.hashed (s : SighashInputs) : Set (List UInt8) :=
  {x | x = prevouts s.tx ∨ x = sequences s.tx ∨ x = outputs s.tx ∨
    ∃ i, s.signed = some i ∧ x = preimage s i}

/-- Alike in all but the unlocking scripts, and where the signed input
stands. -/
structure SighashInputs.Alike (s s' : SighashInputs) : Prop where
  version : s.tx.version = s'.tx.version
  outpoints : s.tx.inputs.map TxInput.outpoint = s'.tx.inputs.map TxInput.outpoint
  sequences : s.tx.inputs.map TxInput.sequence = s'.tx.inputs.map TxInput.sequence
  outputs : s.tx.outputs = s'.tx.outputs
  lockTime : s.tx.lockTime = s'.tx.lockTime
  signedOutpoint : s.signed.map TxInput.outpoint = s'.signed.map TxInput.outpoint
  signedSequence : s.signed.map TxInput.sequence = s'.signed.map TxInput.sequence
  prevScript : s.prevScript = s'.prevScript
  prevValue : s.prevValue = s'.prevValue

/-- With every input and output signed no part is left out. -/
theorem preimage_all {s : SighashInputs} (h : s.hashType = sighashAllForkID) (i : TxInput) :
    preimage s i = putUintLE s.tx.version.toUInt32.toNat 4 ++ (sha256d (prevouts s.tx) ++
      (sha256d (sequences s.tx) ++ (outpointBytes i.outpoint ++ (scriptBytes s.prevScript ++
        (putUintLE s.prevValue.toNat 8 ++ (sequenceBytes i.sequence ++
          (sha256d (outputs s.tx) ++ (putUintLE s.tx.lockTime.toNat 4 ++
            putUintLE sighashAllForkID.toNat 4)))))))) := by
  have hprevouts : prevoutsHash s.tx sighashAllForkID = sha256d (prevouts s.tx) :=
    if_neg (by decide)
  have hsequences : sequencesHash s.tx sighashAllForkID = sha256d (sequences s.tx) := by
    rw [sequencesHash, if_neg (by decide), if_neg (by decide)]
  have houtputs : outputsHash s.tx s.inputIdx.toNat sighashAllForkID = sha256d (outputs s.tx) :=
    if_pos (by decide)
  rw [preimage, h, hprevouts, hsequences, houtputs]

/-- **Equal digests sign the same**, where the hash does not collide. -/
theorem alike_of_digest {s s' : SighashInputs} {i i' : TxInput} {n : Nat} (hn : n < 256 ^ 8)
    (hs : s.Bounded n) (hs' : s'.Bounded n) (htype : s.hashType = sighashAllForkID)
    (htype' : s'.hashType = sighashAllForkID) (hi : s.signed = some i) (hi' : s'.signed = some i')
    (hinj : Set.InjOn sha256d (s.hashed ∪ s'.hashed))
    (hdigest : sha256d (preimage s i) = sha256d (preimage s' i')) : s.Alike s' := by
  have heq : preimage s i = preimage s' i' :=
    hinj (.inl (.inr (.inr (.inr ⟨i, hi, rfl⟩)))) (.inr (.inr (.inr (.inr ⟨i', hi', rfl⟩)))) hdigest
  have hashLen : ∀ b b' : List UInt8, (sha256d b).length = (sha256d b').length := fun b b' =>
    (length_sha256d b).trans (length_sha256d b').symm
  have hscript : ∀ {s : SighashInputs}, s.Bounded n → s.prevScript.length < 256 ^ 8 :=
    fun hb => Nat.lt_of_le_of_lt hb.prevScript hn
  rw [preimage_all htype, preimage_all htype'] at heq
  -- field after field; each says where it ends
  obtain ⟨hversion, heq⟩ := delimits_i32 rfl rfl heq
  obtain ⟨hprevouts, heq⟩ := List.append_inj heq (hashLen _ _)
  obtain ⟨hsequences, heq⟩ := List.append_inj heq (hashLen _ _)
  obtain ⟨houtpoint, heq⟩ := delimits_outpoint
    ⟨hs.tx.prevTxids i (mem_of_signed hi), rfl⟩
    ⟨hs'.tx.prevTxids i' (mem_of_signed hi'), rfl⟩ heq
  obtain ⟨hprevScript, heq⟩ := delimits_script ⟨hscript hs, rfl⟩ ⟨hscript hs', rfl⟩ heq
  obtain ⟨hprevValue, heq⟩ := delimits_u64 rfl rfl heq
  obtain ⟨hsequence, heq⟩ := delimits_u32 rfl rfl heq
  obtain ⟨houtputs, heq⟩ := List.append_inj heq (hashLen _ _)
  obtain ⟨hlockTime, -⟩ := delimits_u32 rfl rfl heq
  exact {
    version := hversion
    outpoints := prevouts_inj hs.tx hs'.tx (hinj (.inl (.inl rfl)) (.inr (.inl rfl)) hprevouts)
    sequences := sequences_inj
      (hinj (.inl (.inr (.inl rfl))) (.inr (.inr (.inl rfl))) hsequences)
    outputs := outputs_inj hn hs.tx hs'.tx
      (hinj (.inl (.inr (.inr (.inl rfl)))) (.inr (.inr (.inr (.inl rfl)))) houtputs)
    lockTime := hlockTime
    signedOutpoint := by rw [hi, hi', Option.map_some, Option.map_some, houtpoint]
    signedSequence := by rw [hi, hi', Option.map_some, Option.map_some, hsequence]
    prevScript := hprevScript
    prevValue := hprevValue }

end CardTable.Tx
