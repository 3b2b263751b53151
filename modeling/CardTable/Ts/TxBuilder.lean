import CardTable.Basis.SafeInt
import CardTable.Transaction
import CardTable.Ts.Types

/-!
# Ts.TxBuilder — transactions in TypeScript

`packages/tx-builder/src/encode.ts` and `txid.ts`. A buffer is a
`Uint8Array`, whose length is a safe integer; the decoder keeps a position
in it. A count or a length that was read as a `bigint` is rounded by
`Number`, and positions are added as doubles; neither changes what is
accepted, because a number that is rounded is beyond every buffer.
-/

namespace CardTable.Ts

open Basis Tx

/-- A `Uint8Array`. -/
abbrev Uint8Array := { b : List UInt8 // b.length ≤ maxSafeInteger }

/-! ## Encoders -/

/-- `encVarint` of a length. -/
def encVarint (v : Nat) : List UInt8 :=
  if v < 0xfd then [UInt8.ofNat v]
  else if v ≤ 0xffff then 0xfd :: putUintLE v 2
  else if v ≤ 0xffffffff then 0xfe :: putUintLE v 4
  else 0xff :: putUintLE v 8

def encU32LE (n : UInt32) : List UInt8 := putUintLE n.toNat 4

def encI32LE (n : Int32) : List UInt8 := putUintLE n.toUInt32.toNat 4

def encU64LE (n : UInt64) : List UInt8 := putUintLE n.toNat 8

/-- `encInput`. -/
def encInput (i : TxInput) : Js (List UInt8) :=
  if i.prevTxid.length ≠ 32 then
    let got := i.prevTxid.length
    .halt s!"encInput: prevTxid must be 32 bytes, got {got}"
  else .ok (i.prevTxid ++ encU32LE i.prevVout ++ encVarint i.unlockingScript.length ++
    i.unlockingScript ++ encU32LE i.sequence)

/-- `encOutput`. -/
def encOutput (o : TxOutput) : List UInt8 :=
  encU64LE o.value ++ encVarint o.lockingScript.length ++ o.lockingScript

/-- `encodeBsvTransaction`. -/
def encodeBsvTransaction (tx : BsvTransaction) : Js (List UInt8) := do
  let inputs ← tx.inputs.mapM encInput
  pure (encI32LE tx.version ++ encVarint tx.inputs.length ++ inputs.flatten ++
    encVarint tx.outputs.length ++ (tx.outputs.map encOutput).flatten ++ encU32LE tx.lockTime)

/-- `computeTxId`. -/
def computeTxId (tx : BsvTransaction) : Js (List UInt8) := do
  let bytes ← encodeBsvTransaction tx
  pure (sha256d bytes)

/-! ## Decoders -/

/-- A call that moves the cursor. -/
abbrev Cursor := StateT Nat Js

section Decoders

variable (buf : List UInt8)

def readU8 : Cursor UInt8 := fun pos =>
  match buf[pos]? with
  | none => .halt "decode: out of bounds u8"
  | some b => .ok (b, pos + 1)

/-- A `DataView` of `n` bytes at the cursor. (Where the bytes are a part of
a larger buffer the view reads on behind them, and what comes after refuses
the position.) -/
def view (n : Nat) : Cursor (List UInt8) := fun pos =>
  if pos + n ≤ buf.length then .ok ((buf.drop pos).take n, pos + n)
  else .halt "RangeError"

def readU16LE : Cursor UInt16 := do
  let w ← view buf 2
  pure (UInt16.ofNat (uintLE w))

def readU32LE : Cursor UInt32 := do
  let w ← view buf 4
  pure (UInt32.ofNat (uintLE w))

def readI32LE : Cursor Int32 := do
  let v ← readU32LE buf
  pure v.toInt32

def readU64LE : Cursor UInt64 := do
  let w ← view buf 8
  pure (UInt64.ofNat (uintLE w))

/-- `readVarint`: a number or a `bigint`. -/
def readVarint : Cursor Nat :=
  switchVarint (readU8 buf) (fun first => pure first.toNat)
    (do return (← readU16LE buf).toNat) (do return (← readU32LE buf).toNat)
    (do return (← readU64LE buf).toNat)

/-- `readBytes`. -/
def readBytes (n : Nat) : Cursor (List UInt8) := fun pos =>
  if buf.length < roundNat (pos + n) then .halt "decode: out of bounds bytes"
  else .ok ((buf.drop pos).take n, pos + n)

/-- A script, its length first. -/
def readScript : Cursor (List UInt8) := do
  let scriptLen := roundNat (← readVarint buf)
  readBytes buf scriptLen

def readInput : Cursor TxInput := do
  let prevTxid ← readBytes buf 32
  let prevVout ← readU32LE buf
  let unlockingScript ← readScript buf
  let sequence ← readU32LE buf
  pure ⟨prevTxid, prevVout, unlockingScript, sequence⟩

def readOutput : Cursor TxOutput := do
  let value ← readU64LE buf
  let lockingScript ← readScript buf
  pure ⟨value, lockingScript⟩

/-- A count, and as many turns of a loop. -/
def readCounted {α : Type} (read : Cursor α) : Cursor (List α) := do
  let count := roundNat (← readVarint buf)
  countedLoop (fun _ => read) 0 count

/-- The comparison at the end of `decodeBsvTransaction`. -/
def checkConsumed : Cursor Unit := fun pos =>
  if pos ≠ buf.length then
    let size := buf.length
    .halt s!"decodeBsvTransaction: trailing bytes (consumed {pos} of {size})"
  else .ok ((), pos)

/-- `decodeBsvTransaction`, the cursor exposed. -/
def decodeCursor : Cursor BsvTransaction := do
  let version ← readI32LE buf
  let inputs ← readCounted buf (readInput buf)
  let outputs ← readCounted buf (readOutput buf)
  let lockTime ← readU32LE buf
  checkConsumed buf
  pure ⟨version, inputs, outputs, lockTime⟩

end Decoders

/-- `decodeBsvTransaction`. -/
def decodeBsvTransaction (buf : Uint8Array) : Js BsvTransaction := do
  let (tx, _) ← decodeCursor buf.1 0
  pure tx

/-! ## Encoding gives the canonical bytes -/

theorem mapM_encInput {inputs : List TxInput} (h : ∀ i ∈ inputs, i.prevTxid.length = 32) :
    inputs.mapM encInput = .ok (inputs.map inputBytes) := by
  induction inputs with
  | nil => rfl
  | cons i inputs ih =>
      obtain ⟨hi, hrest⟩ := List.forall_mem_cons.mp h
      have hone : encInput i = .ok (inputBytes i) := by
        rw [encInput, if_neg (not_not.mpr hi)]
        simp only [inputBytes, scriptBytes, List.append_assoc]
        rfl
      rw [List.mapM_cons, hone, Outcome.ok_bind, ih hrest, Outcome.ok_bind, List.map_cons]
      rfl

theorem encOutput_eq (o : TxOutput) : encOutput o = outputBytes o := by
  simp only [encOutput, List.append_assoc]
  rfl

theorem encodeBsvTransaction_eq {tx : BsvTransaction}
    (h : ∀ i ∈ tx.inputs, i.prevTxid.length = 32) :
    encodeBsvTransaction tx = .ok (txBytes tx) := by
  have houtputs : tx.outputs.map encOutput = tx.outputs.map outputBytes :=
    List.map_congr_left fun o _ => encOutput_eq o
  rw [encodeBsvTransaction, mapM_encInput h, Outcome.ok_bind, houtputs, ← List.flatMap_def,
    ← List.flatMap_def]
  simp only [List.append_assoc]
  rfl

/-! ## Decoding follows the walk -/

section Follows

variable {buf : List UInt8}

/-- A decoder throws where the walk fails, and only there: nothing in the
notes can break it off. -/
abbrev Ends {α : Type} (buf : List UInt8) (walked : List LengthField × Option (α × Nat))
    (ended : Js (α × Nat)) : Prop :=
  Outcome.Agrees buf.length (fun _ => True) (fun s => s.isRight = true) (fun _ => False)
    walked ended

abbrev Follows {α : Type} (buf : List UInt8) (m : Walk LengthField α) (d : Cursor α) : Prop :=
  Walk.Follows buf.length (fun _ => True) (fun s => s.isRight = true) (fun _ => False) m d

theorem ends_ok {α : Type} {notes : List LengthField} {a : α} {q : Nat} (h : q ≤ buf.length) :
    Ends buf (notes, some (a, q)) (.ok (a, q)) :=
  .value (fun _ _ => trivial) h

theorem ends_halt {α : Type} {notes : List LengthField} (message : String) :
    Ends buf (notes, (none : Option (α × Nat))) (.halt message) :=
  .failed (fun _ _ => trivial) rfl rfl

theorem follows_view (n : Nat) : Follows buf (Walk.take buf n) (view buf n) := by
  intro p _
  unfold Walk.take view
  split
  · exact ends_ok ‹_›
  · exact ends_halt _

theorem follows_u32 : Follows buf (u32 buf) (readU32LE buf) :=
  (follows_view 4).bind fun w => .pure (UInt32.ofNat (uintLE w))

theorem follows_u64 : Follows buf (u64 buf) (readU64LE buf) :=
  (follows_view 8).bind fun w => .pure (UInt64.ofNat (uintLE w))

/-- A word of the view. -/
theorem readsUint_view {α : Type} (k : Nat) (f : Nat → α) :
    ReadsUint buf (fun s => s.isRight = true) f k
      (do let w ← view buf k; pure (f (uintLE w)) : Cursor α) := by
  intro p _
  split
  · rename_i hle
    exact cursor_bind_ok (if_pos hle)
  · rename_i hgt
    have hview : view buf k p = .halt "RangeError" := if_neg hgt
    have hstop : (view buf k p).stop? = some (.inr "RangeError") := by
      rw [hview]
      rfl
    exact ⟨_, cursor_bind_stop hstop _, rfl⟩

/-- `readVarint` gives what the bytes of the varint say. -/
theorem readVarint_eq {p : Nat} (hp : p ≤ buf.length) :
    match (varint buf p).2 with
    | some (raw, q) => readVarint buf p = .ok (id (varintValue raw), q)
    | none => ∃ s, (readVarint buf p).stop? = some s ∧ s.isRight = true := by
  refine switchVarint_eq ?_ ?_ (fun _ _ => rfl)
    ((readsUint_view 2 UInt16.ofNat).map fun n hn => UInt16.toNat_ofNat_of_lt' hn)
    ((readsUint_view 4 UInt32.ofNat).map fun n hn => UInt32.toNat_ofNat_of_lt' hn)
    ((readsUint_view 8 UInt64.ofNat).map fun n hn => UInt64.toNat_ofNat_of_lt' hn) hp
  · intro p hlt
    rw [readU8, List.getElem?_eq_getElem hlt]
  · rw [readU8, List.getElem?_eq_none (Nat.le_refl _)]
    exact ⟨_, rfl, rfl⟩

/-- `readBytes` of a number that may have been rounded. -/
theorem ends_readBytes (hbuf : buf.length ≤ maxSafeInteger) (n p : Nat) :
    Ends buf (Walk.take buf n p) (readBytes buf (roundNat n) p) := by
  by_cases hle : p + n ≤ buf.length
  · rw [Walk.take, if_pos hle, readBytes, roundNat_eq_self (show n ≤ maxSafeInteger by omega),
      roundNat_eq_self (show p + n ≤ maxSafeInteger by omega), if_neg (by omega)]
    exact ends_ok hle
  · -- too long by itself, or with the position
    have hlong : buf.length < roundNat (p + roundNat n) := by
      by_cases hn : n ≤ maxSafeInteger
      · rw [roundNat_eq_self hn]
        by_cases hsum : p + n ≤ maxSafeInteger
        · rw [roundNat_eq_self hsum]
          omega
        · have := lt_roundNat (show maxSafeInteger < p + n by omega)
          omega
      · have hround := lt_roundNat (show maxSafeInteger < n by omega)
        have := lt_roundNat (show maxSafeInteger < p + roundNat n by omega)
        omega
    rw [Walk.take, if_neg hle, readBytes, if_pos hlong]
    exact ends_halt _

/-- A length, and what is done with it. -/
theorem follows_length {α : Type} {site : Site} {k : Nat → Walk LengthField α}
    {l : Nat → Cursor α} (h : ∀ n, Follows buf (k n) (l n)) :
    Follows buf (lengthField buf site >>= k) (readVarint buf >>= l) := by
  intro p hp
  have hread := readVarint_eq hp
  cases hraw : varint buf p with
  | mk notes result =>
      rw [hraw] at hread
      cases result with
      | none =>
          obtain ⟨s, hstop, hfails⟩ := hread
          have hfield : lengthField buf site p = (notes, none) := Walk.bind_none hraw
          rw [Walk.bind_none hfield]
          exact .failed (fun _ _ => trivial) (cursor_bind_stop hstop _) hfails
      | some r =>
          obtain ⟨hat, hq, -, -⟩ := varint_inv hraw
          have hfield : lengthField buf site p = (notes ++ [⟨site, r.1, varintValue r.1, r.2⟩],
              some (varintValue r.1, r.2)) := Walk.bind_then hraw rfl
          rw [Walk.bind_some hfield, cursor_bind_ok hread]
          exact (h _ _ (hq ▸ hat.le)).notes fun _ _ => trivial

theorem follows_script (hbuf : buf.length ≤ maxSafeInteger) :
    Follows buf (script buf) (readScript buf) :=
  follows_length fun n p _ => ends_readBytes hbuf n p

theorem follows_input (hbuf : buf.length ≤ maxSafeInteger) :
    Follows buf (input buf) (readInput buf) := by
  have htake : Follows buf (Walk.take buf 32) (readBytes buf 32) := by
    intro p _
    have hread := ends_readBytes hbuf 32 p
    rwa [roundNat_eq_self (by decide)] at hread
  exact htake.bind fun _ => follows_u32.bind fun _ => (follows_script hbuf).bind fun _ =>
    follows_u32.bind fun _ => .pure _

theorem follows_output (hbuf : buf.length ≤ maxSafeInteger) :
    Follows buf (output buf) (readOutput buf) :=
  follows_u64.bind fun _ => (follows_script hbuf).bind fun _ => .pure _

/-- A count that is rounded is more than there are bytes. -/
theorem follows_counted {α : Type} {site : Site} (hbuf : buf.length ≤ maxSafeInteger)
    {m : Walk LengthField α} {d : Cursor α} (hfollows : Follows buf m d)
    (htakes : ∀ ⦃p q : Nat⦄ ⦃notes : List LengthField⦄ ⦃a : α⦄,
      m p = (notes, some (a, q)) → p < q ∧ q ≤ buf.length) :
    Follows buf (lengthField buf site >>= Walk.times m) (readCounted buf d) := by
  refine follows_length fun n p hp => ?_
  have hloop : Ends buf (Walk.times m (roundNat n) p) (countedLoop (fun _ => d) 0 (roundNat n) p) :=
    Walk.Follows.times (fun _ => hfollows) 0 (roundNat n) p hp
  by_cases hn : n ≤ maxSafeInteger
  · rwa [roundNat_eq_self hn] at hloop ⊢
  · -- both counts are beyond the buffer
    have hround := lt_roundNat (show maxSafeInteger < n by omega)
    have hnone := Walk.times_none htakes (show buf.length < n + p by omega) (by omega)
    have hnone' := Walk.times_none htakes (show buf.length < roundNat n + p by omega) (by omega)
    rw [show Walk.times m n p = (_, none) from Prod.ext rfl hnone]
    rw [show Walk.times m (roundNat n) p = (_, none) from Prod.ext rfl hnone'] at hloop
    cases hloop with
    | failed _ hstop hfails => exact .failed (fun _ _ => trivial) hstop hfails
    | broken _ hbad => exact absurd trivial hbad

theorem follows_transaction (hbuf : buf.length ≤ maxSafeInteger) :
    Follows buf (transaction buf) (decodeCursor buf) := by
  have hdone : Follows buf (Walk.done buf) (checkConsumed buf) := by
    intro p hp
    unfold Walk.done checkConsumed
    by_cases hend : p = buf.length
    · rw [if_pos hend, if_neg (not_not.mpr hend)]
      exact ends_ok hp
    · rw [if_neg hend, if_pos hend]
      exact ends_halt _
  have hversion : Follows buf (i32 buf) (readI32LE buf) :=
    follows_u32.bind fun v => .pure v.toInt32
  exact hversion.bind fun _ => (follows_counted hbuf (follows_input hbuf) input_takes).bind fun _ =>
    (follows_counted hbuf (follows_output hbuf) output_takes).bind fun _ =>
      follows_u32.bind fun _ => hdone.bind fun _ => .pure _

/-- **What decodes**: the texts the walk reads a transaction off. -/
theorem decodeBsvTransaction_eq_ok {b : Uint8Array} {tx : BsvTransaction} :
    decodeBsvTransaction b = .ok tx ↔ ∃ q, (transaction b.1 0).2 = some (tx, q) := by
  have hends := follows_transaction b.2 0 (Nat.zero_le _)
  rw [decodeBsvTransaction, Outcome.bind_eq_ok]
  constructor
  · rintro ⟨⟨_, q⟩, hr, hlast⟩
    cases hlast
    exact ⟨q, (hends.eq_ok_iff.mp hr).1⟩
  · rintro ⟨q, hq⟩
    exact ⟨_, hends.eq_ok_iff.mpr ⟨hq, fun _ _ => trivial⟩, rfl⟩

end Follows

end CardTable.Ts
