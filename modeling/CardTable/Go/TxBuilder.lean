import CardTable.Transaction

/-!
# Go.TxBuilder — transactions in Go

`apps/relay-go/pkg/txbuilder/encode.go`. Lengths are `uint64`s that are
converted to `int` and added to a position before they are compared:
conversion and sum wrap. `make` panics on a length that is negative or
asks for more than `maxAlloc` bytes; a slice of a program is no longer
than that.
-/

namespace CardTable.Go

open Basis Tx

/-- The most the runtime allocates at once, on 64-bit machines. -/
def maxAlloc : Nat := 2 ^ 48

/-- A `[]byte`. -/
abbrev Slice := { b : List UInt8 // b.length ≤ maxAlloc }

/-- A number as an `int` holds it. -/
def int (n : Int) : Int := n.bmod (2 ^ 64)

/-- What stops a goroutine in this package. -/
inductive Panic where
  | makeSliceLen
  | sliceBounds
  deriving DecidableEq, Repr

/-! ## Encoders -/

/-- `EncVarint`. -/
def encVarint (n : UInt64) : List UInt8 :=
  if n < 0xfd then [n.toUInt8]
  else if n ≤ 0xffff then 0xfd :: putUintLE n.toUInt16.toNat 2
  else if n ≤ 0xffffffff then 0xfe :: putUintLE n.toUInt32.toNat 4
  else 0xff :: putUintLE n.toNat 8

def encU32LE (n : UInt32) : List UInt8 := putUintLE n.toNat 4

def encI32LE (n : Int32) : List UInt8 := putUintLE n.toUInt32.toNat 4

def encU64LE (n : UInt64) : List UInt8 := putUintLE n.toNat 8

/-- The loop over the inputs, from input `i` on. -/
def encodeInputs (i : Nat) : List TxInput → Except String (List UInt8)
  | [] => .ok []
  | input :: rest =>
      if input.prevTxid.length ≠ 32 then
        let got := input.prevTxid.length
        .error s!"EncodeBsvTransaction: input {i} prevTxid must be 32 bytes, got {got}"
      else do
        let parts ← encodeInputs (i + 1) rest
        .ok (input.prevTxid ++ encU32LE input.prevVout ++
          encVarint (UInt64.ofNat input.unlockingScript.length) ++ input.unlockingScript ++
          encU32LE input.sequence ++ parts)

/-- The turn of the loop over the outputs. -/
def encodeOutput (o : TxOutput) : List UInt8 :=
  encU64LE o.value ++ encVarint (UInt64.ofNat o.lockingScript.length) ++ o.lockingScript

/-- `EncodeBsvTransaction`. -/
def encodeBsvTransaction (tx : BsvTransaction) : Except String (List UInt8) := do
  let inputs ← encodeInputs 0 tx.inputs
  .ok (encI32LE tx.version ++ encVarint (UInt64.ofNat tx.inputs.length) ++ inputs ++
    encVarint (UInt64.ofNat tx.outputs.length) ++ (tx.outputs.map encodeOutput).flatten ++
    encU32LE tx.lockTime)

/-- `ComputeTxId`. -/
def computeTxId (tx : BsvTransaction) : Except String (List UInt8) := do
  let b ← encodeBsvTransaction tx
  .ok (sha256d b)

/-! ## Decoders -/

/-- A method of `cursor`, with its position. -/
abbrev CursorM := StateT Nat (Outcome Panic String)

/-- `fmt.Errorf("context: %w", err)`. -/
def wrap {α : Type} (context : String) (d : CursorM α) : CursorM α := fun pos =>
  match d pos with
  | .err e => .err s!"{context}: {e}"
  | .ok r => .ok r
  | .halt k => .halt k

/-- `make` of a slice with elements of `size` bytes. -/
def makeSlice (size : Nat) (n : Int) : CursorM Unit := fun pos =>
  if n < 0 ∨ (maxAlloc : Int) < size * n then .halt .makeSliceLen else .ok ((), pos)

section Decoders

variable (buf : List UInt8)

def readU8 : CursorM UInt8 := fun pos =>
  match buf[pos]? with
  | none => .err "decode: out of bounds u8"
  | some b => .ok (b, pos + 1)

/-- The slice expression in `readN`. -/
def sliceFrom (n : Int) : CursorM (List UInt8) := fun pos =>
  if int (pos + n) < pos ∨ (buf.length : Int) < int (pos + n) then .halt .sliceBounds
  else .ok ((buf.drop pos).take n.toNat, pos + n.toNat)

/-- `readN`. -/
def readN (n : Int) : CursorM (List UInt8) := fun pos =>
  if (buf.length : Int) < int (pos + n) then
    let have_ := buf.length - pos
    .err s!"decode: out of bounds bytes (want {n}, have {have_})"
  else (do makeSlice 1 n; sliceFrom buf n) pos

def readU16LE : CursorM UInt16 := do
  let b ← readN buf 2
  pure (UInt16.ofNat (uintLE b))

def readU32LE : CursorM UInt32 := do
  let b ← readN buf 4
  pure (UInt32.ofNat (uintLE b))

def readU64LE : CursorM UInt64 := do
  let b ← readN buf 8
  pure (UInt64.ofNat (uintLE b))

/-- `readVarint`. -/
def readVarint : CursorM UInt64 :=
  switchVarint (readU8 buf) (fun first => pure first.toUInt64)
    (do return (← readU16LE buf).toUInt64) (do return (← readU32LE buf).toUInt64) (readU64LE buf)

/-- A script of the input or output `what`, its length first. -/
def readScript (what : String) : CursorM (List UInt8) := do
  let scriptLen ← wrap s!"{what} scriptLen" (readVarint buf)
  wrap s!"{what} script" (readN buf (int scriptLen.toNat))

/-- The turn of the loop for input `i`. -/
def readInput (i : Nat) : CursorM TxInput := do
  let prevTxid ← wrap s!"input {i} prevTxid" (readN buf 32)
  let prevVout ← wrap s!"input {i} prevVout" (readU32LE buf)
  let unlockingScript ← readScript buf s!"input {i}"
  let sequence ← wrap s!"input {i} sequence" (readU32LE buf)
  pure ⟨prevTxid, prevVout, unlockingScript, sequence⟩

/-- The turn of the loop for output `i`. -/
def readOutput (i : Nat) : CursorM TxOutput := do
  let value ← wrap s!"output {i} value" (readU64LE buf)
  let lockingScript ← readScript buf s!"output {i}"
  pure ⟨value, lockingScript⟩

/-- The sizes of `TxInput` and `TxOutput`. -/
def inputSize : Nat := 64

def outputSize : Nat := 32

/-- A count, the `make` it goes to, and the loop over the slice. -/
def readCounted {α : Type} (context : String) (size : Nat) (read : Nat → CursorM α) :
    CursorM (List α) := do
  let count ← wrap context (readVarint buf)
  makeSlice size count.toNat
  countedLoop read 0 count.toNat

/-- The comparison at the end of `DecodeBsvTransaction`. -/
def checkConsumed : CursorM Unit := fun pos =>
  if pos ≠ buf.length then
    let size := buf.length
    .err s!"DecodeBsvTransaction: trailing bytes ({pos} of {size} consumed)"
  else .ok ((), pos)

/-- The version, read as a `uint32`. -/
def readVersion : CursorM Int32 := do
  let versionU ← wrap "decode version" (readU32LE buf)
  pure versionU.toInt32

/-- `DecodeBsvTransaction`, the cursor exposed. -/
def decodeCursor : CursorM BsvTransaction := do
  let version ← readVersion buf
  let inputs ← readCounted buf "decode input_count" inputSize (readInput buf)
  let outputs ← readCounted buf "decode output_count" outputSize (readOutput buf)
  let lockTime ← wrap "decode lockTime" (readU32LE buf)
  checkConsumed buf
  pure ⟨version, inputs, outputs, lockTime⟩

end Decoders

/-- `DecodeBsvTransaction`. -/
def decodeBsvTransaction (buf : Slice) : Outcome Panic String BsvTransaction := do
  let (tx, _) ← decodeCursor buf.1 0
  pure tx

/-! ## Encoding gives the canonical bytes -/

/-- A length that is no longer than 64 bits is converted as it is. -/
theorem encVarint_ofNat {n : Nat} (h : n < 256 ^ 8) : encVarint (UInt64.ofNat n) = varintBytes n := by
  have hval : (UInt64.ofNat n).toNat = n := UInt64.toNat_ofNat_of_lt' h
  have hlt : UInt64.ofNat n < 0xfd ↔ n < 0xfd := by
    rw [UInt64.lt_iff_toNat_lt, hval]
    rfl
  have hword : UInt64.ofNat n ≤ 0xffff ↔ n ≤ 0xffff := by
    rw [UInt64.le_iff_toNat_le, hval]
    rfl
  have hlong : UInt64.ofNat n ≤ 0xffffffff ↔ n ≤ 0xffffffff := by
    rw [UInt64.le_iff_toNat_le, hval]
    rfl
  simp only [encVarint, varintBytes, hlt, hword, hlong, UInt64.toNat_toUInt16,
    UInt64.toNat_toUInt32, hval]
  split
  · rw [show (UInt64.ofNat n).toUInt8 = UInt8.ofNat n from UInt8.toNat_inj.mp (by simp)]
  split
  · rw [Nat.mod_eq_of_lt (by omega)]
  split
  · rw [Nat.mod_eq_of_lt (by omega)]
  · rfl

theorem encodeInputs_eq {inputs : List TxInput} (h : ∀ i ∈ inputs, i.prevTxid.length = 32)
    (hlen : ∀ i ∈ inputs, i.unlockingScript.length < 256 ^ 8) (n : Nat) :
    encodeInputs n inputs = .ok (inputs.flatMap inputBytes) := by
  induction inputs generalizing n with
  | nil => rfl
  | cons i inputs ih =>
      obtain ⟨hi, hrest⟩ := List.forall_mem_cons.mp h
      obtain ⟨hil, hrestl⟩ := List.forall_mem_cons.mp hlen
      rw [encodeInputs, if_neg (not_not.mpr hi), ih hrest hrestl, encVarint_ofNat hil]
      show Except.ok _ = _
      simp only [List.flatMap_cons, inputBytes, scriptBytes, List.append_assoc]
      rfl

theorem encodeOutput_eq {o : TxOutput} (h : o.lockingScript.length < 256 ^ 8) :
    encodeOutput o = outputBytes o := by
  rw [encodeOutput, encVarint_ofNat h]
  simp only [List.append_assoc]
  rfl

/-- A transaction whose lengths are `uint64`s is encoded to its canonical
bytes. -/
theorem encodeBsvTransaction_eq {tx : BsvTransaction} {n : Nat} (h : Bounded n tx)
    (hn : n < 256 ^ 8) : encodeBsvTransaction tx = .ok (txBytes tx) := by
  have hall : tx.outputs.map encodeOutput = tx.outputs.map outputBytes :=
    List.map_congr_left fun o ho => encodeOutput_eq (Nat.lt_of_le_of_lt (h.locking o ho) hn)
  rw [encodeBsvTransaction,
    encodeInputs_eq h.prevTxids (fun i hi => Nat.lt_of_le_of_lt (h.unlocking i hi) hn) 0, hall,
    encVarint_ofNat (Nat.lt_of_le_of_lt h.inputs hn),
    encVarint_ofNat (Nat.lt_of_le_of_lt h.outputs hn), ← List.flatMap_def]
  show Except.ok _ = _
  simp only [List.append_assoc]
  rfl

/-! ## Decoding follows the walk -/

/-- A length the decoder can use: a count of elements the runtime can
allocate, a script that ends at a position that is an `int`. -/
def Fits (f : LengthField) : Prop :=
  match f.site with
  | .inputCount => inputSize * f.value ≤ maxAlloc
  | .outputCount => outputSize * f.value ≤ maxAlloc
  | .script => f.position + f.value < 2 ^ 63

instance (f : LengthField) : Decidable (Fits f) :=
  match f with
  | ⟨.inputCount, _, value, _⟩ => inferInstanceAs (Decidable (inputSize * value ≤ maxAlloc))
  | ⟨.outputCount, _, value, _⟩ => inferInstanceAs (Decidable (outputSize * value ≤ maxAlloc))
  | ⟨.script, _, value, position⟩ => inferInstanceAs (Decidable (position + value < 2 ^ 63))

section Follows

variable {buf : List UInt8}

/-- A decoder returns an error where the walk fails, and panics where a
length does not fit. -/
abbrev Ends {α : Type} (buf : List UInt8) (walked : List LengthField × Option (α × Nat))
    (ended : Outcome Panic String (α × Nat)) : Prop :=
  Outcome.Agrees buf.length Fits (fun s => s.isLeft = true)
    (fun s => s.isRight = true) walked ended

abbrev Follows {α : Type} (buf : List UInt8) (m : Walk LengthField α) (d : CursorM α) : Prop :=
  Walk.Follows buf.length Fits (fun s => s.isLeft = true) (fun s => s.isRight = true) m d

/-- `readN` of a number of bytes that, with the position, is an `int`. -/
theorem readN_eq (hbuf : buf.length ≤ maxAlloc) {p n : Nat} (hfits : p + n < 2 ^ 63) :
    (p + n ≤ buf.length → readN buf (int n) p = .ok ((buf.drop p).take n, p + n)) ∧
      (buf.length < p + n → ∃ e, readN buf (int n) p = .err e) := by
  have hn : int n = n := by
    rw [int, Int.bmod_def]
    omega
  have hsum : int (p + n) = p + n := by
    rw [int, Int.bmod_def]
    omega
  rw [hn]
  constructor
  · intro hle
    have hmake : makeSlice 1 (n : Int) p = .ok ((), p) := if_neg (by omega)
    have hslice : sliceFrom buf (n : Int) p = .ok ((buf.drop p).take n, p + n) := by
      rw [sliceFrom, hsum, if_neg (by omega), Int.toNat_natCast]
    rw [readN, hsum, if_neg (by omega)]
    rw [cursor_bind_ok hmake, hslice]
  · intro hgt
    rw [readN, hsum, if_pos (by omega)]
    exact ⟨_, rfl⟩

/-- Where it is not, `readN` passes its check and panics in `make`. -/
theorem readN_panics (hbuf : buf.length ≤ maxAlloc) {p n : Nat} (hp : p ≤ buf.length)
    (hn : n < 2 ^ 64) (hwide : 2 ^ 63 ≤ p + n) :
    readN buf (int n) p = .halt .makeSliceLen := by
  simp only [maxAlloc] at hbuf
  -- the length or the sum has wrapped below zero
  have hcheck : ¬((buf.length : Int) < int (p + int n)) := by
    rw [int, int, Int.bmod_def, Int.bmod_def]
    omega
  have hmake : makeSlice 1 (int n) p = .halt .makeSliceLen := by
    refine if_pos ?_
    rw [int, Int.bmod_def]
    simp only [maxAlloc]
    omega
  rw [readN, if_neg hcheck]
  show (makeSlice 1 (int n) p >>= fun r => sliceFrom buf (int n) r.2) = _
  rw [hmake, Outcome.halt_bind]

theorem follows_readN (hbuf : buf.length ≤ maxAlloc) {n : Nat} (hn : n ≤ 32) :
    Follows buf (Walk.take buf n) (readN buf n) := by
  intro p hp
  have hfits : p + n < 2 ^ 63 := by
    simp only [maxAlloc] at hbuf
    omega
  obtain ⟨hok, herr⟩ := readN_eq hbuf hfits
  rw [show int (n : Int) = n by rw [int, Int.bmod_def]; omega] at hok herr
  unfold Walk.take
  by_cases hle : p + n ≤ buf.length
  · rw [if_pos hle, hok hle]
    exact .value (fun _ hf => nomatch hf) hle
  · obtain ⟨e, he⟩ := herr (by omega)
    rw [if_neg hle, he]
    exact .failed (fun _ hf => nomatch hf) rfl rfl

/-- A context is put in front of an error; nothing else changes. -/
theorem Ends.wrap {α : Type} {walked : List LengthField × Option (α × Nat)} {d : CursorM α}
    {p : Nat} (context : String) (h : Ends buf walked (d p)) :
    Ends buf walked (wrap context d p) := by
  unfold Go.wrap
  generalize d p = ended at h
  cases h with
  | value hnotes hq => exact .value hnotes hq
  | failed hnotes hstop hfails =>
      rename_i s
      cases ended with
      | ok r => cases hstop
      | err e => exact .failed hnotes rfl rfl
      | halt k =>
          cases hstop
          cases hfails
  | broken hx hbad hstop hbreaks =>
      cases ended with
      | ok r => cases hstop
      | err e =>
          cases hstop
          cases hbreaks
      | halt k => exact .broken hx hbad rfl rfl

theorem Follows.wrap {α : Type} {m : Walk LengthField α} {d : CursorM α} (context : String)
    (h : Follows buf m d) : Follows buf m (wrap context d) :=
  fun p hp => Ends.wrap context (h p hp)

theorem follows_u32 (hbuf : buf.length ≤ maxAlloc) : Follows buf (u32 buf) (readU32LE buf) :=
  (follows_readN hbuf (n := 4) (by decide)).bind fun w => .pure (UInt32.ofNat (uintLE w))

theorem follows_u64 (hbuf : buf.length ≤ maxAlloc) : Follows buf (u64 buf) (readU64LE buf) :=
  (follows_readN hbuf (n := 8) (by decide)).bind fun w => .pure (UInt64.ofNat (uintLE w))

/-- A word of the buffer. -/
theorem readsUint_readN (hbuf : buf.length ≤ maxAlloc) {α : Type} {k : Nat} (hk : k ≤ 32)
    (f : Nat → α) : ReadsUint buf (fun s => s.isLeft = true) f k
      (do let w ← readN buf k; pure (f (uintLE w)) : CursorM α) := by
  intro p hp
  have hfits : p + k < 2 ^ 63 := by
    simp only [maxAlloc] at hbuf
    omega
  obtain ⟨hok, herr⟩ := readN_eq hbuf hfits
  rw [show int (k : Int) = k by rw [int, Int.bmod_def]; omega] at hok herr
  split
  · rename_i hle
    exact cursor_bind_ok (hok hle)
  · rename_i hgt
    obtain ⟨e, he⟩ := herr (by omega)
    have hstop : (readN buf k p).stop? = some (.inl e) := by
      rw [he]
      rfl
    exact ⟨_, cursor_bind_stop hstop _, rfl⟩

/-- `readVarint` gives what the bytes of the varint say. -/
theorem readVarint_eq (hbuf : buf.length ≤ maxAlloc) {p : Nat} (hp : p ≤ buf.length) :
    match (varint buf p).2 with
    | some (raw, q) => readVarint buf p = .ok (UInt64.ofNat (varintValue raw), q)
    | none => ∃ s, (readVarint buf p).stop? = some s ∧ s.isLeft = true := by
  refine switchVarint_eq ?_ ?_ ?_ ((readsUint_readN hbuf (k := 2) (by decide) UInt16.ofNat).map ?_)
    ((readsUint_readN hbuf (k := 4) (by decide) UInt32.ofNat).map ?_)
    (readsUint_readN hbuf (k := 8) (by decide) UInt64.ofNat) hp
  · intro p hlt
    rw [readU8, List.getElem?_eq_getElem hlt]
  · rw [readU8, List.getElem?_eq_none (Nat.le_refl _)]
    exact ⟨_, rfl, rfl⟩
  · intro b p
    show Outcome.ok (b.toUInt64, p) = _
    rw [UInt64.ofNat_uInt8ToNat]
  · intro n hn
    rw [← UInt64.ofNat_uInt16ToNat, UInt16.toNat_ofNat_of_lt' hn]
  · intro n hn
    rw [← UInt64.ofNat_uInt32ToNat, UInt32.toNat_ofNat_of_lt' hn]

/-- A varint that could be read. -/
theorem readVarint_some (hbuf : buf.length ≤ maxAlloc) {p q : Nat} (hp : p ≤ buf.length)
    {notes : List LengthField} {raw : List UInt8} (h : varint buf p = (notes, some (raw, q)))
    (context : String) : q ≤ buf.length ∧
      ∃ v : UInt64, wrap context (readVarint buf) p = .ok (v, q) ∧ v.toNat = varintValue raw := by
  have hread := readVarint_eq hbuf hp
  rw [h] at hread
  obtain ⟨hat, rfl, -, -⟩ := varint_inv h
  refine ⟨hat.le, _, ?_, UInt64.toNat_ofNat_of_lt' (varintValue_lt h)⟩
  rw [wrap, hread]

/-- A varint that could not. -/
theorem readVarint_none (hbuf : buf.length ≤ maxAlloc) {p : Nat} (hp : p ≤ buf.length)
    {notes : List LengthField} (h : varint buf p = (notes, none)) (context : String) :
    ∃ s, (wrap context (readVarint buf) p).stop? = some s ∧ s.isLeft = true := by
  have hread := readVarint_eq hbuf hp
  rw [h] at hread
  obtain ⟨s, hstop, hfails⟩ := hread
  rw [wrap]
  generalize readVarint buf p = ended at hstop
  cases ended with
  | ok r => cases hstop
  | err e => exact ⟨_, rfl, rfl⟩
  | halt k =>
      cases hstop
      cases hfails

/-- A length, its note, and what is done with it. -/
theorem follows_length (hbuf : buf.length ≤ maxAlloc) {α : Type} {site : Site} (context : String)
    {k : Nat → Walk LengthField α} {l : UInt64 → CursorM α}
    (h : ∀ (raw : List UInt8) (v : UInt64), ∀ q ≤ buf.length,
      Ends buf (⟨site, raw, v.toNat, q⟩ :: (k v.toNat q).1, (k v.toNat q).2) (l v q)) :
    Follows buf (lengthField buf site >>= k) (wrap context (readVarint buf) >>= l) := by
  intro p hp
  cases hraw : varint buf p with
  | mk notes result =>
      obtain rfl := varint_notes hraw
      cases result with
      | none =>
          obtain ⟨s, hstop, hfails⟩ := readVarint_none hbuf hp hraw context
          have hfield : lengthField buf site p = ([], none) := Walk.bind_none hraw
          rw [Walk.bind_none hfield]
          exact .failed (fun _ hx => nomatch hx) (cursor_bind_stop hstop _) hfails
      | some r =>
          obtain ⟨hq, v, hread, hv⟩ := readVarint_some hbuf hp hraw context
          have hfield : lengthField buf site p =
              ([⟨site, r.1, varintValue r.1, r.2⟩], some (varintValue r.1, r.2)) :=
            Walk.bind_then hraw rfl
          rw [Walk.bind_some hfield, cursor_bind_ok hread, ← hv]
          exact h r.1 v r.2 hq

/-- A script breaks the decoder off when its end is no `int`. -/
theorem follows_script (hbuf : buf.length ≤ maxAlloc) (what : String) :
    Follows buf (script buf) (readScript buf what) := by
  refine follows_length hbuf _ fun raw v q hq => Ends.wrap _ ?_
  by_cases hfits : q + v.toNat < 2 ^ 63
  · obtain ⟨hok, herr⟩ := readN_eq hbuf hfits
    unfold Walk.take
    by_cases hle : q + v.toNat ≤ buf.length
    · rw [if_pos hle, hok hle]
      exact .value (List.forall_mem_singleton.mpr hfits) hle
    · obtain ⟨e, he⟩ := herr (by omega)
      rw [if_neg hle, he]
      exact .failed (List.forall_mem_singleton.mpr hfits) rfl rfl
  · rw [readN_panics hbuf hq v.toNat_lt (by omega)]
    exact .broken List.mem_cons_self hfits rfl rfl

/-- A count breaks it off when `make` does. -/
theorem follows_counted (hbuf : buf.length ≤ maxAlloc) {α : Type} {m : Walk LengthField α}
    {read : Nat → CursorM α} (context : String) {size : Nat} {site : Site}
    (hsite : ∀ raw n q, Fits ⟨site, raw, n, q⟩ ↔ size * n ≤ maxAlloc)
    (hread : ∀ i, Follows buf m (read i)) :
    Follows buf (lengthField buf site >>= Walk.times m) (readCounted buf context size read) := by
  refine follows_length hbuf context fun raw v q hq => ?_
  by_cases hfits : size * v.toNat ≤ maxAlloc
  · have hmake : makeSlice size v.toNat q = .ok ((), q) := by
      refine if_neg ?_
      rw [← Int.natCast_mul]
      omega
    rw [cursor_bind_ok hmake]
    have hloop : Ends buf (Walk.times m v.toNat q) (countedLoop read 0 v.toNat q) :=
      Walk.Follows.times hread 0 v.toNat q hq
    exact hloop.notes (List.forall_mem_singleton.mpr ((hsite ..).mpr hfits))
  · have hmake : makeSlice size v.toNat q = .halt .makeSliceLen := by
      refine if_pos ?_
      rw [← Int.natCast_mul]
      omega
    have hstop : (makeSlice size v.toNat q).stop? = some (.inr .makeSliceLen) := by
      rw [hmake]
      rfl
    exact .broken List.mem_cons_self (mt (hsite ..).mp hfits) (cursor_bind_stop hstop _) rfl

theorem follows_input (hbuf : buf.length ≤ maxAlloc) (i : Nat) :
    Follows buf (input buf) (readInput buf i) :=
  ((follows_readN hbuf (n := 32) (by decide)).wrap _).bind fun _ =>
    ((follows_u32 hbuf).wrap _).bind fun _ => (follows_script hbuf _).bind fun _ =>
      ((follows_u32 hbuf).wrap _).bind fun _ => .pure _

theorem follows_output (hbuf : buf.length ≤ maxAlloc) (i : Nat) :
    Follows buf (output buf) (readOutput buf i) :=
  ((follows_u64 hbuf).wrap _).bind fun _ => (follows_script hbuf _).bind fun _ => .pure _

theorem follows_transaction (hbuf : buf.length ≤ maxAlloc) :
    Follows buf (transaction buf) (decodeCursor buf) := by
  have hdone : Follows buf (Walk.done buf) (checkConsumed buf) := by
    intro p hp
    unfold Walk.done checkConsumed
    by_cases hend : p = buf.length
    · rw [if_pos hend, if_neg (not_not.mpr hend)]
      exact .value (fun _ hx => nomatch hx) hp
    · rw [if_neg hend, if_pos hend]
      exact .failed (fun _ hx => nomatch hx) rfl rfl
  have hinputSite : ∀ raw n q, Fits ⟨.inputCount, raw, n, q⟩ ↔ inputSize * n ≤ maxAlloc :=
    fun _ _ _ => Iff.rfl
  have houtputSite : ∀ raw n q, Fits ⟨.outputCount, raw, n, q⟩ ↔ outputSize * n ≤ maxAlloc :=
    fun _ _ _ => Iff.rfl
  have hinputs := follows_counted hbuf "decode input_count" hinputSite (follows_input hbuf)
  have houtputs := follows_counted hbuf "decode output_count" houtputSite (follows_output hbuf)
  have hversion : Follows buf (i32 buf) (readVersion buf) :=
    ((follows_u32 hbuf).wrap _).bind fun v => .pure v.toInt32
  exact hversion.bind fun _ => hinputs.bind fun _ => houtputs.bind fun _ =>
    ((follows_u32 hbuf).wrap _).bind fun _ => hdone.bind fun _ => .pure _

end Follows

/-- **What decodes**: the texts the walk reads a transaction off, when
every length in them fits. -/
theorem decodeBsvTransaction_eq_ok {b : Slice} {tx : BsvTransaction} :
    decodeBsvTransaction b = .ok tx ↔
      (∃ q, (transaction b.1 0).2 = some (tx, q)) ∧ ∀ f ∈ lengthFields b.1, Fits f := by
  have hends := follows_transaction b.2 0 (Nat.zero_le _)
  rw [decodeBsvTransaction, Outcome.bind_eq_ok]
  constructor
  · rintro ⟨⟨_, q⟩, hr, hlast⟩
    cases hlast
    obtain ⟨hread, hfits⟩ := hends.eq_ok_iff.mp hr
    exact ⟨⟨q, hread⟩, hfits⟩
  · rintro ⟨⟨q, hq⟩, hfits⟩
    exact ⟨_, hends.eq_ok_iff.mpr ⟨hq, hfits⟩, rfl⟩

end CardTable.Go
