import CardTable.Basis.Recognise
import CardTable.Basis.Unicode
import CardTable.Transaction
import CardTable.Ts.Types

/-!
# Ts.Serialisation — the canonical writer and reader

`packages/protocol-types/src/serialisation.ts`. A writer is the bytes
written so far, a reader the bytes that are left; each method of either
may throw. For each method of the writer there is what it appends, for
each of the reader the codes it accepts: a varint in any of its four
forms, a text in any valid UTF-8.
-/

namespace CardTable.Ts

open Basis Basis.Unicode

/-- `MAX_RESERVED_TRAILING`. -/
def maxReservedTrailing : Nat := 4096

/-- A string: its code units. -/
abbrev JsString := List UInt16

/-! ## CanonicalWriter -/

structure CanonicalWriter where
  buf : List UInt8
  deriving DecidableEq, Repr

namespace CanonicalWriter

def new : CanonicalWriter := ⟨[]⟩

def bytes (w : CanonicalWriter) : List UInt8 := w.buf

/-- The writer with more bytes: `writeRaw`. -/
def writeRaw (w : CanonicalWriter) (data : List UInt8) : CanonicalWriter := ⟨w.buf ++ data⟩

/-- `writeU8`, `writeU16LE`, `writeU32LE`: an integer in `k` bytes. -/
def writeUint (name : String) (k : Nat) (w : CanonicalWriter) (v : JsNumber) : Js CanonicalWriter :=
  if v.Within 0 (256 ^ k - 1) then .ok (w.writeRaw (putUintLE v.value.toNat k))
  else
    let got := v.text
    .halt s!"{name}: out of range: {got}"

def writeU8 : CanonicalWriter → JsNumber → Js CanonicalWriter := writeUint "writeU8" 1
def writeU16LE : CanonicalWriter → JsNumber → Js CanonicalWriter := writeUint "writeU16LE" 2
def writeU32LE : CanonicalWriter → JsNumber → Js CanonicalWriter := writeUint "writeU32LE" 4

def writeBool (w : CanonicalWriter) (v : Bool) : Js CanonicalWriter :=
  w.writeU8 (.integer (if v then 0x01 else 0x00))

def writeU64LE (w : CanonicalWriter) (v : JsNumber) : Js CanonicalWriter :=
  if v.Within 0 maxSafeInteger then .ok (w.writeRaw (putUintLE v.value.toNat 8))
  else
    let got := v.text
    .halt s!"writeU64LE: out of range or unsafe: {got}"

def writeI32LE (w : CanonicalWriter) (v : JsNumber) : Js CanonicalWriter :=
  if v.Within (-0x80000000) 0x7fffffff then
    w.writeU32LE (.integer (if v.value < 0 then v.value + 0x100000000 else v.value))
  else
    let got := v.text
    .halt s!"writeI32LE: out of range: {got}"

/-- `writeVarint` of a length. -/
def writeVarint (w : CanonicalWriter) (n : Nat) : Js CanonicalWriter :=
  if maxSafeInteger < n then .halt s!"writeVarint: out of range: {n}"
  else if n < 0xfd then w.writeU8 (.integer n)
  else if n ≤ 0xffff then do
    let w ← w.writeU8 (.integer 0xfd)
    w.writeU16LE (.integer n)
  else if n ≤ 0xffffffff then do
    let w ← w.writeU8 (.integer 0xfe)
    w.writeU32LE (.integer n)
  else do
    let w ← w.writeU8 (.integer 0xff)
    w.writeU64LE (.integer n)

def writeBytes (w : CanonicalWriter) (data : List UInt8) : Js CanonicalWriter := do
  let w ← w.writeVarint data.length
  pure (w.writeRaw data)

def writeUtf8 (w : CanonicalWriter) (s : JsString) : Js CanonicalWriter :=
  w.writeBytes (textEncode s)

end CanonicalWriter

/-! ## CanonicalReader -/

/-- The codes of the rejections a reader's caller makes. -/
inductive CodecErrorCode where
  | unsupportedVersion
  | invalidRuleSet
  | serialisationError
  deriving DecidableEq, Repr

structure CodecError where
  code : CodecErrorCode
  context : String
  deriving DecidableEq, Repr

/-- A method of the reader: what it makes of the bytes left, and the
bytes left after it. -/
abbrev CanonicalReader := StateT (List UInt8) (Outcome String CodecError)

namespace CanonicalReader

def need (n : Nat) : CanonicalReader Unit := fun left =>
  if left.length < n then
    let remaining := left.length
    .halt s!"CanonicalReader: short read (need {n}, have {remaining})"
  else .ok ((), left)

/-- The bytes under the offset, and the offset behind them. -/
def advance (n : Nat) : CanonicalReader (List UInt8) := fun left =>
  .ok (left.take n, left.drop n)

def throw {α : Type} (message : String) : CanonicalReader α := fun _ => .halt message

/-- `readU8`, `readU16LE`, `readU32LE`: an integer of `k` bytes. -/
def readUint (k : Nat) : CanonicalReader Nat := do
  need k
  let w ← advance k
  pure (uintLE w)

def readU8 : CanonicalReader Nat := readUint 1
def readU16LE : CanonicalReader Nat := readUint 2
def readU32LE : CanonicalReader Nat := readUint 4

def readBool : CanonicalReader Bool := do
  let b ← readU8
  if b = 0 then pure false
  else if b = 1 then pure true
  else throw s!"readBool: invalid byte {b}"

def readU64LE : CanonicalReader Nat := do
  need 8
  let lo ← readU32LE
  let hi ← readU32LE
  -- the sum of two doubles
  let v := roundNat (hi * 0x100000000 + lo)
  if maxSafeInteger < v then throw "readU64LE: value exceeds safe integer range"
  else pure v

def readVarint : CanonicalReader Nat := do
  let b ← readU8
  if b < 0xfd then pure b
  else if b = 0xfd then readU16LE
  else if b = 0xfe then readU32LE
  else readU64LE

def readRaw (n : Nat) : CanonicalReader (List UInt8) := do
  need n
  advance n

def readBytes (cap : Nat) : CanonicalReader (List UInt8) := do
  let n ← readVarint
  if cap < n then throw s!"readBytes: declared length {n} exceeds cap {cap}"
  else readRaw n

/-- `readUtf8`, with its default cap. -/
def readUtf8 : CanonicalReader JsString := do
  let bytes ← readBytes maxReservedTrailing
  match textDecode bytes with
  | none => throw "The encoded data was not valid for encoding utf-8"
  | some s => pure s

end CanonicalReader

/-! ## What the writer appends -/

/-- The bytes of a number. -/
def uint (v : JsNumber) (k : Nat) : List UInt8 := putUintLE v.value.toNat k

/-- The bytes of a number in two's complement. -/
def int32 (v : JsNumber) : List UInt8 := putUintLE (v.value % 0x100000000).toNat 4

namespace CanonicalWriter

variable {α : Type} {w : CanonicalWriter} {f : CanonicalWriter → Js α} {a : α} {v : JsNumber}

@[simp] theorem bytes_new : new.bytes = [] := rfl

@[simp] theorem bytes_writeRaw (data : List UInt8) : (w.writeRaw data).bytes = w.bytes ++ data := rfl

@[simp] theorem writeRaw_writeRaw (x y : List UInt8) :
    (w.writeRaw x).writeRaw y = w.writeRaw (x ++ y) := by
  simp [writeRaw]

theorem writeUint_eq {name : String} {k : Nat} (h : v.Within 0 (256 ^ k - 1)) :
    w.writeUint name k v = .ok (w.writeRaw (uint v k)) := if_pos h

theorem writeUint_bind {name : String} {k : Nat} : (w.writeUint name k v >>= f) = .ok a ↔
    v.Within 0 (256 ^ k - 1) ∧ f (w.writeRaw (uint v k)) = .ok a := by
  by_cases h : v.Within 0 (256 ^ k - 1)
  · simp [writeUint_eq h, h]
  · simp [writeUint, h]

@[simp] theorem writeU8_bind : (w.writeU8 v >>= f) = .ok a ↔
    v.Within 0 0xff ∧ f (w.writeRaw (uint v 1)) = .ok a := writeUint_bind

@[simp] theorem writeU32LE_bind : (w.writeU32LE v >>= f) = .ok a ↔
    v.Within 0 0xffffffff ∧ f (w.writeRaw (uint v 4)) = .ok a := writeUint_bind

@[simp] theorem writeU64LE_bind : (w.writeU64LE v >>= f) = .ok a ↔
    v.Within 0 maxSafeInteger ∧ f (w.writeRaw (uint v 8)) = .ok a := by
  by_cases h : v.Within 0 maxSafeInteger
  · simp [writeU64LE, h, uint]
  · simp [writeU64LE, h]

/-- **A signed number is written in two's complement.** -/
@[simp] theorem writeI32LE_bind : (w.writeI32LE v >>= f) = .ok a ↔
    v.Within (-0x80000000) 0x7fffffff ∧ f (w.writeRaw (int32 v)) = .ok a := by
  by_cases h : v.Within (-0x80000000) 0x7fffffff
  · obtain ⟨_, hlow, hhigh⟩ := h.integer
    have hmod : (if v.value < 0 then v.value + 0x100000000 else v.value) =
        v.value % 0x100000000 := by
      split
      · omega
      · omega
    have hin : (JsNumber.integer (v.value % 0x100000000)).Within 0 0xffffffff := by
      show 0 ≤ _ ∧ _ ≤ _
      omega
    rw [writeI32LE, if_pos h, hmod, writeU32LE_bind]
    simp only [h, hin, true_and]
    rfl
  · simp [writeI32LE, h]

@[simp] theorem writeBool_bind {b : Bool} : (w.writeBool b >>= f) = .ok a ↔
    f (w.writeRaw [if b then 1 else 0]) = .ok a := by
  cases b with
  | false => exact writeU8_bind.trans (and_iff_right (by decide))
  | true => exact writeU8_bind.trans (and_iff_right (by decide))

theorem putUintLE_one (n : Nat) : putUintLE n 1 = [UInt8.ofNat n] := by
  have hbyte : UInt8.ofNat (n % 256) = UInt8.ofNat n := UInt8.ofNat_mod_size
  simp [putUintLE, putUintBE, Sha256.bigEndian, hbyte]

/-- **A length is written in its shortest form.** -/
theorem writeVarint_eq {n : Nat} (h : n ≤ maxSafeInteger) :
    w.writeVarint n = .ok (w.writeRaw (Tx.varintBytes n)) := by
  have hin : ∀ high : Int, (n : Int) ≤ high → (JsNumber.integer n).Within 0 high := by
    intro high hle
    exact ⟨Int.natCast_nonneg n, hle⟩
  rw [writeVarint, if_neg (Nat.not_lt.mpr h), Tx.varintBytes]
  by_cases h1 : n < 0xfd
  · rw [if_pos h1, if_pos h1, ← putUintLE_one]
    exact writeUint_eq (hin _ (by omega))
  · rw [if_neg h1, if_neg h1]
    by_cases h2 : n ≤ 0xffff
    · rw [if_pos h2, if_pos h2, writeU8_bind.mpr ⟨by decide, writeUint_eq (hin _ (by omega))⟩,
        writeRaw_writeRaw]
      rfl
    · rw [if_neg h2, if_neg h2]
      by_cases h3 : n ≤ 0xffffffff
      · rw [if_pos h3, if_pos h3, writeU8_bind.mpr ⟨by decide, writeUint_eq (hin _ (by omega))⟩,
          writeRaw_writeRaw]
        rfl
      · have hlast : ∀ w : CanonicalWriter, w.writeU64LE (.integer n) =
            .ok (w.writeRaw (uint (.integer n) 8)) := fun w => if_pos (hin _ (by omega))
        rw [if_neg h3, if_neg h3, writeU8_bind.mpr ⟨by decide, hlast _⟩, writeRaw_writeRaw]
        rfl

@[simp] theorem writeUtf8_bind {s : JsString} : (w.writeUtf8 s >>= f) = .ok a ↔
    (textEncode s).length ≤ maxSafeInteger ∧
      f (w.writeRaw (Tx.varintBytes (textEncode s).length ++ textEncode s)) = .ok a := by
  by_cases h : (textEncode s).length ≤ maxSafeInteger
  · simp [writeUtf8, writeBytes, writeVarint_eq h, h]
  · rw [writeUtf8, writeBytes, writeVarint, if_pos (Nat.not_le.mp h)]
    simp [h]

end CanonicalWriter

/-! ## What the reader accepts -/

/-- A varint: the first byte says how many follow. -/
def VarintCode (n : Nat) (w : List UInt8) : Prop :=
  ∃ first more, w = first :: more ∧ Tx.varintWidth first = more.length ∧ Tx.varintValue w = n

theorem varintCode_varintBytes {n : Nat} (h : n < 256 ^ 8) : VarintCode n (Tx.varintBytes n) := by
  obtain ⟨first, more, hraw, hwidth, hvalue⟩ := Tx.varintBytes_form h
  exact ⟨first, more, hraw, hwidth, by rw [hraw, hvalue]⟩

/-- A varint says where it ends, whichever form it has. -/
theorem varintCode_inj {m n : Nat} {x y r s : List UInt8} (hx : VarintCode m x)
    (hy : VarintCode n y) (h : x ++ r = y ++ s) : x = y ∧ m = n ∧ r = s := by
  obtain ⟨first, more, rfl, hwidth, hm⟩ := hx
  obtain ⟨first', more', rfl, hwidth', hn⟩ := hy
  obtain ⟨rfl, hrest⟩ := List.cons.inj h
  obtain ⟨rfl, rfl⟩ := List.append_inj hrest (hwidth.symm.trans hwidth')
  exact ⟨rfl, hm.symm.trans hn, rfl⟩

namespace CanonicalReader

theorem throw_ne_ok {α : Type} (message : String) (xs : List UInt8) (r : α × List UInt8) :
    (throw message : CanonicalReader α) xs ≠ .ok r := nofun

/-- Bytes that are there. -/
theorem recognises_readRaw (n : Nat) :
    Recognises (readRaw n) fun bytes w => bytes.length = n ∧ w = bytes := by
  intro xs bytes rest
  have hread : readRaw n xs = (need n xs >>= fun r => advance n r.2) := rfl
  rw [hread, need]
  split
  · rename_i hshort
    refine iff_of_false nofun ?_
    rintro ⟨w, ⟨hlen, rfl⟩, rfl⟩
    rw [List.length_append] at hshort
    omega
  · rename_i hlong
    rw [Outcome.ok_bind, advance]
    constructor
    · intro h
      cases h
      exact ⟨xs.take n, ⟨List.length_take_of_le (Nat.not_lt.mp hlong), rfl⟩,
        (List.take_append_drop n xs).symm⟩
    · rintro ⟨w, ⟨hlen, rfl⟩, rfl⟩
      subst hlen
      rw [List.take_left, List.drop_left]

theorem recognises_readUint (k : Nat) :
    Recognises (readUint k) fun n w => n < 256 ^ k ∧ w = putUintLE n k := by
  have hread : readUint k = (readRaw k >>= fun w => pure (uintLE w)) := by
    simp only [readUint, readRaw, bind_assoc]
  rw [hread]
  refine (recognises_readRaw k).map.congr fun n w => ?_
  constructor
  · rintro ⟨bytes, ⟨hlen, rfl⟩, rfl⟩
    exact ⟨hlen ▸ uintLE_lt w, (putUintLE_uintLE hlen).symm⟩
  · rintro ⟨hn, rfl⟩
    refine ⟨_, ⟨length_putUintLE n k, rfl⟩, ?_⟩
    rw [uintLE_putUintLE, Nat.mod_eq_of_lt hn]

theorem recognises_readU8 : Recognises readU8 fun n w => n < 256 ∧ w = putUintLE n 1 :=
  recognises_readUint 1

theorem recognises_readU32LE :
    Recognises readU32LE fun n w => n < 4294967296 ∧ w = putUintLE n 4 := recognises_readUint 4

theorem recognises_readBool : Recognises readBool fun b w => w = [if b then 1 else 0] := by
  refine (recognises_readU8.bind (E := fun n b w => n = (if b then 1 else 0) ∧ w = [])
    fun n => ?_).congr fun b w => ?_
  · by_cases h0 : n = 0
    · rw [if_pos h0, h0]
      refine (Recognises.pure false).congr fun b w => ?_
      cases b with
      | false => simp
      | true => simp
    · rw [if_neg h0]
      by_cases h1 : n = 1
      · rw [if_pos h1, h1]
        refine (Recognises.pure true).congr fun b w => ?_
        cases b with
        | false => simp
        | true => simp
      · rw [if_neg h1]
        intro xs b rest
        refine iff_of_false (throw_ne_ok _ _ _) ?_
        rintro ⟨w, ⟨hn, -⟩, -⟩
        cases b with
        | false => exact h0 hn
        | true => exact h1 hn
  · constructor
    · rintro ⟨n, u, v, ⟨-, rfl⟩, ⟨rfl, rfl⟩, rfl⟩
      cases b with
      | false => rfl
      | true => rfl
    · rintro rfl
      cases b with
      | false => exact ⟨0, [0], [], ⟨by decide, by decide⟩, ⟨rfl, rfl⟩, rfl⟩
      | true => exact ⟨1, [1], [], ⟨by decide, by decide⟩, ⟨rfl, rfl⟩, rfl⟩

/-- A look ahead at no more bytes than a code has. -/
theorem recognises_need {α : Type} {n : Nat} {d : CanonicalReader α}
    {C : α → List UInt8 → Prop} (hd : Recognises d C) (hlen : ∀ a w, C a w → n ≤ w.length) :
    Recognises (need n >>= fun _ => d) C := by
  intro xs a rest
  have hstep : (need n >>= fun _ => d) xs = (need n xs >>= fun r => d r.2) := rfl
  rw [hstep, need]
  split
  · rename_i hshort
    refine iff_of_false nofun ?_
    rintro ⟨w, hw, rfl⟩
    have hle := hlen a w hw
    rw [List.length_append] at hshort
    omega
  · exact hd xs a rest

/-- **An amount is safe**: rounding makes no unsafe sum safe. -/
theorem recognises_readU64LE :
    Recognises readU64LE fun n w => n ≤ maxSafeInteger ∧ w = putUintLE n 8 := by
  have hsum : ∀ lo hi : Nat, Recognises
      (if maxSafeInteger < roundNat (hi * 0x100000000 + lo) then
        throw "readU64LE: value exceeds safe integer range"
      else pure (roundNat (hi * 0x100000000 + lo)) : CanonicalReader Nat) _ :=
    fun lo hi => .guard (throw_ne_ok _) (.pure (roundNat (hi * 0x100000000 + lo)))
  have hwords := recognises_readU32LE.bind fun lo => recognises_readU32LE.bind fun hi => hsum lo hi
  refine recognises_need (hwords.congr fun n w => ?_) ?_
  · constructor
    · rintro ⟨lo, u, v, ⟨hlo, rfl⟩, ⟨hi, u', v', ⟨hhi, rfl⟩, ⟨hsafe, rfl, rfl⟩, rfl⟩, rfl⟩
      have hle : hi * 0x100000000 + lo ≤ maxSafeInteger :=
        Nat.not_lt.mp fun hlt => hsafe (lt_roundNat hlt)
      rw [roundNat_eq_self hle, List.append_nil, putUintLE_append hlo hhi]
      exact ⟨hle, by congr 1; omega⟩
    · rintro ⟨hle, rfl⟩
      have hhi : n / 4294967296 < 4294967296 := by
        have hmax : maxSafeInteger = 9007199254740991 := rfl
        omega
      have hlo : n % 4294967296 < 4294967296 := Nat.mod_lt _ (by decide)
      have hsplit : n / 4294967296 * 0x100000000 + n % 4294967296 = n := by omega
      refine ⟨_, _, _, ⟨hlo, rfl⟩, ⟨_, _, [], ⟨hhi, rfl⟩, ⟨?_, ?_, rfl⟩, rfl⟩, ?_⟩
      · rw [hsplit, roundNat_eq_self hle]
        omega
      · rw [hsplit, roundNat_eq_self hle]
      · rw [List.append_nil, putUintLE_append hlo hhi]
        congr 1
        omega
  · rintro n w ⟨-, rfl⟩
    rw [length_putUintLE]

/-- The width a first byte announces. -/
theorem varintWidth_ofNat {b : Nat} (h : b < 256) : Tx.varintWidth (UInt8.ofNat b) =
    if b < 0xfd then 0 else if b = 0xfd then 2 else if b = 0xfe then 4 else 8 := by
  have hval : (UInt8.ofNat b).toNat = b := UInt8.toNat_ofNat_of_lt' h
  have heq : ∀ c : UInt8, UInt8.ofNat b = c ↔ b = c.toNat := by
    intro c
    rw [← UInt8.toNat_inj, hval]
  simp only [Tx.varintWidth, UInt8.lt_iff_toNat_lt, hval, heq]
  rfl

/-- The rest of a varint behind its first byte. -/
theorem recognises_more {b k : Nat} {d : CanonicalReader Nat} {high : Nat}
    (hd : Recognises d fun n w => n ≤ high ∧ w = putUintLE n k) (hk : 0 < k)
    (hwidth : Tx.varintWidth (UInt8.ofNat b) = k) (hfits : high < 256 ^ k)
    (hhigh : ∀ n < 256 ^ k, n ≤ high ↔ n ≤ maxSafeInteger) :
    Recognises d fun n w => VarintCode n (UInt8.ofNat b :: w) ∧ n ≤ maxSafeInteger := by
  refine hd.congr fun n w => ?_
  constructor
  · rintro ⟨hn, rfl⟩
    have hlt : n < 256 ^ k := Nat.lt_of_le_of_lt hn hfits
    refine ⟨⟨_, _, rfl, ?_, ?_⟩, (hhigh n hlt).mp hn⟩
    · rw [hwidth, length_putUintLE]
    · rw [Tx.varintValue_cons (by rwa [length_putUintLE]), uintLE_putUintLE, Nat.mod_eq_of_lt hlt]
  · rintro ⟨⟨first, more, hcons, hlen, hvalue⟩, hsafe⟩
    obtain ⟨rfl, rfl⟩ := List.cons.inj hcons
    rw [hwidth] at hlen
    rw [Tx.varintValue_cons (by omega)] at hvalue
    have hlt := uintLE_lt w
    rw [hvalue, ← hlen] at hlt
    refine ⟨(hhigh n hlt).mpr hsafe, ?_⟩
    rw [← hvalue, putUintLE_uintLE hlen.symm]

/-- A number that fits its bytes, by its largest value. -/
theorem recognises_le {k : Nat} (high : Nat) (h : 256 ^ k = high + 1) :
    Recognises (readUint k) fun n w => n ≤ high ∧ w = putUintLE n k := by
  refine (recognises_readUint k).congr fun n w => ?_
  rw [h, Nat.lt_succ_iff]

/-- **A varint is read in any of its forms.** -/
theorem recognises_readVarint :
    Recognises readVarint fun n w => VarintCode n w ∧ n ≤ maxSafeInteger := by
  have hmax : maxSafeInteger = 9007199254740991 := rfl
  refine (recognises_readU8.bind_of (E := fun b n w =>
    VarintCode n (UInt8.ofNat b :: w) ∧ n ≤ maxSafeInteger) ?_).congr ?_
  · rintro b _ ⟨hb, -⟩
    have hwidth := varintWidth_ofNat hb
    by_cases h1 : b < 0xfd
    · rw [if_pos h1] at hwidth ⊢
      refine (Recognises.pure b).congr fun n w => ?_
      have hval : (UInt8.ofNat b).toNat = b := UInt8.toNat_ofNat_of_lt' hb
      constructor
      · rintro ⟨rfl, rfl⟩
        exact ⟨⟨_, [], rfl, hwidth, hval⟩, by omega⟩
      · rintro ⟨⟨first, more, hcons, hlen, hvalue⟩, -⟩
        obtain ⟨rfl, rfl⟩ := List.cons.inj hcons
        rw [hwidth] at hlen
        obtain rfl := List.length_eq_zero_iff.mp hlen.symm
        exact ⟨hvalue.symm.trans hval, rfl⟩
    · rw [if_neg h1] at hwidth ⊢
      by_cases h2 : b = 0xfd
      · rw [if_pos h2] at hwidth ⊢
        refine recognises_more (recognises_le 0xffff rfl) (by omega) hwidth (by omega) ?_
        intro n hn
        omega
      · rw [if_neg h2] at hwidth ⊢
        by_cases h3 : b = 0xfe
        · rw [if_pos h3] at hwidth ⊢
          refine recognises_more (recognises_le 0xffffffff rfl) (by omega) hwidth
            (by omega) ?_
          intro n hn
          omega
        · rw [if_neg h3] at hwidth ⊢
          exact recognises_more recognises_readU64LE (by omega) hwidth (by decide) fun n _ => .rfl
  · intro n w
    constructor
    · rintro ⟨b, _, v, ⟨hb, rfl⟩, hcode, rfl⟩
      rwa [CanonicalWriter.putUintLE_one]
    · rintro ⟨⟨first, more, rfl, hform⟩, hsafe⟩
      have hback : UInt8.ofNat first.toNat = first := UInt8.ofNat_toNat
      refine ⟨first.toNat, [first], more, ⟨first.toNat_lt, ?_⟩, ⟨⟨first, more, ?_, ?_⟩, hsafe⟩, rfl⟩
      · rw [CanonicalWriter.putUintLE_one, hback]
      · rw [hback]
      · rwa [hback]

end CanonicalReader

/-! ## Texts on the wire -/

/-- A text as it stands in a buffer: the bytes of its length, and its
own. -/
structure RawText where
  size : List UInt8
  data : List UInt8
  deriving DecidableEq, Repr

namespace RawText

def bytes (t : RawText) : List UInt8 := t.size ++ t.data

/-- The length is the length. -/
def Sized (t : RawText) : Prop := VarintCode t.data.length t.size

/-- What the writer makes of a string. -/
def ofString (s : JsString) : RawText := ⟨Tx.varintBytes (textEncode s).length, textEncode s⟩

/-- The reader reads the string off it. -/
structure Reads (t : RawText) (s : JsString) : Prop where
  sized : t.Sized
  capped : t.data.length ≤ maxReservedTrailing
  decodes : textDecode t.data = some s

theorem sized_ofString {s : JsString} (h : (textEncode s).length ≤ maxSafeInteger) :
    (ofString s).Sized :=
  varintCode_varintBytes (Nat.lt_of_le_of_lt h (by decide))

/-- A text says where it ends. -/
theorem bytes_inj {t u : RawText} {r s : List UInt8} (ht : t.Sized) (hu : u.Sized)
    (h : t.bytes ++ r = u.bytes ++ s) : t = u ∧ r = s := by
  obtain ⟨size, data⟩ := t
  obtain ⟨size', data'⟩ := u
  simp only [bytes, List.append_assoc] at h
  obtain ⟨hsize, hlen, hrest⟩ := varintCode_inj ht hu h
  obtain ⟨hdata, hrest⟩ := List.append_inj hrest hlen
  dsimp only at hsize hdata
  exact ⟨by rw [hsize, hdata], hrest⟩

end RawText

theorem CanonicalReader.recognises_readUtf8 :
    Recognises readUtf8 fun s w => ∃ t : RawText, t.Reads s ∧ w = t.bytes := by
  have hbytes := recognises_readVarint.bind fun n =>
    Recognises.guard (p := maxReservedTrailing < n)
      (throw_ne_ok s!"readBytes: declared length {n} exceeds cap {maxReservedTrailing}")
      (recognises_readRaw n)
  have hdecode : ∀ data : List UInt8, Recognises
      (match textDecode data with
        | none => throw "The encoded data was not valid for encoding utf-8"
        | some s => pure s : CanonicalReader JsString)
      fun s w => textDecode data = some s ∧ w = [] := by
    intro data
    cases textDecode data with
    | none =>
        intro xs s rest
        refine iff_of_false (throw_ne_ok _ _ _) ?_
        rintro ⟨w, ⟨hnone, -⟩, -⟩
        cases hnone
    | some s =>
        refine (Recognises.pure s).congr fun s' w => ?_
        simp [eq_comm]
  refine (hbytes.bind hdecode).congr fun s w => ?_
  constructor
  · rintro ⟨data, u, v, ⟨n, size, data', ⟨hform, -⟩, ⟨hcap, hlen, rfl⟩, rfl⟩, ⟨hs, rfl⟩, rfl⟩
    refine ⟨⟨size, data'⟩, ⟨?_, ?_, hs⟩, List.append_nil _⟩
    · rwa [RawText.Sized, hlen]
    · show data'.length ≤ _
      omega
  · rintro ⟨⟨size, data⟩, ⟨hform, hcap, hs⟩, rfl⟩
    have hsafe : data.length ≤ maxSafeInteger := Nat.le_trans hcap (by decide)
    exact ⟨data, size ++ data, [], ⟨data.length, size, data, ⟨hform, hsafe⟩,
      ⟨Nat.not_lt.mpr hcap, rfl, rfl⟩, rfl⟩, ⟨hs, rfl⟩, (List.append_nil _).symm⟩

end CardTable.Ts
