import CardTable.Basis.Bits32
import CardTable.Ts.Serialisation

/-!
# Ts.Buffer — the canonical writer and reader on their buffers

`packages/protocol-types/src/serialisation.ts` again, as it works in
memory. The writer has a buffer of some capacity, which it doubles when a
write does not fit, and an offset; the reader has the whole of its bytes
and an offset in them. Numbers are taken apart and put together with the
operators on 32-bit words. `Ts.Serialisation` has the same classes without
a buffer. Memory is not bounded here.
-/

namespace CardTable.Ts

open Basis Basis.Bits32

/-! ## CanonicalWriter -/

/-- `CanonicalWriter` with its buffer. -/
structure BufferWriter where
  buf : List UInt8
  offset : Nat
  deriving DecidableEq, Repr

namespace BufferWriter

/-- `new CanonicalWriter(initialCapacity)`. -/
def new (initialCapacity : Nat) : BufferWriter := ⟨List.replicate initialCapacity 0, 0⟩

def bytes (w : BufferWriter) : List UInt8 := w.buf.take w.offset

/-- `while (cap < required) cap *= 2`, for so many rounds at most. -/
def growFor : Nat → Nat → Nat → Nat
  | 0, cap, _ => cap
  | rounds + 1, cap, required =>
      if cap < required then growFor rounds (cap * 2) required else cap

/-- The loop from a capacity above 0: it does not take more rounds than
bytes are required. -/
def grow (cap required : Nat) : Nat := growFor required cap required

/-- `ensure`. A buffer without a capacity is doubled for ever. -/
def ensure (w : BufferWriter) (extra : Nat) : Js BufferWriter :=
  let required := w.offset + extra
  if required ≤ w.buf.length then .ok w
  else if w.buf.length = 0 then .halt "ensure: doubling a capacity of 0 does not end"
  else
    let cap := grow (w.buf.length * 2) required
    .ok { w with buf := w.buf ++ List.replicate (cap - w.buf.length) 0 }

/-- `this.buf[this.offset++] = v`; an element behind the end is not
stored. -/
def store (w : BufferWriter) (v : Int) : BufferWriter :=
  ⟨w.buf.set w.offset (toByte v), w.offset + 1⟩

def writeU8 (w : BufferWriter) (v : JsNumber) : Js BufferWriter :=
  if v.Within 0 0xff then do
    let w ← w.ensure 1
    pure (w.store v.value)
  else
    let got := v.text
    .halt s!"writeU8: out of range: {got}"

def writeBool (w : BufferWriter) (v : Bool) : Js BufferWriter :=
  w.writeU8 (.integer (if v then 0x01 else 0x00))

def writeU16LE (w : BufferWriter) (v : JsNumber) : Js BufferWriter :=
  if v.Within 0 0xffff then do
    let w ← w.ensure 2
    let w := w.store (and v.value 0xff)
    pure (w.store (and (shiftRight v.value 8) 0xff))
  else
    let got := v.text
    .halt s!"writeU16LE: out of range: {got}"

def writeU32LE (w : BufferWriter) (v : JsNumber) : Js BufferWriter :=
  if v.Within 0 0xffffffff then do
    let w ← w.ensure 4
    let w := w.store (and v.value 0xff)
    let w := w.store (and (shiftRightUnsigned v.value 8) 0xff)
    let w := w.store (and (shiftRightUnsigned v.value 16) 0xff)
    pure (w.store (and (shiftRightUnsigned v.value 24) 0xff))
  else
    let got := v.text
    .halt s!"writeU32LE: out of range: {got}"

/-- `writeU64LE`. The quotient by a power of two is a double, so its floor
is that of the integers. -/
def writeU64LE (w : BufferWriter) (v : JsNumber) : Js BufferWriter :=
  if v.Within 0 maxSafeInteger then do
    let w ← w.ensure 8
    let lo := shiftRightUnsigned v.value 0
    let hi := shiftRightUnsigned (v.value / 0x100000000) 0
    let w := w.store (and lo 0xff)
    let w := w.store (and (shiftRightUnsigned lo 8) 0xff)
    let w := w.store (and (shiftRightUnsigned lo 16) 0xff)
    let w := w.store (and (shiftRightUnsigned lo 24) 0xff)
    let w := w.store (and hi 0xff)
    let w := w.store (and (shiftRightUnsigned hi 8) 0xff)
    let w := w.store (and (shiftRightUnsigned hi 16) 0xff)
    pure (w.store (and (shiftRightUnsigned hi 24) 0xff))
  else
    let got := v.text
    .halt s!"writeU64LE: out of range or unsafe: {got}"

def writeVarint (w : BufferWriter) (n : JsNumber) : Js BufferWriter :=
  if n.Within 0 maxSafeInteger then
    if n.value < 0xfd then w.writeU8 n
    else if n.value ≤ 0xffff then do
      let w ← w.writeU8 (.integer 0xfd)
      w.writeU16LE n
    else if n.value ≤ 0xffffffff then do
      let w ← w.writeU8 (.integer 0xfe)
      w.writeU32LE n
    else do
      let w ← w.writeU8 (.integer 0xff)
      w.writeU64LE n
  else
    let got := n.text
    .halt s!"writeVarint: out of range: {got}"

/-- `this.buf.set(data, this.offset)` and the offset behind the data. -/
def copy (w : BufferWriter) (data : List UInt8) : Js BufferWriter :=
  if w.offset + data.length ≤ w.buf.length then
    .ok ⟨w.buf.take w.offset ++ data ++ w.buf.drop (w.offset + data.length),
      w.offset + data.length⟩
  else .halt "RangeError: offset is out of bounds"

def writeRaw (w : BufferWriter) (data : List UInt8) : Js BufferWriter := do
  let w ← w.ensure data.length
  w.copy data

def writeBytes (w : BufferWriter) (data : List UInt8) : Js BufferWriter := do
  let w ← w.writeVarint (.integer data.length)
  w.writeRaw data

end BufferWriter

/-! ## CanonicalReader -/

/-- A method of `CanonicalReader` on its buffer: what it makes of the
offset, and the offset after it. -/
abbrev BufferReader := StateT Nat (Outcome String CodecError)

namespace BufferReader

def throw {α : Type} (message : String) : BufferReader α := fun _ => .halt message

section Buffer

variable (buf : List UInt8)

/-- `remaining`. -/
def remaining (offset : Nat) : Int := (buf.length : Int) - offset

def need (n : Int) : BufferReader Unit := fun offset =>
  let remaining := remaining buf offset
  if remaining < n then
    .halt s!"CanonicalReader: short read (need {n}, have {remaining})"
  else .ok ((), offset)

/-- `this.buf[this.offset + i]`, which has to be there. -/
def byteAt (i : Nat) : BufferReader Int := fun offset =>
  match buf[offset + i]? with
  | none => .halt "CanonicalReader: indexing failure"
  | some b => .ok (b.toNat, offset)

/-- `this.offset += n`. -/
def skip (n : Nat) : BufferReader Unit := fun offset => .ok ((), offset + n)

def readU8 : BufferReader Int := do
  need buf 1
  let v ← byteAt buf 0
  skip 1
  pure v

def readBool : BufferReader Bool := do
  let b ← readU8 buf
  if b = 0 then pure false
  else if b = 1 then pure true
  else throw s!"readBool: invalid byte {b}"

def readU16LE : BufferReader Int := do
  need buf 2
  let a ← byteAt buf 0
  let b ← byteAt buf 1
  skip 2
  pure (or a (shiftLeft b 8))

def readU32LE : BufferReader Int := do
  need buf 4
  let a ← byteAt buf 0
  let b ← byteAt buf 1
  let c ← byteAt buf 2
  let d ← byteAt buf 3
  skip 4
  pure (shiftRightUnsigned
    (or (or (or a (shiftLeft b 8)) (shiftLeft c 16)) (shiftLeft d 24)) 0)

def readU64LE : BufferReader Int := do
  need buf 8
  let lo ← readU32LE buf
  let hi ← readU32LE buf
  -- a product by a power of two is a double; the sum is rounded
  let v := toDouble (hi * 0x100000000 + lo)
  if isSafeInteger v then pure v
  else throw "readU64LE: value exceeds safe integer range"

def readVarint : BufferReader Int := do
  let b ← readU8 buf
  if b < 0xfd then pure b
  else if b = 0xfd then readU16LE buf
  else if b = 0xfe then readU32LE buf
  else readU64LE buf

def readRaw (n : Nat) : BufferReader (List UInt8) := do
  need buf n
  fun offset => .ok ((buf.take (offset + n)).drop offset, offset + n)

/-- `readBytes`, with its default cap. -/
def readBytes : BufferReader (List UInt8) := do
  let n ← readVarint buf
  if (maxSafeInteger : Int) < n then
    throw s!"readBytes: declared length {n} exceeds cap {maxSafeInteger}"
  else readRaw buf n.toNat

end Buffer

end BufferReader

end CardTable.Ts
