import CardTable.Basis.Script
import CardTable.Ts.CryptoCards

/-!
# Ts.ScriptWriter — how the templates write scripts

`packages/script-templates/src`: `opcodes.ts`, `writer.ts` and
`locktime.ts`. A writer is the bytes written so far; each method appends
to them or throws. For the arguments the templates pass, a method
appends the bytes of one item of a script.
-/

namespace CardTable.Ts

open Basis Basis.Script

/-! ## opcodes.ts -/

namespace OP

def OP_0 : Nat := 0x00
def OP_1NEGATE : Nat := 0x4f
def OP_1 : Nat := 0x51
def OP_IF : Nat := 0x63
def OP_ELSE : Nat := 0x67
def OP_ENDIF : Nat := 0x68
def OP_RETURN : Nat := 0x6a
def OP_EQUALVERIFY : Nat := 0x88
def OP_SHA256 : Nat := 0xa8
def OP_HASH256 : Nat := 0xaa
def OP_CHECKSIG : Nat := 0xac
def OP_CHECKMULTISIG : Nat := 0xae

end OP

/-- `opNumber`. -/
def opNumber (n : Int) : Js Nat :=
  if n = 0 then .ok OP.OP_0
  else if n < 1 ∨ 16 < n then .halt s!"opNumber: only 0..16 representable as OP_N (got {n})"
  else .ok (OP.OP_1 + (n.toNat - 1))

/-! ## writer.ts -/

/-- The loop of `encodeScriptNum`: the low byte of `v`, then the rest by
`v >>>= 8`, which keeps 32 bits. -/
def scriptNumBytes (v : Nat) : List UInt8 :=
  if v = 0 then [] else UInt8.ofNat v :: scriptNumBytes (v % 4294967296 / 256)
termination_by v
decreasing_by omega

/-- `encodeScriptNum` of an integer. -/
def encodeScriptNum (n : Int) : Js (List UInt8) :=
  if n = 0 then .ok []
  else
    let out := scriptNumBytes n.natAbs
    match out.getLast? with
    | none => .halt "encodeScriptNum: indexing failure"
    | some last =>
        if 128 ≤ last.toNat then .ok (out ++ [if n < 0 then 0x80 else 0x00])
        else if n < 0 then .ok (out.dropLast ++ [UInt8.ofNat (last.toNat + 128)])
        else .ok out

/-- `hexToBytes`. -/
def hexToBytes (hex : String) : Js (List UInt8) :=
  if (codeUnits hex).length % 2 ≠ 0 then .halt "hexToBytes: odd length"
  else match fromHexUnits 0 (codeUnits hex) with
  | .error offset =>
      let i := offset / 2
      .halt s!"hexToBytes: non-hex at {i}"
  | .ok bytes => .ok bytes

/-- `ScriptWriter`. -/
structure ScriptWriter where
  buf : List UInt8
  deriving DecidableEq, Repr

namespace ScriptWriter

/-- A writer that has written nothing. -/
def new : ScriptWriter := ⟨[]⟩

/-- The writer with more bytes. -/
def put (w : ScriptWriter) (bytes : List UInt8) : ScriptWriter := ⟨w.buf ++ bytes⟩

def bytes (w : ScriptWriter) : List UInt8 := w.buf

def op (w : ScriptWriter) (code : Nat) : Js ScriptWriter :=
  if 0xff < code then .halt s!"ScriptWriter.op: byte out of range {code}"
  else .ok (w.put [UInt8.ofNat code])

/-- Push data in its shortest form. -/
def pushData (w : ScriptWriter) (data : List UInt8) : ScriptWriter :=
  let n := data.length
  match data with
  | [] => w.put [0x00]
  | [b] =>
      if 1 ≤ b.toNat ∧ b.toNat ≤ 16 then w.put [UInt8.ofNat (OP.OP_1 + b.toNat - 1)]
      else if b = 0x81 then w.put [UInt8.ofNat OP.OP_1NEGATE]
      else w.put [1, b]
  | data =>
      if n ≤ 75 then w.put (UInt8.ofNat n :: data)
      else if n ≤ 255 then w.put (0x4c :: UInt8.ofNat n :: data)
      else if n ≤ 65535 then w.put (0x4d :: UInt8.ofNat n :: UInt8.ofNat (n / 256) :: data)
      else
        w.put (0x4e :: UInt8.ofNat n :: UInt8.ofNat (n / 256) :: UInt8.ofNat (n / 65536) ::
          UInt8.ofNat (n / 16777216) :: data)

/-- Push an integer: `OP_N` up to 16, a script number above. -/
def pushNumber (w : ScriptWriter) (n : Int) : Js ScriptWriter :=
  if 0 ≤ n ∧ n ≤ 16 then do
    let code ← opNumber n
    pure (w.put [UInt8.ofNat code])
  else do
    let data ← encodeScriptNum n
    pure (w.pushData data)

def pushPubkey (w : ScriptWriter) (hex : String) : Js ScriptWriter :=
  if isPubkey33 hex = false then
    .halt s!"pushPubkey: expected 33-byte compressed pubkey, got {hex}"
  else do
    let data ← hexToBytes hex
    pure (w.pushData data)

def pushHash32 (w : ScriptWriter) (hex : String) : Js ScriptWriter :=
  if isHex64 hex = false then .halt s!"pushHash32: expected 32 bytes of hex, got {hex}"
  else do
    let data ← hexToBytes hex
    pure (w.pushData data)

/-- `for (const pk of keys) w.pushPubkey(pk)`. -/
def pushPubkeys (w : ScriptWriter) : List String → Js ScriptWriter
  | [] => .ok w
  | pk :: rest => do
      let w ← w.pushPubkey pk
      w.pushPubkeys rest

end ScriptWriter

/-! ## locktime.ts -/

/-- `LockTimeSpec` of the script templates. -/
inductive ScriptLockTimeSpec where
  | immediate
  | absoluteHeight (notBeforeHeight : SafeNat) (inputSequence : Nat)
  | relativeBlocks (blocksSinceInputConfirmation : Int)
  deriving DecidableEq, Repr

/-- `absoluteHeight`, with its default input sequence. -/
def absoluteHeight (h : SafeNat) : ScriptLockTimeSpec := .absoluteHeight h 0

def relativeBlocks (blocks : JsNumber) : Js ScriptLockTimeSpec :=
  match blocks with
  | .integer n =>
      if n < 1 then .halt s!"relativeBlocks: must be a positive integer (got {n})"
      else .ok (.relativeBlocks n)
  | .other shown => .halt s!"relativeBlocks: must be a positive integer (got {shown})"

/-! ## What the writer appends -/

/-- The item a number up to 16 is pushed by. -/
def number (n : Nat) : Item := if n = 0 then .push [] else .op (UInt8.ofNat (0x50 + n))

theorem toNat_numberCode {n : Nat} (h : n ≤ 16) :
    (UInt8.ofNat (0x50 + n)).toNat = 0x50 + n := by
  rw [UInt8.toNat_ofNat']
  omega

/-- The opcode of a number is none that announces data. -/
theorem numberCode_gt {n : Nat} (h : n ≤ 16) : (78 : UInt8) < UInt8.ofNat (0x50 + n) := by
  rw [UInt8.lt_iff_toNat_lt, toNat_numberCode h, show (78 : UInt8).toNat = 78 from rfl]
  omega

/-- Nor is it that of -1. -/
theorem numberCode_ne {n : Nat} (h : n ≤ 16) : UInt8.ofNat (0x50 + n) ≠ 0x4f := by
  intro heq
  have hval := congrArg UInt8.toNat heq
  rw [toNat_numberCode h, show (0x4f : UInt8).toNat = 79 from rfl] at hval
  omega

/-- The opcode gives its number back. -/
theorem numberCode_sub {b : UInt8} (h : b.toNat ≤ 16) : UInt8.ofNat (0x50 + b.toNat) - 0x50 = b := by
  apply UInt8.toNat_inj.mp
  rw [UInt8.toNat_sub, toNat_numberCode h, show (0x50 : UInt8).toNat = 80 from rfl]
  omega

/-- The bytes of a hex text. -/
def hexBytes (hex : String) : List UInt8 := (Hex.decode hex).getD []

/-- The bytes of a hex text, pushed. -/
def data (hex : String) : Item := .push (hexBytes hex)

theorem hexBytes_eq {hex : String} {bytes : List UInt8} (h : Hex.decode hex = some bytes) :
    hexBytes hex = bytes := by
  rw [hexBytes, h, Option.getD_some]

/-- The text of some bytes stands for them. -/
theorem hexBytes_encode (bytes : List UInt8) : hexBytes (Hex.encode bytes) = bytes :=
  hexBytes_eq (Hex.decode_encode bytes)

theorem length_hexBytes_hash {hash : String} (h : isHex64 hash = true) :
    (hexBytes hash).length = 32 := by
  obtain ⟨bytes, hbytes, hlen⟩ := decodes_of_isHex64 h
  rw [hexBytes_eq hbytes, hlen]

/-- A key decodes to 33 bytes. -/
theorem decodes_of_isPubkey33 {key : String} (h : isPubkey33 key = true) :
    ∃ bytes, Hex.decode key = some bytes ∧ bytes.length = 33 := by
  have hlen := (pubkey_chars h).1
  unfold isPubkey33 at h
  split at h
  · rename_i zero parity tail hkey
    simp only [Bool.and_eq_true, Bool.or_eq_true, beq_iff_eq, decide_eq_true_eq,
      List.all_eq_true] at h
    obtain ⟨⟨hzero, hparity⟩, _, htail⟩ := h
    have hdigits : ∀ c ∈ key.toList, ∃ v, Hex.digitVal? c.toNat = some v := by
      rw [hkey, List.forall_mem_cons, List.forall_mem_cons]
      refine ⟨?_, ?_, fun c hc => Hex.digitVal?_isSome (htail c hc)⟩
      · rw [hzero]
        exact ⟨0, rfl⟩
      · rcases hparity with rfl | rfl
        · exact ⟨2, rfl⟩
        · exact ⟨3, rfl⟩
    obtain ⟨bytes, hbytes⟩ := Hex.decodeChars_isSome (by rw [hlen]) hdigits
    have hdouble := (Hex.ascii_of_decodeChars hbytes).1
    exact ⟨bytes, hbytes, by omega⟩
  · cases h

theorem length_hexBytes_pubkey {key : String} (h : isPubkey33 key = true) :
    (hexBytes key).length = 33 := by
  obtain ⟨bytes, hbytes, hlen⟩ := decodes_of_isPubkey33 h
  rw [hexBytes_eq hbytes, hlen]

/-- What decodes as hex `hexToBytes` reads. -/
theorem hexToBytes_of_decode {hex : String} {bytes : List UInt8}
    (h : Hex.decode hex = some bytes) : hexToBytes hex = .ok bytes := by
  obtain ⟨hlen, hascii⟩ := Hex.ascii_of_decodeChars h
  have heven : (codeUnits hex).length % 2 = 0 := by
    rw [codeUnits, units_of_ascii hascii, List.length_map]
    omega
  have hunits : fromHexUnits 0 (codeUnits hex) = .ok bytes := fromHexUnits_of_decodeChars h 0
  simp [hexToBytes, heven, hunits]

namespace ScriptWriter

variable {w : ScriptWriter}

/-- The writer after an item. -/
def emit (w : ScriptWriter) (item : Item) : ScriptWriter := w.put item.bytes

@[simp] theorem bytes_new : new.bytes = [] := rfl

@[simp] theorem bytes_put (bytes : List UInt8) : (w.put bytes).bytes = w.bytes ++ bytes := rfl

@[simp] theorem bytes_emit (item : Item) : (w.emit item).bytes = w.bytes ++ item.bytes := rfl

/-- Data of two to 75 bytes are pushed by their length. -/
theorem pushData_emit {bytes : List UInt8} (hlow : 2 ≤ bytes.length) (hhigh : bytes.length ≤ 75) :
    w.pushData bytes = w.emit (.push bytes) := by
  match bytes, hlow with
  | b :: c :: rest, _ =>
      have hform : w.pushData (b :: c :: rest) =
          if (b :: c :: rest).length ≤ 75 then
            w.put (UInt8.ofNat (b :: c :: rest).length :: b :: c :: rest)
          else _ := rfl
      rw [hform, if_pos hhigh]
      rfl

theorem pushNumber_eq {n : Nat} (h : n ≤ 16) :
    w.pushNumber (n : Int) = .ok (w.emit (number n)) := by
  have hrange : (0 : Int) ≤ n ∧ (n : Int) ≤ 16 := by omega
  rw [pushNumber, if_pos hrange]
  by_cases hzero : n = 0
  · subst hzero
    rfl
  · have hnum : opNumber n = .ok (0x50 + n) := by
      have hsmall : ¬((n : Int) < 1 ∨ 16 < (n : Int)) := by omega
      have hcode : OP.OP_1 + ((n : Int).toNat - 1) = 0x50 + n := by
        simp only [OP.OP_1, Int.toNat_natCast]
        omega
      rw [opNumber, if_neg (by omega), if_neg hsmall, hcode]
    rw [hnum, number, if_neg hzero]
    rfl

theorem pushPubkey_eq {key : String} (h : isPubkey33 key = true) :
    w.pushPubkey key = .ok (w.emit (data key)) := by
  obtain ⟨bytes, hbytes, hlen⟩ := decodes_of_isPubkey33 h
  rw [pushPubkey, if_neg (by simp [h]), hexToBytes_of_decode hbytes, Outcome.ok_bind,
    pushData_emit (by omega) (by omega), data, hexBytes_eq hbytes]
  rfl

theorem pushHash32_eq {hash : String} (h : isHex64 hash = true) :
    w.pushHash32 hash = .ok (w.emit (data hash)) := by
  obtain ⟨bytes, hbytes, hlen⟩ := decodes_of_isHex64 h
  rw [pushHash32, if_neg (by simp [h]), hexToBytes_of_decode hbytes, Outcome.ok_bind,
    pushData_emit (by omega) (by omega), data, hexBytes_eq hbytes]
  rfl

end ScriptWriter

/-! ## Any data -/

/-- The item data are pushed by: an opcode for one byte that is a small
number. -/
def pushed : List UInt8 → Item
  | [b] =>
      if 1 ≤ b.toNat ∧ b.toNat ≤ 16 then .op (UInt8.ofNat (0x50 + b.toNat))
      else if b = 0x81 then .op 0x4f
      else .push [b]
  | data => .push data

/-- One byte is pushed by an opcode when it is a small number. -/
theorem pushData_one (w : ScriptWriter) (b : UInt8) :
    ∃ bytes, w.pushData [b] = w.put bytes ∧ Codes bytes [pushed [b]] := by
  by_cases hsmall : 1 ≤ b.toNat ∧ b.toNat ≤ 16
  · refine ⟨[UInt8.ofNat (0x50 + b.toNat)], ?_, ?_⟩
    · rw [ScriptWriter.pushData, if_pos hsmall]
      congr 4
      simp only [OP.OP_1]
      omega
    · rw [pushed, if_pos hsmall]
      exact Codes.opcode (numberCode_gt hsmall.2)
  · by_cases hminus : b = 0x81
    · refine ⟨[0x4f], ?_, ?_⟩
      · rw [ScriptWriter.pushData, if_neg hsmall, if_pos hminus]
        rfl
      · rw [pushed, if_neg hsmall, if_pos hminus]
        exact Codes.opcode (by decide)
    · refine ⟨[1, b], ?_, ?_⟩
      · rw [ScriptWriter.pushData, if_neg hsmall, if_neg hminus]
      · rw [pushed, if_neg hsmall, if_neg hminus]
        exact Codes.direct (show [b].length ≤ 75 from Nat.le_of_ble_eq_true rfl)

/-- Longer data are pushed by a length of one, two or four bytes behind
an opcode when their own length byte would be one. -/
theorem pushData_many (w : ScriptWriter) {data : List UInt8} (hlow : 2 ≤ data.length)
    (hhigh : data.length < 256 ^ 4) :
    ∃ bytes, w.pushData data = w.put bytes ∧ Codes bytes [.push data] := by
  have hform : w.pushData data =
      if data.length ≤ 75 then w.put (UInt8.ofNat data.length :: data)
      else if data.length ≤ 255 then w.put (0x4c :: UInt8.ofNat data.length :: data)
      else if data.length ≤ 65535 then
        w.put (0x4d :: UInt8.ofNat data.length :: UInt8.ofNat (data.length / 256) :: data)
      else
        w.put (0x4e :: UInt8.ofNat data.length :: UInt8.ofNat (data.length / 256) ::
          UInt8.ofNat (data.length / 65536) :: UInt8.ofNat (data.length / 16777216) :: data) := by
    match data, hlow with
    | b :: c :: rest, _ => rfl
  rw [hform]
  by_cases h1 : data.length ≤ 75
  · rw [if_pos h1]
    exact ⟨_, rfl, Codes.direct h1⟩
  · rw [if_neg h1]
    by_cases h2 : data.length ≤ 255
    · rw [if_pos h2]
      have hsize : uintLE [UInt8.ofNat data.length] = data.length := by
        simp [uintLE, uintBE]
        omega
      exact ⟨_, rfl, Codes.counted (fun _ => rfl) rfl hsize⟩
    · rw [if_neg h2]
      by_cases h3 : data.length ≤ 65535
      · rw [if_pos h3]
        have hsize : uintLE [UInt8.ofNat data.length, UInt8.ofNat (data.length / 256)] =
            data.length := by
          simp [uintLE, uintBE]
          omega
        exact ⟨_, rfl, Codes.counted (fun _ => rfl) rfl hsize⟩
      · rw [if_neg h3]
        have hsize : uintLE [UInt8.ofNat data.length, UInt8.ofNat (data.length / 256),
            UInt8.ofNat (data.length / 65536), UInt8.ofNat (data.length / 16777216)] =
            data.length := by
          simp [uintLE, uintBE]
          omega
        exact ⟨_, rfl, Codes.counted (fun _ => rfl) rfl hsize⟩

/-- **Data of every length are read back**: the bytes `pushData` appends
stand for one item. -/
theorem pushData_codes (w : ScriptWriter) {data : List UInt8} (h : data.length < 256 ^ 4) :
    ∃ bytes, w.pushData data = w.put bytes ∧ Codes bytes [pushed data] := by
  match data with
  | [] => exact ⟨[0x00], rfl, Codes.direct (Nat.zero_le 75)⟩
  | [b] => exact pushData_one w b
  | b :: c :: rest => exact pushData_many w (by simp) h

end CardTable.Ts
