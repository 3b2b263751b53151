import CardTable.Basis.Der
import CardTable.Basis.Hex
import CardTable.Ts.Types

/-!
# Ts.Sign — signatures of inputs

`packages/tx-builder/src/sign.ts`. The curve itself is a library the
repository does not hold: what it signs with and verifies by are
parameters here. Around it the file writes the two integers of a
signature as DER and reads them back.
-/

namespace CardTable.Ts

open Basis

/-! ## Helpers -/

/-- `buf.slice(start, end)` of a byte array: what there is of the range. -/
def slice (buf : List UInt8) (start stop : Nat) : List UInt8 := (buf.take stop).drop start

/-- The value of a hex digit. -/
def digitValue (c : Char) : Nat := (Hex.digitVal? c.toNat).getD 0

/-- `parseInt(hex.substring(i * 2, i * 2 + 2), 16)` for every `i`. -/
def parsePairs : List Char → List UInt8
  | hi :: lo :: rest => UInt8.ofNat (16 * digitValue hi + digitValue lo) :: parsePairs rest
  | _ => []

/-- `bigintToBytes`. -/
def bigintToBytes (n : Nat) : List UInt8 :=
  let hex := Nat.toDigits 16 n
  parsePairs (if hex.length % 2 ≠ 0 then '0' :: hex else hex)

/-- `padTo32`. -/
def padTo32 (b : List UInt8) : List UInt8 :=
  if b.length = 32 then b
  else if 32 < b.length then b.drop (b.length - 32)
  else List.replicate (32 - b.length) 0 ++ b

/-- `while (i < n.byteLength - 1 && n[i] === 0) i += 1`, and what is left
from `i` on. -/
def stripZeros : List UInt8 → List UInt8
  | b :: c :: rest => if b = 0 then stripZeros (c :: rest) else b :: c :: rest
  | n => n

/-- `encodeDerInt`. -/
def encodeDerInt (n : List UInt8) : List UInt8 :=
  let body := stripZeros n
  let body := match body with
    | b :: rest => if 128 ≤ b.toNat then 0x00 :: b :: rest else b :: rest
    | [] => []
  0x02 :: UInt8.ofNat body.length :: body

/-- `encodeDer`. -/
def encodeDer (r s : List UInt8) : List UInt8 :=
  let rBytes := encodeDerInt r
  let sBytes := encodeDerInt s
  0x30 :: UInt8.ofNat (rBytes.length + sBytes.length) :: (rBytes ++ sBytes)

/-- `decodeDer`. A tag behind the end of the buffer is `undefined`, which
is not the tag; a length behind it is too, and makes the end of the slice
`NaN`, which counts as the start of the buffer. -/
def decodeDer (buf : List UInt8) : Js (List UInt8 × List UInt8) :=
  if buf.length < 8 then .halt "decodeDer: too short"
  else if buf[0]? ≠ some 0x30 then .halt "decodeDer: missing SEQUENCE tag"
  else if buf[1]?.map UInt8.toNat ≠ some (buf.length - 2) then .halt "decodeDer: length mismatch"
  else if buf[2]? ≠ some 0x02 then .halt "decodeDer: missing r INTEGER tag"
  else
    -- there are eight bytes, so this one is there
    let rLen := (buf[3]?.getD 0).toNat
    let r := slice buf 4 (4 + rLen)
    let off := 4 + rLen
    if buf[off]? ≠ some 0x02 then .halt "decodeDer: missing s INTEGER tag"
    else
      match buf[off + 1]? with
      | none => .ok (r, slice buf (off + 2) 0)
      | some sLen => .ok (r, slice buf (off + 2) (off + 2 + sLen.toNat))

/-! ## Signing and verifying -/

/-- `signSighash`, with `secp.signAsync`. -/
def signSighash (signAsync : List UInt8 → List UInt8 → Js (Nat × Nat))
    (sighash privKey : List UInt8) : Js (List UInt8) :=
  let got := sighash.length
  let gotKey := privKey.length
  if got ≠ 32 then .halt s!"signSighash: sighash must be 32 bytes, got {got}"
  else if gotKey ≠ 32 then .halt s!"signSighash: privKey must be 32 bytes, got {gotKey}"
  else do
    let (r, s) ← signAsync sighash privKey
    pure (encodeDer (bigintToBytes r) (bigintToBytes s))

/-- `verifySighashSignature`, with `secp.verify`. What is thrown on the
way means that the signature is refused. -/
def verifySighashSignature (verify : List UInt8 → List UInt8 → List UInt8 → Js Bool)
    (derSig sighash pubKey : List UInt8) : Bool :=
  if sighash.length ≠ 32 then false
  else if pubKey.length ≠ 33 then false
  else
    let checked : Js Bool := do
      let (r, s) ← decodeDer derSig
      verify (padTo32 r ++ padTo32 s) sighash pubKey
    match checked with
    | .ok valid => valid
    | _ => false

end CardTable.Ts
