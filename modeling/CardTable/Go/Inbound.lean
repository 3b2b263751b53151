import CardTable.Go.WebSocket
import CardTable.Wire

/-!
# Go.Inbound — wire frames from a browser

`Conn.Read` and the server's `readFrame` of
`apps/relay-go/internal/wsadapter/ws.go`, and the `wire.Decode` that
`handleConn` hands their payloads to. The bytes the client sent are a
list, and the pongs `Read` writes are taken by the connection.

A client's frame is a binary frame with the encoding of a wire frame,
masked, between pings and pongs of its own.
-/

namespace CardTable.Go.Ws

open Basis

/-! ## ws.go -/

/-- `maxPayloadSize` of the adapter. -/
def maxPayloadSize : Nat := 32 * 1024 * 1024

/-- The errors of `Read`. -/
inductive ReadError where
  | io (e : IoError)
  | text (message : String)
  deriving DecidableEq, Repr

/-- The loop over the payload: each byte with its byte of the key. -/
def applyMask (maskKey payload : List UInt8) : List UInt8 :=
  payload.mapIdx fun i b => b ^^^ maskKey.getD (i % 4) 0

/-- `writeFrame` with any payload; a `WsFrame` is one whose length the
header can hold. -/
def writeFrame (opcode : Opcode) (payload : List UInt8) : List UInt8 :=
  (0x80 ||| opcode.byte) ::
    (if payload.length < 126 then [UInt8.ofNat payload.length]
    else if payload.length ≤ 0xffff then 126 :: putUintBE payload.length 2
    else 127 :: putUintBE payload.length 8) ++ payload

theorem WsFrame.bytes_eq (f : WsFrame) : f.bytes = writeFrame f.opcode f.payload := rfl

namespace Server

/-- `io.ReadFull` inside `readFrame`. -/
def readN (n : Nat) (r : List UInt8) : Except ReadError (List UInt8 × List UInt8) :=
  (readFull n r).mapError .io

/-- The `switch` on the length of seven bits. -/
def readLength (plen : UInt8) (r : List UInt8) : Except ReadError (Nat × List UInt8) := do
  if plen = 126 then
    let (ext, r) ← readN 2 r
    .ok (uintBE ext, r)
  else if plen = 127 then
    let (ext, r) ← readN 8 r
    .ok (uintBE ext, r)
  else .ok (plen.toNat, r)

/-- `readFrame`: opcode and payload, and what is left. -/
def readFrame (r : List UInt8) : Except ReadError ((UInt8 × List UInt8) × List UInt8) := do
  let (hdr, r) ← readN 2 r
  let opcode := hdr.getD 0 0 &&& 0x0f
  if hdr.getD 0 0 &&& 0x80 = 0 then .error (.text "ws: fragmented frames not supported")
  else if hdr.getD 1 0 &&& 0x80 = 0 then .error (.text "ws: peer frame is not masked")
  else
    let (plen, r) ← readLength (hdr.getD 1 0 &&& 0x7f) r
    if plen > maxPayloadSize then
      .error (.text s!"ws: payload too large ({plen} > {maxPayloadSize})")
    else
      let (maskKey, r) ← readN 4 r
      let (payload, r) ← readN plen r
      .ok ((opcode, applyMask maskKey payload), r)

/-- A read leaves less, by what it read. -/
theorem length_readN {n : Nat} {r read left : List UInt8} (h : readN n r = .ok (read, left)) :
    r.length = n + left.length := by
  simp only [readN, readFull] at h
  split at h
  · cases h
    rw [List.length_drop]
    omega
  · split at h <;> cases h

theorem length_readLength {b : UInt8} {plen : Nat} {r left : List UInt8}
    (h : readLength b r = .ok (plen, left)) : left.length ≤ r.length := by
  simp only [readLength] at h
  split at h
  · obtain ⟨_, hread, h⟩ := except_bind_eq_ok.mp h
    cases h
    have := length_readN hread
    omega
  · split at h
    · obtain ⟨_, hread, h⟩ := except_bind_eq_ok.mp h
      cases h
      have := length_readN hread
      omega
    · cases h
      exact Nat.le_refl _

/-- A frame takes bytes. -/
theorem length_readFrame {r left : List UInt8} {f : UInt8 × List UInt8}
    (h : readFrame r = .ok (f, left)) : left.length < r.length := by
  obtain ⟨⟨hdr, r1⟩, hhdr, h⟩ := except_bind_eq_ok.mp h
  dsimp only at h
  split at h
  · cases h
  split at h
  · cases h
  obtain ⟨⟨plen, r2⟩, hplen, h⟩ := except_bind_eq_ok.mp h
  dsimp only at h
  split at h
  · cases h
  obtain ⟨⟨key, r3⟩, hkey, h⟩ := except_bind_eq_ok.mp h
  obtain ⟨⟨payload, r4⟩, hpayload, h⟩ := except_bind_eq_ok.mp h
  cases h
  have h1 : r.length = 2 + r1.length := length_readN hhdr
  have h2 : r2.length ≤ r1.length := length_readLength hplen
  have h3 : r2.length = 4 + r3.length := length_readN hkey
  have h4 : r3.length = plen + r4.length := length_readN hpayload
  show r4.length < r.length
  omega

/-- `Read`: what it writes, and the next binary payload with what is left
after it. -/
def read (r : List UInt8) : List UInt8 × Except ReadError (List UInt8 × List UInt8) :=
  match _h : readFrame r with
  | .error e => ([], .error e)
  | .ok ((opcode, payload), left) =>
    match Opcode.ofByte opcode with
    | some .binary => ([], .ok (payload, left))
    | some .text => ([], .error (.text "ws: text frames not supported"))
    | some .close => ([], .error (.io .eof))
    | some .ping =>
        let (out, result) := read left
        (writeFrame .pong payload ++ out, result)
    | some .pong => read left
    | some .continuation | none =>
        let hex := String.ofList (Nat.toDigits 16 opcode.toNat)
        ([], .error (.text s!"ws: unknown opcode 0x{hex}"))
termination_by r.length
decreasing_by all_goals exact length_readFrame _h

/-- `Read` goes by the frame in front. -/
theorem read_eq (r : List UInt8) : read r = match readFrame r with
    | .error e => ([], .error e)
    | .ok ((opcode, payload), left) =>
      match Opcode.ofByte opcode with
      | some .binary => ([], .ok (payload, left))
      | some .text => ([], .error (.text "ws: text frames not supported"))
      | some .close => ([], .error (.io .eof))
      | some .ping =>
          let (out, result) := read left
          (writeFrame .pong payload ++ out, result)
      | some .pong => read left
      | some .continuation | none =>
          let hex := String.ofList (Nat.toDigits 16 opcode.toNat)
          ([], .error (.text s!"ws: unknown opcode 0x{hex}")) := by
  rw [read]
  split <;> rename_i heq <;> rw [heq]

end Server

/-! ## What a client sends -/

abbrev MaskKey := { key : List UInt8 // key.length = 4 }

/-- A masked frame, its length in the shortest form. -/
def clientFrame (opcode : Opcode) (key : MaskKey) (payload : List UInt8) : List UInt8 :=
  [0x80 ||| opcode.byte] ++
    ((if payload.length < 126 then [0x80 ||| UInt8.ofNat payload.length]
      else if payload.length ≤ 0xffff then [0x80 ||| 126] ++ putUintBE payload.length 2
      else [0x80 ||| 127] ++ putUintBE payload.length 8) ++
    (key.1 ++ applyMask key.1 payload))

/-- A ping or a pong, within the limit. -/
structure Control where
  opcode : Opcode
  key : MaskKey
  payload : List UInt8
  control : opcode = .ping ∨ opcode = .pong
  small : payload.length ≤ maxPayloadSize

def Control.bytes (c : Control) : List UInt8 := clientFrame c.opcode c.key c.payload

/-- What `Read` writes for it. -/
def Control.answer (c : Control) : List UInt8 :=
  if c.opcode = .ping then writeFrame .pong c.payload else []

/-! ## A client's frame is read -/

@[simp] theorem length_applyMask (key payload : List UInt8) :
    (applyMask key payload).length = payload.length := List.length_mapIdx

/-- Masking twice is not masking. -/
@[simp] theorem applyMask_applyMask (key payload : List UInt8) :
    applyMask key (applyMask key payload) = payload := by
  refine List.ext_getElem (by simp) fun i hi hi' => ?_
  simp only [applyMask, List.getElem_mapIdx]
  rw [UInt8.xor_assoc, UInt8.xor_self, UInt8.xor_zero]

theorem readFull_append {w rest : List UInt8} {n : Nat} (h : w.length = n) :
    readFull n (w ++ rest) = .ok (w, rest) := by
  subst h
  simp [readFull]

namespace Server

theorem readN_append {w rest : List UInt8} {n : Nat} (h : w.length = n) :
    readN n (w ++ rest) = .ok (w, rest) := by
  rw [readN, readFull_append h]
  rfl

/-- The seven bits of a masked length. -/
theorem masked_small {n : Nat} (h : n < 126) :
    (0x80 ||| UInt8.ofNat n) &&& 0x80 ≠ 0 ∧ (0x80 ||| UInt8.ofNat n) &&& 0x7f = UInt8.ofNat n ∧
      UInt8.ofNat n ≠ 126 ∧ UInt8.ofNat n ≠ 127 ∧ (UInt8.ofNat n).toNat = n := by
  have hall : ∀ n < 126, (0x80 ||| UInt8.ofNat n) &&& 0x80 ≠ 0 ∧
      (0x80 ||| UInt8.ofNat n) &&& 0x7f = UInt8.ofNat n ∧
      UInt8.ofNat n ≠ 126 ∧ UInt8.ofNat n ≠ 127 ∧ (UInt8.ofNat n).toNat = n := by
    decide
  exact hall n h

/-- The second byte of a client's frame, and what follows it up to the
key. -/
theorem length_read {n : Nat} (h : n < 256 ^ 8) (rest : List UInt8) :
    ∃ (len : UInt8) (ext : List UInt8), (if n < 126 then [0x80 ||| UInt8.ofNat n]
        else if n ≤ 0xffff then [0x80 ||| 126] ++ putUintBE n 2
        else [0x80 ||| 127] ++ putUintBE n 8) = len :: ext ∧
      len &&& 0x80 ≠ 0 ∧ readLength (len &&& 0x7f) (ext ++ rest) = .ok (n, rest) := by
  by_cases hsmall : n < 126
  · obtain ⟨hmask, hseven, h126, h127, hval⟩ := masked_small hsmall
    refine ⟨_, [], if_pos hsmall, hmask, ?_⟩
    rw [hseven, readLength, if_neg h126, if_neg h127, hval]
    rfl
  · by_cases hmid : n ≤ 0xffff
    · refine ⟨0x80 ||| 126, putUintBE n 2, by rw [if_neg hsmall, if_pos hmid]; rfl, by decide, ?_⟩
      rw [readLength, if_pos (by decide), readN_append (length_putUintBE n 2)]
      show Except.ok (uintBE (putUintBE n 2), rest) = _
      rw [uintBE_putUintBE, Nat.mod_eq_of_lt (by omega)]
    · refine ⟨0x80 ||| 127, putUintBE n 8, by rw [if_neg hsmall, if_neg hmid]; rfl, by decide, ?_⟩
      rw [readLength, if_neg (by decide), if_pos (by decide), readN_append (length_putUintBE n 8)]
      show Except.ok (uintBE (putUintBE n 8), rest) = _
      rw [uintBE_putUintBE, Nat.mod_eq_of_lt h]

/-- **A client's frame** is read as it was meant, unless it is longer than
the adapter allows. -/
theorem readFrame_client (opcode : Opcode) (key : MaskKey) {payload : List UInt8}
    (hlen : payload.length < 256 ^ 8) (rest : List UInt8) :
    ∃ op, Opcode.ofByte op = some opcode ∧ readFrame (clientFrame opcode key payload ++ rest) =
      if payload.length > maxPayloadSize then .error (.text
        s!"ws: payload too large ({payload.length} > {maxPayloadSize})")
      else .ok ((op, payload), rest) := by
  obtain ⟨hopcode, hfin⟩ := ofByte_first opcode
  obtain ⟨len, ext, hcode, hmask, hread⟩ :=
    length_read hlen (key.1 ++ applyMask key.1 payload ++ rest)
  have hbytes : clientFrame opcode key payload ++ rest = [0x80 ||| opcode.byte, len] ++
      (ext ++ (key.1 ++ applyMask key.1 payload ++ rest)) := by
    rw [clientFrame, hcode]
    simp
  refine ⟨_, hopcode, ?_⟩
  rw [hbytes, readFrame, readN_append (show [0x80 ||| opcode.byte, len].length = 2 from rfl)]
  show (if (0x80 ||| opcode.byte) &&& 0x80 = 0 then _ else _) = _
  rw [if_neg hfin]
  show (if len &&& 0x80 = 0 then _ else _) = _
  rw [if_neg hmask, show ([0x80 ||| opcode.byte, len].getD 1 0) = len from rfl, hread]
  show (if payload.length > maxPayloadSize then _ else _) = _
  by_cases hlarge : payload.length > maxPayloadSize
  · rw [if_pos hlarge, if_pos hlarge]
  · rw [if_neg hlarge, if_neg hlarge, List.append_assoc, readN_append key.2]
    show (readN payload.length (applyMask key.1 payload ++ rest) >>= _) = _
    rw [readN_append (length_applyMask ..)]
    show Except.ok ((_, applyMask key.1 (applyMask key.1 payload)), rest) = _
    rw [applyMask_applyMask]
    rfl

/-- Pings and pongs are read over; the pings are answered. -/
theorem read_controls (controls : List Control) (r : List UInt8) :
    read (controls.flatMap Control.bytes ++ r) =
      (controls.flatMap Control.answer ++ (read r).1, (read r).2) := by
  induction controls with
  | nil => rfl
  | cons c controls ih =>
      have hlen : c.payload.length < 256 ^ 8 := by
        have := c.small
        simp only [maxPayloadSize] at this
        omega
      obtain ⟨op, hop, hread⟩ :=
        readFrame_client c.opcode c.key hlen (controls.flatMap Control.bytes ++ r)
      rw [if_neg (Nat.not_lt.mpr c.small)] at hread
      rw [List.flatMap_cons, List.flatMap_cons, List.append_assoc, read_eq, Control.bytes, hread]
      dsimp only
      rw [hop]
      rcases c.control with hping | hpong
      · simp only [hping, ih, Control.answer, if_true, List.append_assoc]
      · simp only [hpong, ih, Control.answer, reduceCtorEq, if_false, List.nil_append]

/-- The binary frame after them. -/
theorem read_client (controls : List Control) (key : MaskKey) {payload : List UInt8}
    (hlen : payload.length < 256 ^ 8) (rest : List UInt8) :
    (read (controls.flatMap Control.bytes ++ (clientFrame .binary key payload ++ rest))).2 =
      if payload.length > maxPayloadSize then .error (.text
        s!"ws: payload too large ({payload.length} > {maxPayloadSize})")
      else .ok (payload, rest) := by
  obtain ⟨op, hop, hread⟩ := readFrame_client .binary key hlen rest
  rw [read_controls, read_eq, hread]
  by_cases hlarge : payload.length > maxPayloadSize
  · rw [if_pos hlarge, if_pos hlarge]
  · rw [if_neg hlarge, if_neg hlarge]
    dsimp only
    rw [hop]

end Server

/-! ## The limits of the two layers -/

/-- A frame arrives: `Read` returns a payload, and the payload decodes to
it. -/
def Arrives (checksum : Checksum) (frame : Ts.WireFrame) (controls : List Control) (key : MaskKey)
    (bytes rest : List UInt8) : Prop :=
  ∃ payload, (Server.read
      (controls.flatMap Control.bytes ++ (clientFrame .binary key bytes ++ rest))).2 =
      .ok (payload, rest) ∧
    Wire.decode checksum payload = .ok (frame, [])

theorem encode_frameBytes {checksum : Checksum} {frame : Ts.WireFrame}
    (hsmall : frame.payload.length ≤ Ts.maxPayloadSize) :
    Wire.encode checksum [] frame = .ok ((CardTable.Wire.frameBytes checksum frame).length,
      CardTable.Wire.frameBytes checksum frame) := by
  rw [CardTable.Wire.go_encode_eq, CardTable.Wire.encode_eq_ok_iff.mpr ⟨hsmall, rfl⟩]
  rfl

theorem encode_eq_frameBytes {checksum : Checksum} {frame : Ts.WireFrame} {n : Nat}
    {bytes : List UInt8} (h : Wire.encode checksum [] frame = .ok (n, bytes)) :
    frame.payload.length ≤ Ts.maxPayloadSize ∧
      bytes = CardTable.Wire.frameBytes checksum frame := by
  rw [CardTable.Wire.go_encode_eq] at h
  split at h
  · rename_i hencode
    cases h
    exact CardTable.Wire.encode_eq_ok_iff.mp hencode
  · cases h

theorem decode_frameBytes {checksum : Checksum} {frame : Ts.WireFrame}
    (hsmall : frame.payload.length ≤ Ts.maxPayloadSize) :
    Wire.decode checksum (CardTable.Wire.frameBytes checksum frame) = .ok (frame, []) := by
  have hdecode : Ts.Wire.decode checksum (CardTable.Wire.frameBytes checksum frame) =
      .ok (frame, (CardTable.Wire.frameBytes checksum frame).length) :=
    CardTable.Wire.decode_eq_ok_iff.mpr ⟨hsmall, rfl, by simp⟩
  rw [CardTable.Wire.go_decode_eq, hdecode]
  simp

/-- **Transport.** A frame that `wire.Encode` accepts arrives exactly if
its encoding, header and all, is within the adapter's limit. -/
theorem arrives_iff {checksum : Checksum} {frame : Ts.WireFrame} {n : Nat} {bytes : List UInt8}
    (hencode : Wire.encode checksum [] frame = .ok (n, bytes)) (controls : List Control)
    (key : MaskKey) (rest : List UInt8) :
    Arrives checksum frame controls key bytes rest ↔
      Ts.headerSize + frame.payload.length ≤ maxPayloadSize := by
  obtain ⟨hsmall, rfl⟩ := encode_eq_frameBytes hencode
  have hlen := CardTable.Wire.length_frameBytes checksum frame
  have hread := Server.read_client controls key
    (show (CardTable.Wire.frameBytes checksum frame).length < 256 ^ 8 by
      simp only [Ts.maxPayloadSize, Ts.headerSize] at hsmall hlen
      omega) rest
  rw [hlen] at hread
  constructor
  · intro harrives
    obtain ⟨payload, hpayload, -⟩ := harrives
    refine Nat.not_lt.mp fun hlarge => ?_
    rw [hread, if_pos hlarge] at hpayload
    cases hpayload
  · intro hfits
    rw [if_neg (Nat.not_lt.mpr hfits)] at hread
    exact ⟨_, hread, decode_frameBytes hsmall⟩

/-- Two bytes, after a ping. -/
theorem arrives_sample :
    Arrives sha256Checksum ⟨1, 0x0302, [1, 2]⟩
      [⟨.ping, ⟨[1, 2, 3, 4], rfl⟩, [9], .inl rfl, by decide⟩] ⟨[5, 6, 7, 8], rfl⟩
      (CardTable.Wire.frameBytes sha256Checksum ⟨1, 0x0302, [1, 2]⟩) [] :=
  (arrives_iff (encode_frameBytes (by decide)) _ _ _).mpr (by decide)

/-- A frame of the largest size a payload can have is encoded, and does
not arrive. -/
theorem largest_lost :
    ¬∀ (checksum : Checksum) (frame : Ts.WireFrame) (n : Nat) (bytes : List UInt8),
      Wire.encode checksum [] frame = .ok (n, bytes) →
      ∀ (controls : List Control) (key : MaskKey) (rest : List UInt8),
        Arrives checksum frame controls key bytes rest := by
  intro hclaim
  let frame : Ts.WireFrame := ⟨1, 0x0302, List.replicate maxPayloadSize 0⟩
  have hlen : frame.payload.length = maxPayloadSize := List.length_replicate
  obtain ⟨payload, hread, -⟩ := hclaim sha256Checksum frame _ _
    (encode_frameBytes (Nat.le_of_eq hlen)) [] ⟨[0, 0, 0, 0], rfl⟩ []
  have hbytes : (CardTable.Wire.frameBytes sha256Checksum frame).length = 16 + maxPayloadSize := by
    rw [CardTable.Wire.length_frameBytes, hlen]
    rfl
  rw [Server.read_client _ _ (by rw [hbytes]; decide), hbytes, if_pos (by decide)] at hread
  cases hread

end CardTable.Go.Ws
