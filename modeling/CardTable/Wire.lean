import CardTable.Basis.Stream
import CardTable.Ts.RelayClient

/-!
# Wire — the frame codec of both languages

`packages/wire-ts/src/frame.ts` and `apps/relay-go/pkg/wire/frame.go`.
TypeScript decodes a frame from the start of a buffer and says how much of
it the frame took; Go reads a frame from an `io.Reader`, here the bytes it
has left, and writes one to an `io.Writer`, here the bytes it was given,
that takes all of them. The four bytes of the checksum are any function of
the payload; `checksumOf` is the one the sources have.
-/

namespace CardTable

open Basis

/-- A checksum of four bytes. -/
abbrev Checksum := List UInt8 → { c : List UInt8 // c.length = 4 }

/-- The first four bytes of SHA-256, `checksumOf` and `checksum`. -/
def sha256Checksum : Checksum := fun payload => ⟨Ts.checksumOf payload, Ts.length_checksumOf payload⟩

open Ts (WireFrame wireMagic headerSize maxPayloadSize)

/-! ## frame.ts -/

namespace Ts.Wire

/-- `encode`. -/
def encode (checksum : Checksum) (frame : WireFrame) : Except WireError (List UInt8) :=
  if frame.payload.length > maxPayloadSize then .error (.payloadTooLarge frame.payload.length)
  else .ok (wireMagic ++ putUintLE frame.version.toNat 2 ++ putUintLE frame.type.toNat 2 ++
    putUintLE frame.payload.length 4 ++ (checksum frame.payload).1 ++ frame.payload)

/-- `decode`: the frame, and the number of bytes consumed. -/
def decode (checksum : Checksum) (buf : List UInt8) : Except WireError (WireFrame × Nat) :=
  if buf.length < headerSize then .error (.shortFrame buf.length headerSize)
  else if buf.take 4 ≠ wireMagic then .error .badMagic
  else
    let version := UInt16.ofNat (uintLE ((buf.drop 4).take 2))
    let type := UInt16.ofNat (uintLE ((buf.drop 6).take 2))
    let length := uintLE ((buf.drop 8).take 4)
    if length > maxPayloadSize then .error (.payloadTooLarge length)
    else
      let total := headerSize + length
      if buf.length < total then .error (.shortFrame buf.length total)
      else
        let payload := (buf.drop headerSize).take length
        if (buf.drop 12).take 4 ≠ (checksum payload).1 then .error .badChecksum
        else .ok (⟨version, type, payload⟩, total)

end Ts.Wire

/-! ## frame.go -/

/-- What `io.ReadFull` reports. -/
inductive Go.IoError where
  | eof
  | unexpectedEOF
  deriving DecidableEq, Repr

/-- `io.ReadFull` with a buffer of `n` bytes: what it read, and what the
reader has left. -/
def Go.readFull (n : Nat) (r : List UInt8) : Except IoError (List UInt8 × List UInt8) :=
  if n ≤ r.length then .ok (r.take n, r.drop n)
  else if r = [] then .error .eof
  else .error .unexpectedEOF

namespace Go.Wire

/-- The errors of `Encode` and `Decode`. -/
inductive WireError where
  | badMagic
  | badChecksum
  | payloadTooLarge (size : Nat)
  | io (e : IoError)
  deriving DecidableEq, Repr

def WireError.message : WireError → String
  | .badMagic => "wire: bad magic (expected CARD)"
  | .badChecksum => "wire: bad payload checksum"
  | .payloadTooLarge size => s!"wire: payload too large: {size} > {maxPayloadSize}"
  | .io .eof => "EOF"
  | .io .unexpectedEOF => "unexpected EOF"

/-- The read of a payload. -/
def readPayload (length : Nat) (r : List UInt8) : Except IoError (List UInt8 × List UInt8) :=
  if length > 0 then readFull length r else .ok ([], r)

/-- `Encode`: the number of bytes written, and all the writer has. -/
def encode (checksum : Checksum) (w : List UInt8) (f : WireFrame) :
    Except WireError (Nat × List UInt8) :=
  if f.payload.length > maxPayloadSize then .error (.payloadTooLarge f.payload.length)
  else
    let header := wireMagic ++ putUintLE f.version.toNat 2 ++ putUintLE f.type.toNat 2 ++
      putUintLE f.payload.length 4 ++ (checksum f.payload).1
    if f.payload.length = 0 then .ok (header.length, w ++ header)
    else .ok (header.length + f.payload.length, w ++ header ++ f.payload)

/-- `Decode`: the frame, and what the reader has left. -/
def decode (checksum : Checksum) (r : List UInt8) : Except WireError (WireFrame × List UInt8) := do
  let (header, r) ← (readFull headerSize r).mapError .io
  if header.take 4 ≠ wireMagic then .error .badMagic
  else
    let version := UInt16.ofNat (uintLE ((header.drop 4).take 2))
    let type := UInt16.ofNat (uintLE ((header.drop 6).take 2))
    let length := uintLE ((header.drop 8).take 4)
    if length > maxPayloadSize then .error (.payloadTooLarge length)
    else
      let (payload, r) ← (readPayload length r).mapError .io
      if (header.drop 12).take 4 ≠ (checksum payload).1 then .error .badChecksum
      else .ok (⟨version, type, payload⟩, r)

end Go.Wire

/-! ## The bytes of a frame -/

namespace Wire

variable {checksum : Checksum} {frame : WireFrame} {buf : List UInt8}

/-- The 16 bytes in front of the payload. -/
def frameHeader (checksum : Checksum) (frame : WireFrame) : List UInt8 :=
  wireMagic ++ putUintLE frame.version.toNat 2 ++ putUintLE frame.type.toNat 2 ++
    putUintLE frame.payload.length 4 ++ (checksum frame.payload).1

def frameBytes (checksum : Checksum) (frame : WireFrame) : List UInt8 :=
  frameHeader checksum frame ++ frame.payload

@[simp] theorem length_frameHeader : (frameHeader checksum frame).length = headerSize := by
  simp [frameHeader, wireMagic, headerSize, (checksum frame.payload).2]

theorem length_frameBytes (checksum : Checksum) (frame : WireFrame) :
    (frameBytes checksum frame).length = headerSize + frame.payload.length := by
  rw [frameBytes, List.length_append, length_frameHeader]

/-- A word is read back. -/
theorem word_putUintLE (n : UInt16) : UInt16.ofNat (uintLE (putUintLE n.toNat 2)) = n := by
  rw [uintLE_putUintLE, Nat.mod_eq_of_lt (show n.toNat < 256 ^ 2 from n.toNat_lt), UInt16.ofNat_toNat]

/-- A word is written back. -/
theorem putUintLE_word {w : List UInt8} (h : w.length = 2) :
    putUintLE (UInt16.ofNat (uintLE w)).toNat 2 = w := by
  have hlt := uintLE_lt w
  rw [h] at hlt
  rw [UInt16.toNat_ofNat_of_lt' hlt, putUintLE_uintLE h]

/-- The fields, each between what is before and after it. -/
theorem fields_frameHeader (checksum : Checksum) (frame : WireFrame) (rest : List UInt8) :
    (frameHeader checksum frame ++ rest).take 4 = wireMagic ∧
      ((frameHeader checksum frame ++ rest).drop 4).take 2 = putUintLE frame.version.toNat 2 ∧
      ((frameHeader checksum frame ++ rest).drop 6).take 2 = putUintLE frame.type.toNat 2 ∧
      ((frameHeader checksum frame ++ rest).drop 8).take 4 = putUintLE frame.payload.length 4 ∧
      ((frameHeader checksum frame ++ rest).drop 12).take 4 = (checksum frame.payload).1 := by
  simp only [frameHeader, List.append_assoc]
  refine ⟨List.take_left' rfl, Ts.slice_append rfl (length_putUintLE ..), ?_, ?_, ?_⟩
  · rw [← List.append_assoc wireMagic]
    exact Ts.slice_append (by simp [wireMagic]) (length_putUintLE ..)
  · rw [← List.append_assoc wireMagic, ← List.append_assoc (wireMagic ++ _)]
    exact Ts.slice_append (by simp [wireMagic]) (length_putUintLE ..)
  · rw [← List.append_assoc wireMagic, ← List.append_assoc (wireMagic ++ _),
      ← List.append_assoc (wireMagic ++ _ ++ _)]
    exact Ts.slice_append (by simp [wireMagic]) (checksum frame.payload).2

/-- A text from some place on is a slice and what is after the slice. -/
theorem drop_eq_slice (w : List UInt8) (i n : Nat) :
    w.drop i = (w.drop i).take n ++ w.drop (i + n) := by
  rw [← List.drop_drop, List.take_append_drop]

/-- A text with the fields of a frame starts with the frame. -/
theorem frameBytes_of_fields {version type : UInt16} {length : Nat}
    (hlen : headerSize + length ≤ buf.length) (hmagic : buf.take 4 = wireMagic)
    (hversion : version = UInt16.ofNat (uintLE ((buf.drop 4).take 2)))
    (htype : type = UInt16.ofNat (uintLE ((buf.drop 6).take 2)))
    (hlength : length = uintLE ((buf.drop 8).take 4))
    (hsum : (buf.drop 12).take 4 = (checksum ((buf.drop headerSize).take length)).1) :
    buf = frameBytes checksum ⟨version, type, (buf.drop headerSize).take length⟩ ++
      buf.drop (headerSize + length) := by
  have hslice : ∀ i n, i + n ≤ 16 → ((buf.drop i).take n).length = n := by
    intro i n hin
    rw [List.length_take, List.length_drop]
    simp only [headerSize] at hlen
    omega
  have hpayload : ((buf.drop headerSize).take length).length = length := by
    rw [List.length_take, List.length_drop]
    omega
  rw [frameBytes, frameHeader, hpayload, hversion, htype, putUintLE_word (hslice 4 2 (by decide)),
    putUintLE_word (hslice 6 2 (by decide)), ← hmagic, ← hsum]
  have hfour := putUintLE_uintLE (hslice 8 4 (by decide))
  rw [← hlength] at hfour
  rw [hfour]
  simp only [List.append_assoc]
  rw [← drop_eq_slice, show headerSize = 12 + 4 from rfl, ← drop_eq_slice,
    show 12 = 8 + 4 from rfl, ← drop_eq_slice, show 8 = 6 + 2 from rfl, ← drop_eq_slice,
    show 6 = 4 + 2 from rfl, ← drop_eq_slice, List.take_append_drop]

theorem encode_eq_ok_iff {w : List UInt8} : Ts.Wire.encode checksum frame = .ok w ↔
    frame.payload.length ≤ maxPayloadSize ∧ w = frameBytes checksum frame := by
  simp only [Ts.Wire.encode]
  split
  · rename_i hlarge
    constructor
    · intro h
      cases h
    · intro h
      omega
  · rename_i hsmall
    rw [Except.ok.injEq]
    exact ⟨fun h => ⟨by omega, h.symm⟩, fun h => h.2.symm⟩

/-- **What `decode` accepts**: a text that starts with a frame. -/
theorem decode_eq_ok_iff {n : Nat} : Ts.Wire.decode checksum buf = .ok (frame, n) ↔
    frame.payload.length ≤ maxPayloadSize ∧ n = (frameBytes checksum frame).length ∧
      buf = frameBytes checksum frame ++ buf.drop n := by
  constructor
  · intro h
    simp only [Ts.Wire.decode] at h
    split at h
    · cases h
    split at h
    · cases h
    rename_i hmagic
    split at h
    · cases h
    rename_i hsmall
    split at h
    · cases h
    rename_i hlen
    split at h
    · cases h
    rename_i hsum
    cases h
    have hpayload : ((buf.drop headerSize).take (uintLE ((buf.drop 8).take 4))).length =
        uintLE ((buf.drop 8).take 4) := by
      rw [List.length_take, List.length_drop]
      omega
    refine ⟨by rw [hpayload]; omega, by rw [length_frameBytes, hpayload], ?_⟩
    exact frameBytes_of_fields (by omega) (Decidable.not_not.mp hmagic) rfl rfl rfl
      (Decidable.not_not.mp hsum)
  · rintro ⟨hsmall, rfl, hbuf⟩
    generalize buf.drop _ = rest at hbuf
    subst hbuf
    have hlen := length_frameBytes checksum frame
    have hfits : uintLE (putUintLE frame.payload.length 4) = frame.payload.length := by
      rw [uintLE_putUintLE]
      exact Nat.mod_eq_of_lt (by simp only [maxPayloadSize] at hsmall; omega)
    obtain ⟨hmagic, hversion, htype, hlength, hsum⟩ :=
      fields_frameHeader checksum frame (frame.payload ++ rest)
    have hpayload : ((frameHeader checksum frame ++ (frame.payload ++ rest)).drop headerSize).take
        frame.payload.length = frame.payload := Ts.slice_append length_frameHeader rfl
    have hwhole : (frameHeader checksum frame ++ (frame.payload ++ rest)).length =
        headerSize + frame.payload.length + rest.length := by
      simp [Nat.add_assoc]
    rw [frameBytes, List.append_assoc, Ts.Wire.decode, if_neg (by omega), if_neg (by simp [hmagic])]
    simp only [hlength, hfits, hversion, htype, word_putUintLE, hpayload, hsum]
    rw [if_neg (by omega), if_neg (by omega), if_neg (by simp), ← frameBytes, hlen]

/-! ## Both languages -/

/-- What Go reports where TypeScript throws. A reader that ends where a
read begins is at its end, one that ends inside is cut short. -/
def peerError : Ts.WireError → Go.Wire.WireError
  | .badMagic => .badMagic
  | .badChecksum => .badChecksum
  | .payloadTooLarge size => .payloadTooLarge size
  | .shortFrame got _ => .io (if got = 0 ∨ got = headerSize then .eof else .unexpectedEOF)

/-- **Decoding is the same**: Go keeps what TypeScript did not consume. -/
theorem go_decode_eq (checksum : Checksum) (buf : List UInt8) :
    Go.Wire.decode checksum buf = match Ts.Wire.decode checksum buf with
      | .ok (frame, n) => .ok (frame, buf.drop n)
      | .error e => .error (peerError e) := by
  have hslice : ∀ i n, i + n ≤ 16 → ((buf.take headerSize).drop i).take n = (buf.drop i).take n := by
    intro i n hin
    rw [List.drop_take, List.take_take, Nat.min_eq_left (by simp only [headerSize]; omega)]
  by_cases hshort : buf.length < headerSize
  · have hread : (Go.readFull headerSize buf).mapError .io =
        .error (peerError (.shortFrame buf.length headerSize)) := by
      have hne : buf.length ≠ headerSize := by omega
      simp only [Go.readFull, if_neg (Nat.not_le.mpr hshort), peerError,
        List.length_eq_zero_iff, hne, or_false]
      split <;> rfl
    simp only [Go.Wire.decode, hread, Ts.Wire.decode, if_pos hshort]
    rfl
  · have hread : (Go.readFull headerSize buf).mapError Go.Wire.WireError.io =
        .ok (buf.take headerSize, buf.drop headerSize) := by
      rw [Go.readFull, if_pos (by omega)]
      rfl
    simp only [Go.Wire.decode, hread, Ts.Wire.decode, if_neg hshort]
    show (if (buf.take headerSize).take 4 ≠ wireMagic then _ else _) = _
    rw [show (buf.take headerSize).take 4 = buf.take 4 from hslice 0 4 (by decide)]
    simp only [hslice 4 2 (by decide), hslice 6 2 (by decide), hslice 8 4 (by decide),
      hslice 12 4 (by decide)]
    split
    · rfl
    split
    · rfl
    generalize uintLE ((buf.drop 8).take 4) = length
    by_cases hpart : buf.length < headerSize + length
    · have hpayload : (Go.Wire.readPayload length (buf.drop headerSize)).mapError .io =
          .error (peerError (.shortFrame buf.length (headerSize + length))) := by
        have hlack : ¬length ≤ (buf.drop headerSize).length := by
          rw [List.length_drop]
          omega
        have hend : buf.drop headerSize = [] ↔ buf.length = 0 ∨ buf.length = headerSize := by
          rw [List.drop_eq_nil_iff]
          simp only [headerSize] at hshort ⊢
          omega
        rw [Go.Wire.readPayload, if_pos (by omega)]
        simp only [Go.readFull, if_neg hlack, peerError, hend]
        split <;> rfl
      rw [hpayload, if_pos hpart]
      rfl
    · have hpayload : (Go.Wire.readPayload length (buf.drop headerSize)).mapError
          Go.Wire.WireError.io =
          .ok ((buf.drop headerSize).take length, buf.drop (headerSize + length)) := by
        rw [Go.Wire.readPayload]
        split
        · rw [Go.readFull, if_pos (by rw [List.length_drop]; omega), List.drop_drop]
          rfl
        · obtain rfl : length = 0 := by omega
          rfl
      rw [hpayload, if_neg hpart]
      show (if _ then _ else _) = _
      split
      · rfl
      · rfl

/-- **Encoding is the same**: Go appends what TypeScript returns. -/
theorem go_encode_eq (checksum : Checksum) (w : List UInt8) (frame : WireFrame) :
    Go.Wire.encode checksum w frame = match Ts.Wire.encode checksum frame with
      | .ok bytes => .ok (bytes.length, w ++ bytes)
      | .error e => .error (peerError e) := by
  simp only [Go.Wire.encode, Ts.Wire.encode]
  split
  · rfl
  · split
    · rename_i hempty
      rw [List.length_eq_zero_iff.mp hempty]
      simp
    · simp [Nat.add_assoc]

/-! ## Frame by frame -/

end Wire

/-- The frames of a stream, by repeated `decode` behind the bytes
consumed. -/
def Ts.Wire.frames (checksum : Checksum) : Reader UInt8 WireFrame := fun buf =>
  match Ts.Wire.decode checksum buf with
  | .ok (frame, n) => .done frame (buf.drop n)
  | .error (.shortFrame _ _) => .more
  | .error _ => .refused

/-- The frames of a reader, by repeated `Decode`. -/
def Go.Wire.frames (checksum : Checksum) : Reader UInt8 WireFrame := fun r =>
  match Go.Wire.decode checksum r with
  | .ok (frame, r) => .done frame r
  | .error (.io _) => .more
  | .error _ => .refused

/-- `Encode`, one frame after another. -/
def Go.Wire.encodeAll (checksum : Checksum) (frames : List WireFrame) :
    Except Go.Wire.WireError (List UInt8) :=
  frames.foldlM (fun w f => Prod.snd <$> Go.Wire.encode checksum w f) []

namespace Wire

variable {checksum : Checksum} {frame : WireFrame}

theorem reads_frameBytes (hsmall : frame.payload.length ≤ maxPayloadSize) :
    Reader.Reads (Ts.Wire.frames checksum) (frameBytes checksum frame) frame := by
  intro rest
  have hdecode : Ts.Wire.decode checksum (frameBytes checksum frame ++ rest) =
      .ok (frame, (frameBytes checksum frame).length) :=
    decode_eq_ok_iff.mpr ⟨hsmall, rfl, by rw [List.drop_left]⟩
  simp only [Ts.Wire.frames, hdecode, List.drop_left]

/-- Go reads the frames TypeScript reads. -/
theorem go_frames_eq (checksum : Checksum) : Go.Wire.frames checksum = Ts.Wire.frames checksum := by
  funext buf
  simp only [Go.Wire.frames, Ts.Wire.frames, go_decode_eq]
  cases Ts.Wire.decode checksum buf with
  | ok r => rfl
  | error e =>
      cases e with
      | badMagic | badChecksum | payloadTooLarge size | shortFrame got need => rfl

theorem encode_frames (checksum : Checksum) {frames : List WireFrame}
    (hsmall : ∀ f ∈ frames, f.payload.length ≤ maxPayloadSize) :
    frames.mapM (Ts.Wire.encode checksum) = .ok (frames.map (frameBytes checksum)) := by
  rw [except_mapM_eq_ok, List.forall₂_map_right_iff, List.forall₂_same]
  exact fun f hf => encode_eq_ok_iff.mpr ⟨hsmall f hf, rfl⟩

theorem encodeAll_frames (checksum : Checksum) {frames : List WireFrame}
    (hsmall : ∀ f ∈ frames, f.payload.length ≤ maxPayloadSize) :
    Go.Wire.encodeAll checksum frames = .ok (frames.map (frameBytes checksum)).flatten := by
  have hfrom : ∀ w, frames.foldlM (fun w f => Prod.snd <$> Go.Wire.encode checksum w f) w =
      .ok (w ++ (frames.map (frameBytes checksum)).flatten) := by
    induction frames with
    | nil =>
        intro w
        rw [List.map_nil, List.flatten_nil, List.append_nil]
        rfl
    | cons f frames ih =>
        intro w
        obtain ⟨hf, hframes⟩ := List.forall_mem_cons.mp hsmall
        have hone : Prod.snd <$> Go.Wire.encode checksum w f =
            .ok (w ++ frameBytes checksum f) := by
          rw [go_encode_eq, encode_eq_ok_iff.mpr ⟨hf, rfl⟩]
          rfl
        rw [List.foldlM_cons, hone, List.map_cons, List.flatten_cons, ← List.append_assoc]
        exact ih hframes _
  exact hfrom []

/-- An empty stream holds no frame, and no part of one. -/
theorem frames_nil (checksum : Checksum) : Ts.Wire.frames checksum [] = .more := rfl

end Wire

/-- **The wire codec.** Frames that were encoded one after another are
decoded one by one, up to the last byte; what is decoded encodes to the
bytes consumed; and both languages do the same. -/
theorem wire_codec (checksum : Checksum) :
    (∀ frames : List WireFrame, (∀ f ∈ frames, f.payload.length ≤ maxPayloadSize) →
      ∃ texts, frames.mapM (Ts.Wire.encode checksum) = .ok texts ∧
        Reader.readAll (Ts.Wire.frames checksum) texts.flatten = (frames, some []) ∧
        Go.Wire.encodeAll checksum frames = .ok texts.flatten ∧
        Reader.readAll (Go.Wire.frames checksum) texts.flatten = (frames, some [])) ∧
    (∀ (buf : List UInt8) (frame : WireFrame) (n : Nat),
      Ts.Wire.decode checksum buf = .ok (frame, n) →
        n ≤ buf.length ∧ Ts.Wire.encode checksum frame = .ok (buf.take n)) ∧
    (∀ (r : List UInt8) (frame : WireFrame) (left : List UInt8),
      Go.Wire.decode checksum r = .ok (frame, left) →
        ∃ used, r = used ++ left ∧ Go.Wire.encode checksum [] frame = .ok (used.length, used)) ∧
    (∀ buf, Go.Wire.decode checksum buf = match Ts.Wire.decode checksum buf with
      | .ok (frame, n) => .ok (frame, buf.drop n)
      | .error e => .error (Wire.peerError e)) ∧
    ∀ (w : List UInt8) (frame : WireFrame), Go.Wire.encode checksum w frame =
      match Ts.Wire.encode checksum frame with
      | .ok bytes => .ok (bytes.length, w ++ bytes)
      | .error e => .error (Wire.peerError e) := by
  open Wire in
  have hback : ∀ (buf : List UInt8) (frame : WireFrame) (n : Nat),
      Ts.Wire.decode checksum buf = .ok (frame, n) →
        n ≤ buf.length ∧ Ts.Wire.encode checksum frame = .ok (buf.take n) := by
    intro buf frame n h
    obtain ⟨hsmall, hn, hbuf⟩ := decode_eq_ok_iff.mp h
    have htake : buf.take n = frameBytes checksum frame := by
      rw [hbuf, hn, List.take_left]
    have hlen := congrArg List.length htake
    rw [List.length_take] at hlen
    exact ⟨by omega, encode_eq_ok_iff.mpr ⟨hsmall, htake⟩⟩
  refine ⟨?_, hback, ?_, go_decode_eq checksum, go_encode_eq checksum⟩
  · intro frames hsmall
    have hread : Reader.readAll (Ts.Wire.frames checksum)
        (frames.map (frameBytes checksum)).flatten = (frames, some []) := by
      have hall := Reader.readAll_eq (fun f hf => reads_frameBytes (hsmall f hf))
        (fun f => List.ne_nil_of_length_pos (by rw [length_frameBytes]; simp [headerSize]))
        (frames_nil checksum)
      rwa [List.append_nil, List.flatMap_def] at hall
    exact ⟨_, encode_frames checksum hsmall, hread, encodeAll_frames checksum hsmall,
      by rw [go_frames_eq, hread]⟩
  · intro r frame left h
    rw [go_decode_eq] at h
    split at h
    · rename_i f n hdecode
      cases h
      obtain ⟨-, hencode⟩ := hback r frame n hdecode
      refine ⟨r.take n, (List.take_append_drop n r).symm, ?_⟩
      rw [go_encode_eq, hencode]
      rfl
    · cases h

/-! ## The checksum of the sources -/

theorem Ts.encode_eq (frame : WireFrame) : Ts.encode frame = Ts.Wire.encode sha256Checksum frame :=
  rfl

theorem Ts.resume_eq (d : Digesting) : d.resume =
    if d.checksum ≠ (sha256Checksum d.frame.payload).1 then .error .badChecksum else .ok d.frame := by
  rw [ite_not]
  rfl

theorem Ts.decode_eq (buf : List UInt8) :
    Ts.decode buf = (Ts.Wire.decode sha256Checksum buf).map Prod.fst := by
  simp only [Ts.decode, Ts.decodeStart, Ts.Wire.decode]
  split
  · rfl
  split
  · rfl
  split
  · rfl
  split
  · rfl
  show Ts.Digesting.resume _ = _
  rw [Ts.resume_eq]
  dsimp only
  split
  · rfl
  · rfl

end CardTable
