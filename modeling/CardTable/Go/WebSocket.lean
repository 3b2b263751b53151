import CardTable.Basis.Bytes
import CardTable.Basis.Run
import CardTable.Basis.Stream

/-!
# Go.WebSocket — frames from two goroutines

`apps/relay-go/internal/wsadapter/ws.go`, with the goroutines of
`handleConn`. `writeFrame` hands the raw connection a header and then,
when there is one, the payload: two calls of its `Write`, each taken as
one step. The writer goroutine sends the hub's frames as binary frames;
the reader goroutine answers pings inside `Read`. Once both are done,
`Close` sends a close frame.

A raw `Write` that fails has written a part of its bytes, and the
connection takes no more after it. The bytes of the handshake are left
out.
-/

namespace CardTable.Go.Ws

open Basis

/-! ## Frames -/

/-- The opcodes. -/
inductive Opcode where
  | continuation
  | text
  | binary
  | close
  | ping
  | pong
  deriving DecidableEq, Repr

def Opcode.byte : Opcode → UInt8
  | .continuation => 0x0
  | .text => 0x1
  | .binary => 0x2
  | .close => 0x8
  | .ping => 0x9
  | .pong => 0xa

def Opcode.ofByte (b : UInt8) : Option Opcode :=
  [continuation, text, binary, close, ping, pong].find? (·.byte == b)

/-- An opcode with a payload, whose length is a 64-bit number. -/
structure WsFrame where
  opcode : Opcode
  payload : List UInt8
  short : payload.length < UInt64.size
  deriving DecidableEq

/-- The first `Write` of `writeFrame`. -/
def WsFrame.header (f : WsFrame) : List UInt8 :=
  (0x80 ||| f.opcode.byte) ::
    if f.payload.length < 126 then [UInt8.ofNat f.payload.length]
    else if f.payload.length ≤ 0xffff then 126 :: putUintBE f.payload.length 2
    else 127 :: putUintBE f.payload.length 8

/-- All that `writeFrame` writes. -/
def WsFrame.bytes (f : WsFrame) : List UInt8 := f.header ++ f.payload

/-- `writeFrame(opcodeClose, nil)`. -/
def closeFrame : WsFrame := ⟨.close, [], by decide⟩

/-- A length read from its `k` bytes. -/
def readLength (k : Nat) : Reader UInt8 UInt64 := do
  let ext ← Reader.exactly k
  pure (UInt64.ofNat (uintBE ext.1))

/-- A frame from a payload of the length read. -/
def WsFrame.ofRead (opcode : Opcode) {plen : UInt64}
    (payload : { w : List UInt8 // w.length = plen.toNat }) : WsFrame :=
  ⟨opcode, payload.1, by rw [payload.2]; exact plen.toNat_lt⟩

/-- The rest of a frame, its length known. -/
def readPayload (opcode : Opcode) (plen : UInt64) : Reader UInt8 WsFrame := do
  let payload ← Reader.exactly plen.toNat
  pure (.ofRead opcode payload)

/-- What the peer reads: `readFrame` with the server's side of masking, as
the client of the tests reads it. -/
def readFrame : Reader UInt8 WsFrame := do
  let b ← Reader.next
  let len ← Reader.next
  match Opcode.ofByte (b &&& 0x0f) with
  | none => Reader.refuse
  | some opcode =>
      -- no fragments, no masks
      if b &&& 0x80 = 0 ∨ len &&& 0x80 ≠ 0 then Reader.refuse
      else if len &&& 0x7f = 126 then do readPayload opcode (← readLength 2)
      else if len &&& 0x7f = 127 then do readPayload opcode (← readLength 8)
      else readPayload opcode (len &&& 0x7f).toUInt64

/-! ## A frame is read back -/

theorem ofByte_first (opcode : Opcode) :
    Opcode.ofByte ((0x80 ||| opcode.byte) &&& 0x0f) = some opcode ∧
      (0x80 ||| opcode.byte) &&& 0x80 ≠ 0 := by
  cases opcode with
  | continuation | text | binary | close | ping | pong => decide

theorem reads_length {n k : Nat} (h : n < 256 ^ k) :
    Reader.Reads (readLength k) (putUintBE n k) (UInt64.ofNat n) := by
  have hread := (Reader.Reads.exactly (putUintBE n k) (length_putUintBE n k)).bind
    (k := fun ext => pure (UInt64.ofNat (uintBE ext.1))) (Reader.Reads.pure _)
  rwa [List.append_nil, uintBE_putUintBE, Nat.mod_eq_of_lt h] at hread

theorem reads_payload (f : WsFrame) {plen : UInt64} (h : plen.toNat = f.payload.length) :
    Reader.Reads (readPayload f.opcode plen) f.payload f := by
  have hread := (Reader.Reads.exactly f.payload h.symm).bind
    (k := fun payload => pure (WsFrame.ofRead f.opcode payload)) (Reader.Reads.pure _)
  rwa [List.append_nil] at hread

/-- The second byte of a header when it is the length itself. -/
theorem small_length {n : Nat} (h : n < 126) :
    UInt8.ofNat n &&& 0x80 = 0 ∧ UInt8.ofNat n &&& 0x7f = UInt8.ofNat n ∧
      UInt8.ofNat n ≠ 126 ∧ UInt8.ofNat n ≠ 127 ∧ (UInt8.ofNat n).toUInt64.toNat = n := by
  have hall : ∀ n < 126, UInt8.ofNat n &&& 0x80 = 0 ∧ UInt8.ofNat n &&& 0x7f = UInt8.ofNat n ∧
      UInt8.ofNat n ≠ 126 ∧ UInt8.ofNat n ≠ 127 ∧ (UInt8.ofNat n).toUInt64.toNat = n := by
    decide
  exact hall n h

/-- The second byte of a header when the length follows it. -/
theorem long_length : (126 : UInt8) &&& 0x80 = 0 ∧ (126 : UInt8) &&& 0x7f = 126 ∧
    (127 : UInt8) &&& 0x80 = 0 ∧ (127 : UInt8) &&& 0x7f = 127 := by
  decide

/-- **A frame is read back**, whatever follows it. -/
theorem reads_frame (f : WsFrame) : Reader.Reads readFrame f.bytes f := by
  obtain ⟨hopcode, hfin⟩ := ofByte_first f.opcode
  have hlen : (UInt64.ofNat f.payload.length).toNat = f.payload.length :=
    UInt64.toNat_ofNat_of_lt' f.short
  -- by the three forms of the length
  by_cases hsmall : f.payload.length < 126
  · obtain ⟨hmask, hseven, h126, h127, hval⟩ := small_length hsmall
    have hbytes : f.bytes = [0x80 ||| f.opcode.byte] ++
        ([UInt8.ofNat f.payload.length] ++ f.payload) := by
      rw [WsFrame.bytes, WsFrame.header, if_pos hsmall]
      rfl
    rw [hbytes]
    refine (Reader.Reads.next _).bind ((Reader.Reads.next _).bind ?_)
    simp only [hopcode, hfin, hmask, hseven, h126, h127, false_or, ne_eq, not_true, if_false]
    exact reads_payload f hval
  · by_cases hmid : f.payload.length ≤ 0xffff
    · have hbytes : f.bytes = [0x80 ||| f.opcode.byte] ++
          ([126] ++ (putUintBE f.payload.length 2 ++ f.payload)) := by
        rw [WsFrame.bytes, WsFrame.header, if_neg hsmall, if_pos hmid]
        simp
      rw [hbytes]
      refine (Reader.Reads.next _).bind ((Reader.Reads.next _).bind ?_)
      simp only [hopcode, hfin, long_length, false_or, ne_eq, not_true, if_false, if_true]
      exact (reads_length (by omega)).bind (reads_payload f hlen)
    · have hbytes : f.bytes = [0x80 ||| f.opcode.byte] ++
          ([127] ++ (putUintBE f.payload.length 8 ++ f.payload)) := by
        rw [WsFrame.bytes, WsFrame.header, if_neg hsmall, if_neg hmid]
        simp
      rw [hbytes]
      refine (Reader.Reads.next _).bind ((Reader.Reads.next _).bind ?_)
      simp only [hopcode, hfin, long_length, false_or, ne_eq, not_true, if_false, if_true]
      exact (reads_length f.short).bind (reads_payload f hlen)

theorem readFrame_steady : Reader.Steady readFrame := by
  have hpayload : ∀ opcode plen, Reader.Steady (readPayload opcode plen) :=
    fun opcode plen => (Reader.Steady.exactly _).bind fun _ => .pure _
  have hlength : ∀ k, Reader.Steady (readLength k) :=
    fun k => (Reader.Steady.exactly _).bind fun _ => .pure _
  refine Reader.Steady.next.bind fun b => Reader.Steady.next.bind fun len => ?_
  cases Opcode.ofByte (b &&& 0x0f) with
  | none => exact .refuse
  | some opcode =>
      dsimp only
      split
      · exact .refuse
      · split
        · exact (hlength 2).bind fun plen => hpayload opcode plen
        · split
          · exact (hlength 8).bind fun plen => hpayload opcode plen
          · exact hpayload opcode _

theorem bytes_ne_nil (f : WsFrame) : f.bytes ≠ [] := by
  simp [WsFrame.bytes, WsFrame.header]

/-- Whole frames and a part of one are read back as such. -/
theorem readAll_frames (frames : List WsFrame) {part : List UInt8} {f : WsFrame}
    (hpart : part <+: f.bytes) (hne : part ≠ f.bytes) :
    Reader.readAll readFrame (frames.flatMap WsFrame.bytes ++ part) = (frames, some part) :=
  Reader.readAll_eq (fun f _ => reads_frame f) bytes_ne_nil
    (readFrame_steady.more_of_part (reads_frame f) hpart hne)

/-! ## Two goroutines on a connection -/

/-- A goroutine that writes to the connection. -/
inductive Who where
  | reader
  | writer
  deriving DecidableEq, Repr

/-- Where a goroutine is: outside `writeFrame`, between its two writes,
at its end, or, for the handler, past `Close`. -/
inductive Lane where
  | idle
  | owing (f : WsFrame)
  | ended
  | closed
  deriving DecidableEq

/-- A connection: its goroutines, and the raw connection with the bytes
it took. -/
structure Conn where
  lane : Who → Lane
  broken : Bool
  out : List UInt8

/-- A step of a goroutine. -/
inductive Act where
  /-- a call of `writeFrame` with its first write -/
  | begins (who : Who) (f : WsFrame)
  /-- the second write -/
  | finishes (who : Who)
  /-- the same, when the write fails after `n` bytes -/
  | beginFails (who : Who) (f : WsFrame) (n : Nat)
  | finishFails (who : Who) (n : Nat)
  /-- the loop of a goroutine ends -/
  | ends (who : Who)
  | closes
  | closeFails (n : Nat)
  deriving DecidableEq

/-- The frames a goroutine sends: pongs from `Read`, binary frames from
`Write`. -/
def Sends : Who → WsFrame → Prop
  | .reader, f => f.opcode = .pong
  | .writer, f => f.opcode = .binary

namespace Conn

def setLane (c : Conn) (who : Who) (lane : Lane) : Conn :=
  { c with lane := Function.update c.lane who lane }

/-- A raw `Write` that succeeds. -/
def emit (c : Conn) (w : List UInt8) : Conn := { c with out := c.out ++ w }

/-- A raw `Write` that fails after `n` bytes. -/
def cut (c : Conn) (w : List UInt8) (n : Nat) : Conn :=
  { c with out := c.out ++ w.take n, broken := true }

/-- A write of `w` can fail after `n` bytes: before the last of them, and
at once on a broken connection. -/
def CutsAt (c : Conn) (w : List UInt8) (n : Nat) : Prop :=
  if c.broken then n = 0 else n < w.length

/-- An upgraded connection. -/
def upgraded : Conn := ⟨fun _ => .idle, false, []⟩

def Step (c : Conn) : Act → Conn → Prop
  | .begins who f, c' => c.lane who = .idle ∧ Sends who f ∧ c.broken = false ∧
      c' = (c.emit f.header).setLane who (if f.payload = [] then .idle else .owing f)
  | .finishes who, c' => ∃ f, c.lane who = .owing f ∧ c.broken = false ∧
      c' = (c.emit f.payload).setLane who .idle
  | .beginFails who f n, c' => c.lane who = .idle ∧ Sends who f ∧ c.CutsAt f.header n ∧
      c' = (c.cut f.header n).setLane who .ended
  | .finishFails who n, c' => ∃ f, c.lane who = .owing f ∧ c.CutsAt f.payload n ∧
      c' = (c.cut f.payload n).setLane who .ended
  | .ends who, c' => c.lane who = .idle ∧ c' = c.setLane who .ended
  -- the handler's, after `<-writerDone`
  | .closes, c' => c.lane .reader = .ended ∧ c.lane .writer = .ended ∧ c.broken = false ∧
      c' = { (c.emit closeFrame.header).setLane .reader .closed with broken := true }
  | .closeFails n, c' => c.lane .reader = .ended ∧ c.lane .writer = .ended ∧
      c.CutsAt closeFrame.header n ∧
      c' = (c.cut closeFrame.header n).setLane .reader .closed

/-- The runs of a connection. -/
abbrev Run : List (Act × Conn) → Conn → Prop := Path Step upgraded

/-- The frame whose `writeFrame` returns with this step. -/
def completed (step : Conn × Act × Conn) : Option WsFrame :=
  match step.2.1 with
  | .begins _ f => if f.payload = [] then some f else none
  | .finishes who => match step.1.lane who with
      | .owing f => some f
      | _ => none
  | .closes => some closeFrame
  | _ => none

/-- The frames written in a run, in order. -/
def written (hist : List (Act × Conn)) : List WsFrame :=
  (stepsOf upgraded hist).filterMap completed

/-- **The condition on a step**: a frame is begun only while no goroutine
is between the two writes of another. -/
def Alone (c : Conn) : Act → Prop
  | .begins _ _ | .beginFails _ _ _ => ∀ who f, c.lane who ≠ .owing f
  | _ => True

/-! ## What is on the wire -/

/-- The end of the output: nothing while no frame is begun, the header of
the one that is, or a part of a frame once the connection is broken. -/
inductive Tail (c : Conn) : List UInt8 → Prop where
  | quiet : c.broken = false → (∀ who f, c.lane who ≠ .owing f) → Tail c []
  | begun (who : Who) (f : WsFrame) : c.broken = false → c.lane who = .owing f →
      f.payload ≠ [] → (∀ other, other ≠ who → ∀ g, c.lane other ≠ .owing g) → Tail c f.header
  | broken (f : WsFrame) (part : List UInt8) : c.broken = true → part <+: f.bytes →
      part ≠ f.bytes → Tail c part

/-- Either way it is a part of a frame. -/
theorem Tail.part {c : Conn} {part : List UInt8} (h : Tail c part) :
    ∃ f : WsFrame, part <+: f.bytes ∧ part ≠ f.bytes := by
  cases h with
  | quiet => exact ⟨closeFrame, List.nil_prefix, (bytes_ne_nil _).symm⟩
  | begun who f _ _ hne _ =>
      refine ⟨f, List.prefix_append _ _, ?_⟩
      simpa [WsFrame.bytes] using hne.symm
  | broken f part _ hpart hne => exact ⟨f, hpart, hne⟩

/-- What is on the wire: the frames written and the end of the output. -/
structure OnWire (c : Conn) (frames : List WsFrame) (part : List UInt8) : Prop where
  out : c.out = frames.flatMap WsFrame.bytes ++ part
  tail : Tail c part

/-- Nothing is owed once both goroutines have ended. -/
theorem not_owing_of_ended {c : Conn} (hreader : c.lane .reader = .ended)
    (hwriter : c.lane .writer = .ended) (who : Who) (f : WsFrame) : c.lane who ≠ .owing f := by
  cases who with
  | reader => simp [hreader]
  | writer => simp [hwriter]

/-- Outside of every frame the output ends with a whole frame. -/
theorem Tail.eq_nil {c : Conn} {part : List UInt8} (h : Tail c part) (hbroken : c.broken = false)
    (hnone : ∀ who f, c.lane who ≠ .owing f) : part = [] := by
  cases h with
  | quiet => rfl
  | begun who f _ hat _ _ => exact absurd hat (hnone who f)
  | broken f part hyes => cases hyes.symm.trans hbroken

/-- Inside a frame the output ends with its header, and no other frame
is begun. -/
theorem Tail.eq_header {c : Conn} {part : List UInt8} (h : Tail c part)
    (hbroken : c.broken = false) {who : Who} {f : WsFrame} (hat : c.lane who = .owing f) :
    part = f.header ∧ ∀ other, other ≠ who → ∀ g, c.lane other ≠ .owing g := by
  cases h with
  | quiet _ hnone => exact absurd hat (hnone who f)
  | begun who' g _ hat' _ hother =>
      by_cases heq : who = who'
      · subst heq
        cases hat.symm.trans hat'
        exact ⟨rfl, hother⟩
      · exact absurd hat (hother who heq f)
  | broken f part hyes => cases hyes.symm.trans hbroken

/-- A goroutine that leaves a frame alone leaves the end of the output. -/
theorem Tail.setLane {c : Conn} {part : List UInt8} (h : Tail c part) {who : Who}
    (hat : ∀ f, c.lane who ≠ .owing f) {lane : Lane} (hlane : ∀ f, lane ≠ .owing f) :
    Tail (c.setLane who lane) part := by
  cases h with
  | quiet hbroken hnone =>
      refine .quiet hbroken fun other f => ?_
      by_cases heq : other = who
      · subst heq
        simpa [Conn.setLane] using hlane f
      · simpa [Conn.setLane, heq] using hnone other f
  | begun who' f hbroken hat' hne hother =>
      have hdiff : who' ≠ who := by
        intro heq
        subst heq
        exact hat f hat'
      refine .begun who' f hbroken (by simpa [Conn.setLane, hdiff] using hat') hne ?_
      intro other hothers g
      by_cases heq : other = who
      · subst heq
        simpa [Conn.setLane] using hlane g
      · simpa [Conn.setLane, heq] using hother other hothers g
  | broken f part hyes hpart hne => exact .broken f part hyes hpart hne

/-- A write that fails leaves a part of a frame at the end. -/
theorem OnWire.cut {c : Conn} {frames : List WsFrame} {part w : List UInt8} {n : Nat}
    (h : OnWire c frames part) (hcut : c.CutsAt w n)
    (hpart : c.broken = false → ∃ (f : WsFrame) (rest : List UInt8), f.bytes = part ++ w ++ rest)
    (who : Who) (lane : Lane) :
    ∃ part', OnWire ((c.cut w n).setLane who lane) frames part' := by
  refine ⟨part ++ w.take n, ?_, ?_⟩
  · show c.out ++ w.take n = _
    rw [h.out, List.append_assoc]
  · simp only [CutsAt] at hcut
    split at hcut
    · -- nothing was written
      obtain ⟨f, hstart, hne⟩ := h.tail.part
      subst hcut
      rw [List.take_zero, List.append_nil]
      exact .broken f part rfl hstart hne
    · rename_i hbroken
      obtain ⟨f, rest, hf⟩ := hpart (by simpa using hbroken)
      refine .broken f _ rfl ?_ ?_
      · refine ⟨w.drop n ++ rest, ?_⟩
        rw [hf, List.append_assoc, ← List.append_assoc (w.take n), List.take_append_drop,
          List.append_assoc]
      · intro heq
        have hlen := congrArg List.length (heq.trans hf)
        simp only [List.length_append, List.length_take] at hlen
        omega

/-- **One step** that meets the condition keeps whole frames on the
wire. -/
theorem OnWire.step {c c' : Conn} {act : Act} {frames : List WsFrame} {part : List UInt8}
    (h : OnWire c frames part) (hs : Step c act c') (halone : c.Alone act) :
    ∃ part', OnWire c' (frames ++ (completed (c, act, c')).toList) part' := by
  cases act with
  | begins who f =>
      obtain ⟨hat, -, hbroken, rfl⟩ := hs
      obtain rfl := h.tail.eq_nil hbroken halone
      have hout := h.out
      by_cases hempty : f.payload = []
      · refine ⟨[], ?_, ?_⟩
        · simp [Conn.setLane, emit, completed, hempty, hout, WsFrame.bytes]
        · rw [if_pos hempty]
          have hquiet : Tail (c.emit f.header) [] := .quiet hbroken halone
          exact hquiet.setLane (halone who) (by simp)
      · refine ⟨f.header, ?_, .begun who f hbroken ?_ hempty ?_⟩
        · simp [Conn.setLane, emit, completed, hempty, hout]
        · simp [Conn.setLane, hempty]
        · intro other hother g
          simpa [Conn.setLane, emit, hother] using halone other g
  | finishes who =>
      obtain ⟨f, hat, hbroken, rfl⟩ := hs
      obtain ⟨rfl, hother⟩ := h.tail.eq_header hbroken hat
      refine ⟨[], ?_, .quiet hbroken ?_⟩
      · simp [Conn.setLane, emit, completed, hat, h.out, WsFrame.bytes]
      · intro other g
        by_cases heq : other = who
        · subst heq
          simp [Conn.setLane]
        · simpa [Conn.setLane, heq, emit] using hother other heq g
  | beginFails who f n =>
      obtain ⟨hat, -, hcut, rfl⟩ := hs
      simp only [completed, Option.toList_none, List.append_nil]
      refine h.cut hcut (fun hbroken => ⟨f, f.payload, ?_⟩) who .ended
      rw [h.tail.eq_nil hbroken halone]
      rfl
  | finishFails who n =>
      obtain ⟨f, hat, hcut, rfl⟩ := hs
      simp only [completed, Option.toList_none, List.append_nil]
      refine h.cut hcut (fun hbroken => ⟨f, [], ?_⟩) who .ended
      rw [(h.tail.eq_header hbroken hat).1, List.append_nil]
      rfl
  | ends who =>
      obtain ⟨hat, rfl⟩ := hs
      refine ⟨part, ?_, h.tail.setLane (by simp [hat]) (by simp)⟩
      simpa [Conn.setLane, completed] using h.out
  | closes =>
      obtain ⟨hreader, hwriter, hbroken, rfl⟩ := hs
      obtain rfl := h.tail.eq_nil hbroken (not_owing_of_ended hreader hwriter)
      refine ⟨[], ?_, .broken closeFrame [] rfl List.nil_prefix (bytes_ne_nil _).symm⟩
      simp [Conn.setLane, emit, completed, h.out, WsFrame.bytes, closeFrame]
  | closeFails n =>
      obtain ⟨hreader, hwriter, hcut, rfl⟩ := hs
      simp only [completed, Option.toList_none, List.append_nil]
      refine h.cut hcut (fun hbroken => ⟨closeFrame, [], ?_⟩) .reader .closed
      rw [h.tail.eq_nil hbroken (not_owing_of_ended hreader hwriter)]
      simp [WsFrame.bytes, closeFrame]

/-- **Run lemma**. -/
theorem onWire_of_run {hist : List (Act × Conn)} {c : Conn} (hrun : Run hist c)
    (halone : ∀ step ∈ stepsOf upgraded hist, step.1.Alone step.2.1) :
    ∃ part, OnWire c (written hist) part := by
  induction hrun with
  | start => exact ⟨[], rfl, .quiet rfl (by simp [upgraded])⟩
  | @snoc hist c c' act hp hs ih =>
      rw [hp.stepsOf_snoc] at halone
      obtain ⟨part, hwire⟩ := ih fun step hstep => halone step (List.mem_append_left _ hstep)
      have hlast := halone (c, act, c') (List.mem_append_right _ (List.mem_singleton_self _))
      have hwritten : written (hist ++ [(act, c')]) =
          written hist ++ (completed (c, act, c')).toList := by
        rw [written, hp.stepsOf_snoc, filterMap_snoc, ← written]
      rw [hwritten]
      exact hwire.step hs hlast

/-- **Whole frames.** In a run in which no goroutine begins a frame
between the two writes of another, the output is at all times the frames
written followed by a part of one, and the peer reads exactly these. -/
theorem output_whole {hist : List (Act × Conn)} {c : Conn} (hrun : Run hist c)
    (halone : ∀ step ∈ stepsOf upgraded hist, step.1.Alone step.2.1) :
    ∃ part : List UInt8, c.out = (written hist).flatMap WsFrame.bytes ++ part ∧
      (∃ f : WsFrame, part <+: f.bytes ∧ part ≠ f.bytes) ∧
      Reader.readAll readFrame c.out = (written hist, some part) := by
  obtain ⟨part, hwire⟩ := onWire_of_run hrun halone
  obtain ⟨f, hpart, hne⟩ := hwire.tail.part
  refine ⟨part, hwire.out, ⟨f, hpart, hne⟩, ?_⟩
  rw [hwire.out]
  exact readAll_frames _ hpart hne

/-- A pong, then a binary frame. -/
theorem output_whole_sample :
    ∃ (hist : List (Act × Conn)) (c : Conn),
      hist.map Prod.fst = [.begins .reader ⟨.pong, [7], by decide⟩, .finishes .reader,
        .begins .writer ⟨.binary, [1, 2], by decide⟩] ∧
      ∃ part : List UInt8, c.out = (written hist).flatMap WsFrame.bytes ++ part ∧
        (∃ f : WsFrame, part <+: f.bytes ∧ part ≠ f.bytes) ∧
        Reader.readAll readFrame c.out = (written hist, some part) := by
  have hrun := (Path.start : Run _ _)
    |>.next (.begins .reader ⟨.pong, [7], by decide⟩) ⟨rfl, rfl, rfl, rfl⟩
    |>.next (.finishes .reader) ⟨_, rfl, rfl, rfl⟩
    |>.next (.begins .writer ⟨.binary, [1, 2], by decide⟩) ⟨rfl, rfl, rfl, rfl⟩
  refine ⟨_, _, rfl, output_whole hrun ?_⟩
  intro step hstep
  simp only [List.nil_append, List.cons_append, stepsOf, List.mem_cons, List.not_mem_nil,
    or_false] at hstep
  rcases hstep with rfl | rfl | rfl
  · exact fun _ _ hat => nomatch hat
  · trivial
  · intro who f hat
    cases who with
    | reader => cases hat
    | writer => cases hat

/-- Whole frames and a part of one are never refused. -/
theorem readAll_ne_refused (frames : List WsFrame) {part : List UInt8} {f : WsFrame}
    (hpart : part <+: f.bytes) :
    (Reader.readAll readFrame (frames.flatMap WsFrame.bytes ++ part)).2 ≠ none := by
  by_cases hwhole : part = f.bytes
  · have heq : frames.flatMap WsFrame.bytes ++ part =
        (frames ++ [f]).flatMap WsFrame.bytes ++ [] := by
      simp [hwhole]
    rw [heq, readAll_frames _ List.nil_prefix (bytes_ne_nil f).symm]
    simp
  · rw [readAll_frames _ hpart hwhole]
    simp

/-- A ping is answered while a binary frame of one byte is being sent:
the peer reads a binary frame that was not written, and refuses the
rest. -/
theorem output_torn :
    ∃ (hist : List (Act × Conn)) (c : Conn), Run hist c ∧
      hist.map Prod.fst = [.begins .writer ⟨.binary, [1], by decide⟩,
        .begins .reader ⟨.pong, [7], by decide⟩, .finishes .reader, .finishes .writer] ∧
      c.out = [0x82, 0x01, 0x8a, 0x01, 7, 1] ∧
      Reader.readAll readFrame c.out = ([⟨.binary, [0x8a], by decide⟩], none) ∧
      ¬ ∃ (frames : List WsFrame) (part : List UInt8) (f : WsFrame),
        c.out = frames.flatMap WsFrame.bytes ++ part ∧ part <+: f.bytes := by
  have hrun := (Path.start : Run _ _)
    |>.next (.begins .writer ⟨.binary, [1], by decide⟩) ⟨rfl, rfl, rfl, rfl⟩
    |>.next (.begins .reader ⟨.pong, [7], by decide⟩) ⟨rfl, rfl, rfl, rfl⟩
    |>.next (.finishes .reader) ⟨_, rfl, rfl, rfl⟩
    |>.next (.finishes .writer) ⟨_, rfl, rfl, rfl⟩
  have hread : Reader.readAll readFrame [0x82, 0x01, 0x8a, 0x01, 7, 1] =
      ([⟨.binary, [0x8a], by decide⟩], none) := by decide
  refine ⟨_, _, hrun, rfl, rfl, hread, ?_⟩
  intro h
  obtain ⟨frames, part, f, hout, hpart⟩ := h
  have hread' := readAll_ne_refused frames hpart
  rw [← hout] at hread'
  exact hread' (congrArg Prod.snd hread)

end Conn

end CardTable.Go.Ws
