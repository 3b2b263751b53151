import CardTable.Basis.Bytes
import CardTable.Basis.Outcome
import CardTable.Basis.Run

/-!
# Ts.RelayClient — frames in the browser

`packages/wire-ts/src/frame.ts`, `apps/client-web/src/relay-client.ts`
and the event listener of `apps/client-web/src/store.ts`. Each message of
the socket starts a `handleMessage` of its own. It runs up to the digest
of the payload, which `crypto.subtle` computes elsewhere, and goes on when
that digest resolves: several wait at a time, and nothing in the code
says in which order they resolve.

`JSON.parse` is a parameter; the times of the store's errors are left
out.
-/

namespace CardTable.Ts

open Basis

/-! ## Wire frames -/

def wireMagic : List UInt8 := [0x43, 0x41, 0x52, 0x44]

def headerSize : Nat := 16

def maxPayloadSize : Nat := 32 * 1024 * 1024

/-- `MsgType.TableState`. -/
def msgTableState : UInt16 := 0x0380

/-- `MsgType.ErrorReply`. -/
def msgErrorReply : UInt16 := 0x03fe

/-- `Frame`; the type is the number read, cast. -/
structure WireFrame where
  version : UInt16
  type : UInt16
  payload : List UInt8
  deriving DecidableEq, Repr

/-- What `encode` and `decode` throw. -/
inductive WireError where
  | badMagic
  | badChecksum
  | payloadTooLarge (size : Nat)
  | shortFrame (got need : Nat)
  deriving DecidableEq, Repr

def WireError.message : WireError → String
  | .badMagic => "wire: bad magic (expected CARD)"
  | .badChecksum => "wire: bad payload checksum"
  | .payloadTooLarge size => s!"wire: payload too large ({size} > {maxPayloadSize})"
  | .shortFrame got need => s!"wire: short frame (have {got} bytes, need at least {need})"

/-- `checksumOf`, once the digest is there. -/
def checksumOf (payload : List UInt8) : List UInt8 := (Sha256.sha256 payload).take 4

/-- `encode`. -/
def encode (frame : WireFrame) : Except WireError (List UInt8) :=
  if frame.payload.length > maxPayloadSize then .error (.payloadTooLarge frame.payload.length)
  else .ok (wireMagic ++ putUintLE frame.version.toNat 2 ++ putUintLE frame.type.toNat 2 ++
    putUintLE frame.payload.length 4 ++ checksumOf frame.payload ++ frame.payload)

/-- A `decode` that waits for the digest of its payload. -/
structure Digesting where
  frame : WireFrame
  checksum : List UInt8
  deriving DecidableEq, Repr

/-- `decode` up to its `await`. -/
def decodeStart (buf : List UInt8) : Except WireError Digesting :=
  if buf.length < headerSize then .error (.shortFrame buf.length headerSize)
  else if buf.take 4 ≠ wireMagic then .error .badMagic
  else
    let length := uintLE ((buf.drop 8).take 4)
    if length > maxPayloadSize then .error (.payloadTooLarge length)
    else if buf.length < headerSize + length then
      .error (.shortFrame buf.length (headerSize + length))
    else .ok {
      frame := {
        version := UInt16.ofNat (uintLE ((buf.drop 4).take 2))
        type := UInt16.ofNat (uintLE ((buf.drop 6).take 2))
        payload := (buf.drop headerSize).take length }
      checksum := (buf.drop 12).take 4 }

/-- `decode` from its `await` on. -/
def Digesting.resume (d : Digesting) : Except WireError WireFrame :=
  if d.checksum = checksumOf d.frame.payload then .ok d.frame else .error .badChecksum

/-- `decode`. -/
def decode (buf : List UInt8) : Except WireError WireFrame := do
  let d ← decodeStart buf
  d.resume

theorem length_checksumOf (payload : List UInt8) : (checksumOf payload).length = 4 := by
  rw [checksumOf, List.length_take, Sha256.length_sha256]
  rfl

/-- The bytes between two parts of known length. -/
theorem slice_append {front mid back : List UInt8} {i n : Nat} (hi : front.length = i)
    (hn : mid.length = n) : ((front ++ (mid ++ back)).drop i).take n = mid := by
  subst hi hn
  rw [List.drop_left, List.take_left]

/-- **Round trip**: a frame encoded is read up to the digest, and its
checksum is right. -/
theorem decodeStart_encode {frame : WireFrame} {buf : List UInt8} (h : encode frame = .ok buf) :
    decodeStart buf = .ok ⟨frame, checksumOf frame.payload⟩ := by
  simp only [encode] at h
  split at h
  · cases h
  rename_i hsmall
  have hbuf := (Except.ok.inj h).symm
  simp only [List.append_assoc] at hbuf
  have hsum := length_checksumOf frame.payload
  have hlen : buf.length = headerSize + frame.payload.length := by
    rw [hbuf]
    simp only [List.length_append, length_putUintLE, hsum, wireMagic, headerSize, List.length_cons,
      List.length_nil]
    omega
  -- the fields, each between what is before and after it
  have hmagic : buf.take 4 = wireMagic := by
    rw [hbuf]
    exact List.take_left' rfl
  have hversion : (buf.drop 4).take 2 = putUintLE frame.version.toNat 2 := by
    rw [hbuf]
    exact slice_append rfl (length_putUintLE ..)
  have htype : (buf.drop 6).take 2 = putUintLE frame.type.toNat 2 := by
    rw [hbuf, ← List.append_assoc wireMagic]
    exact slice_append (by simp [wireMagic]) (length_putUintLE ..)
  have hlength : (buf.drop 8).take 4 = putUintLE frame.payload.length 4 := by
    rw [hbuf, ← List.append_assoc wireMagic, ← List.append_assoc (wireMagic ++ _)]
    exact slice_append (by simp [wireMagic]) (length_putUintLE ..)
  have hchecksum : (buf.drop 12).take 4 = checksumOf frame.payload := by
    rw [hbuf, ← List.append_assoc wireMagic, ← List.append_assoc (wireMagic ++ _),
      ← List.append_assoc (wireMagic ++ _ ++ _)]
    exact slice_append (by simp [wireMagic]) hsum
  have hpayload : (buf.drop headerSize).take frame.payload.length = frame.payload := by
    have hfront : (wireMagic ++ putUintLE frame.version.toNat 2 ++ putUintLE frame.type.toNat 2 ++
        putUintLE frame.payload.length 4 ++ checksumOf frame.payload).length = headerSize := by
      simp [wireMagic, hsum, headerSize]
    have hslice : ((_ ++ (frame.payload ++ [])).drop _).take _ = _ := slice_append hfront rfl
    rw [hbuf]
    simpa only [List.append_assoc, List.append_nil] using hslice
  have hfits : uintLE (putUintLE frame.payload.length 4) = frame.payload.length := by
    rw [uintLE_putUintLE]
    exact Nat.mod_eq_of_lt (by simp only [maxPayloadSize] at hsmall; omega)
  have hword : ∀ n : UInt16, UInt16.ofNat (uintLE (putUintLE n.toNat 2)) = n := by
    intro n
    rw [uintLE_putUintLE, Nat.mod_eq_of_lt (show n.toNat < 256 ^ 2 from n.toNat_lt),
      UInt16.ofNat_toNat]
  rw [decodeStart, if_neg (by omega), if_neg (by simp [hmagic])]
  simp only [hlength, hfits, hversion, htype, hword, hchecksum, hpayload]
  rw [if_neg hsmall, if_neg (by omega)]

theorem decode_encode {frame : WireFrame} {buf : List UInt8} (h : encode frame = .ok buf) :
    decode buf = .ok frame := by
  rw [decode, decodeStart_encode h]
  show Digesting.resume _ = _
  rw [Digesting.resume, if_pos rfl]

/-! ## The client and its listener -/

/-- `RelayEvent`. -/
inductive RelayEvent where
  | opened
  | closed (code : Nat) (reason : String)
  | error (message : String)
  | frame (frame : WireFrame)
  deriving DecidableEq, Repr

/-- What the socket delivers. -/
inductive Message where
  | text (data : String)
  | binary (data : List UInt8)
  deriving DecidableEq, Repr

inductive ConnectionMode where
  | offline
  | connecting
  | online
  | error
  deriving DecidableEq, Repr

/-- What the events of a socket change in the store. -/
structure TableStore (S : Type) where
  state : S
  lastError : Option (String × String)
  connection : ConnectionMode
  deriving DecidableEq, Repr

/-- `JSON.parse` of a decoded payload, for the two types of frames the
store reads: the value, or the message of the error thrown. -/
structure Json (S : Type) where
  state : List UInt8 → Except String S
  reply : List UInt8 → Except String (String × String)

variable {S : Type}

/-- `handleFrame`. -/
def handleFrame (json : Json S) (store : TableStore S) (frame : WireFrame) : TableStore S :=
  if frame.type = msgTableState then
    match json.state frame.payload with
    | .ok next => { store with state := next, lastError := none }
    | .error e => { store with lastError := some ("SERIALISATION_ERROR", e) }
  else if frame.type = msgErrorReply then
    match json.reply frame.payload with
    | .ok body => { store with lastError := some body }
    | .error e => { store with lastError := some ("SERIALISATION_ERROR", e) }
  else store

/-- `onRelayEvent`. -/
def onRelayEvent (json : Json S) (store : TableStore S) : RelayEvent → TableStore S
  | .opened => { store with connection := .online }
  | .closed _ _ => { store with connection := .offline }
  | .error message =>
      { store with connection := .error, lastError := some ("STATE_NOT_FOUND", message) }
  | .frame frame => handleFrame json store frame

/-- A client with the store that listens to it: the decodes that wait
for a digest, oldest message first, and the events emitted. -/
structure RelayClient (S : Type) where
  digesting : List Digesting
  emitted : List RelayEvent
  store : TableStore S

/-- What the runtime hands the client. -/
inductive SocketAct where
  | message (data : Message)
  /-- a digest resolves, the one `older` decodes wait before -/
  | digested (older : Nat)
  | opened
  | closed (code : Nat) (reason : String)
  | failed
  deriving DecidableEq, Repr

namespace RelayClient

/-- A client with nothing received. -/
def connecting (store : TableStore S) : RelayClient S := ⟨[], [], store⟩

/-- `emit`. -/
def emit (json : Json S) (c : RelayClient S) (ev : RelayEvent) : RelayClient S :=
  { c with emitted := c.emitted ++ [ev], store := onRelayEvent json c.store ev }

/-- The `catch` of `handleMessage`. -/
def decodeFailed (json : Json S) (c : RelayClient S) (e : WireError) : RelayClient S :=
  c.emit json (.error s!"decode failed: {e.message}")

/-- `handleMessage`, up to the digest. -/
def handleMessage (json : Json S) (c : RelayClient S) : Message → RelayClient S
  | .text _ => c.emit json (.error "text frame received; binary only")
  | .binary data =>
      match decodeStart data with
      | .ok d => { c with digesting := c.digesting ++ [d] }
      | .error e => c.decodeFailed json e

/-- `handleMessage`, from the digest on. -/
def resume (json : Json S) (c : RelayClient S) (d : Digesting) : RelayClient S :=
  match d.resume with
  | .ok frame => c.emit json (.frame frame)
  | .error e => c.decodeFailed json e

/-- One task of the event loop. -/
def Step (json : Json S) (c : RelayClient S) : SocketAct → RelayClient S → Prop
  | .message data, c' => c' = c.handleMessage json data
  | .digested older, c' => ∃ d, c.digesting[older]? = some d ∧
      c' = resume json { c with digesting := c.digesting.eraseIdx older } d
  | .opened, c' => c' = c.emit json .opened
  | .closed code reason, c' => c' = c.emit json (.closed code reason)
  | .failed, c' => c' = c.emit json (.error "websocket error")

/-- The runs of a client on one socket. -/
abbrev Run (json : Json S) (store : TableStore S) :
    List (SocketAct × RelayClient S) → RelayClient S → Prop :=
  Path (Step json) (connecting store)

end RelayClient

/-! ## Frames received and emitted -/

/-- The frame of a decode whose checksum is right. -/
def Digesting.frame? (d : Digesting) : Option WireFrame := d.resume.toOption

/-- The frame of a message. -/
def Message.frame? : Message → Option WireFrame
  | .text _ => none
  | .binary data => (decode data).toOption

/-- The frame of an event. -/
def RelayEvent.frame? : RelayEvent → Option WireFrame
  | .frame f => some f
  | _ => none

/-- The message of a step. -/
def SocketAct.message? : SocketAct → Option Message
  | .message data => some data
  | _ => none

namespace RelayClient

/-- The frames received, in order of arrival. -/
def received (hist : List (SocketAct × RelayClient S)) : List WireFrame :=
  hist.filterMap fun step => step.1.message?.bind Message.frame?

/-- The frames emitted. -/
def delivered (c : RelayClient S) : List WireFrame := c.emitted.filterMap RelayEvent.frame?

/-- **The condition on a step**: when a digest resolves and the checksum
is right, no older message with a right checksum still waits. -/
def InOrder (c : RelayClient S) : SocketAct → Prop
  | .digested older => ∀ d, c.digesting[older]? = some d → d.frame?.isSome →
      ∀ o ∈ c.digesting.take older, o.frame? = none
  | _ => True

/-- The state of the store after some frames. -/
def stateAfter (json : Json S) (state : S) (frames : List WireFrame) : S :=
  frames.foldl (fun state frame =>
    if frame.type = msgTableState then (json.state frame.payload).toOption.getD state else state) state

/-! ## What a step adds -/

/-- The frames that wait for their digest, oldest first. -/
def waiting (c : RelayClient S) : List WireFrame := c.digesting.filterMap Digesting.frame?

variable {json : Json S} {store : TableStore S} {c c' : RelayClient S} {act : SocketAct}
  {hist : List (SocketAct × RelayClient S)}

@[simp] theorem delivered_emit (c : RelayClient S) (ev : RelayEvent) :
    (c.emit json ev).delivered = c.delivered ++ ev.frame?.toList :=
  filterMap_snoc ..

@[simp] theorem waiting_emit (c : RelayClient S) (ev : RelayEvent) :
    (c.emit json ev).waiting = c.waiting := rfl

/-- A message is read up to its digest, or fails. -/
theorem message_frame (data : List UInt8) :
    (Message.binary data).frame? = match decodeStart data with
      | .ok d => d.frame?
      | .error _ => none := by
  simp only [Message.frame?, decode]
  cases decodeStart data with
  | ok d => rfl
  | error e => rfl

/-- Taking the decode at one place out of those that wait. -/
theorem waiting_split {older : Nat} {d : Digesting} (hat : c.digesting[older]? = some d) :
    c.waiting = (c.digesting.take older).filterMap Digesting.frame? ++
        (d.frame?.toList ++ (c.digesting.drop (older + 1)).filterMap Digesting.frame?) ∧
      (c.digesting.eraseIdx older).filterMap Digesting.frame? =
        (c.digesting.take older).filterMap Digesting.frame? ++
          (c.digesting.drop (older + 1)).filterMap Digesting.frame? := by
  obtain ⟨hlt, hget⟩ := List.getElem?_eq_some_iff.mp hat
  constructor
  · have hsplit : c.digesting =
        c.digesting.take older ++ d :: c.digesting.drop (older + 1) := by
      rw [← hget, ← List.drop_eq_getElem_cons hlt, List.take_append_drop]
    conv_lhs => rw [waiting, hsplit, List.filterMap_append, filterMap_cons_toList]
  · rw [List.eraseIdx_eq_take_drop_succ, List.filterMap_append]

/-- **One step** in order: what was delivered with what waits grows by
the frame of the message received. -/
theorem account_step (hs : Step json c act c') (horder : c.InOrder act) :
    c'.delivered ++ c'.waiting =
      c.delivered ++ c.waiting ++ (act.message?.bind Message.frame?).toList := by
  cases act with
  | message data =>
      obtain rfl := hs
      cases data with
      | text data =>
          simp [handleMessage, SocketAct.message?, Message.frame?, RelayEvent.frame?]
      | binary data =>
          simp only [handleMessage, SocketAct.message?, Option.bind_some, message_frame]
          cases decodeStart data with
          | error e => simp [decodeFailed, RelayEvent.frame?]
          | ok d =>
              show c.delivered ++ (c.digesting ++ [d]).filterMap Digesting.frame? = _
              rw [filterMap_snoc, ← List.append_assoc]
              rfl
  | digested older =>
      obtain ⟨d, hat, rfl⟩ := hs
      obtain ⟨hall, hrest⟩ := waiting_split hat
      simp only [SocketAct.message?, Option.bind_none, Option.toList_none, List.append_nil]
      cases hresume : d.resume with
      | error e =>
          have hframe : d.frame? = none := by rw [Digesting.frame?, hresume]; rfl
          rw [hframe, Option.toList_none, List.nil_append] at hall
          simp only [resume, hresume, decodeFailed, delivered_emit, waiting_emit,
            RelayEvent.frame?, Option.toList_none, List.append_nil]
          show c.delivered ++ (c.digesting.eraseIdx older).filterMap Digesting.frame? = _
          rw [hrest, hall]
      | ok f =>
          have hframe : d.frame? = some f := by rw [Digesting.frame?, hresume]; rfl
          -- nothing older is left that will be delivered
          have hnone : (c.digesting.take older).filterMap Digesting.frame? = [] :=
            List.filterMap_eq_nil_iff.mpr (horder d hat (by rw [hframe]; rfl))
          rw [hframe, hnone, Option.toList_some, List.nil_append] at hall
          simp only [resume, hresume, delivered_emit, waiting_emit, RelayEvent.frame?,
            Option.toList_some]
          show c.delivered ++ [f] ++ (c.digesting.eraseIdx older).filterMap Digesting.frame? = _
          rw [hrest, hall, hnone, List.nil_append, List.append_assoc]
  | opened | closed | failed =>
      obtain rfl := hs
      simp [RelayEvent.frame?, SocketAct.message?]

/-- **The account of a socket**: in a run whose digests resolve in order,
the frames delivered and those that wait are the frames received. -/
theorem account (hrun : Run json store hist c)
    (horder : ∀ step ∈ stepsOf (connecting store) hist, step.1.InOrder step.2.1) :
    c.delivered ++ c.waiting = received hist := by
  induction hrun with
  | start => rfl
  | @snoc hist c c' act hp hs ih =>
      rw [hp.stepsOf_snoc] at horder
      have hprev := ih fun step hstep => horder step (List.mem_append_left _ hstep)
      have hlast := horder (c, act, c') (List.mem_append_right _ (List.mem_singleton_self _))
      rw [account_step hs hlast, hprev, received, received, filterMap_snoc]

/-! ## The store -/

theorem stateAfter_append (json : Json S) (state : S) (xs ys : List WireFrame) :
    stateAfter json state (xs ++ ys) = stateAfter json (stateAfter json state xs) ys :=
  List.foldl_append

/-- An event sets the state to that of its frame, if it has one. -/
theorem state_emit (c : RelayClient S) (ev : RelayEvent) :
    (c.emit json ev).store.state = stateAfter json c.store.state ev.frame?.toList := by
  cases ev with
  | opened | closed | error => rfl
  | frame f =>
      simp only [emit, onRelayEvent, handleFrame, RelayEvent.frame?, Option.toList_some, stateAfter,
        List.foldl_cons, List.foldl_nil]
      split
      · cases json.state f.payload with
        | ok next => rfl
        | error e => rfl
      · split
        · cases json.reply f.payload with
          | ok body => rfl
          | error e => rfl
        · rfl

/-- A step that emits one event, or none. -/
theorem step_emits (hs : Step json c act c') :
    (c'.store = c.store ∧ c'.emitted = c.emitted) ∨
      ∃ ev, ∃ b : RelayClient S, b.store = c.store ∧ b.emitted = c.emitted ∧ c' = b.emit json ev := by
  cases act with
  | message data =>
      obtain rfl := hs
      cases data with
      | text data => exact .inr ⟨_, c, rfl, rfl, rfl⟩
      | binary data =>
          simp only [handleMessage]
          cases decodeStart data with
          | ok d => exact .inl ⟨rfl, rfl⟩
          | error e => exact .inr ⟨_, c, rfl, rfl, rfl⟩
  | digested older =>
      obtain ⟨d, -, rfl⟩ := hs
      simp only [resume]
      cases d.resume with
      | ok f => exact .inr ⟨_, { c with digesting := c.digesting.eraseIdx older }, rfl, rfl, rfl⟩
      | error e => exact .inr ⟨_, { c with digesting := c.digesting.eraseIdx older }, rfl, rfl, rfl⟩
  | opened | closed | failed => exact .inr ⟨_, c, rfl, rfl, hs⟩

/-- The state of the store is that of the frames delivered. -/
theorem state_eq (hrun : Run json store hist c) :
    c.store.state = stateAfter json store.state c.delivered := by
  induction hrun with
  | start => rfl
  | @snoc hist c c' act hp hs ih =>
      rcases step_emits hs with ⟨hstore, hemitted⟩ | ⟨ev, b, hstore, hemitted, rfl⟩
      · rw [hstore, ih, delivered, delivered, hemitted]
      · have hdelivered : b.delivered = c.delivered := by rw [delivered, delivered, hemitted]
        rw [state_emit, hstore, ih, delivered_emit, hdelivered, stateAfter_append]

/-- The last table state decides. -/
theorem stateAfter_last {state v : S} {before after : List WireFrame} {f : WireFrame}
    (htype : f.type = msgTableState) (hlast : ∀ g ∈ after, g.type ≠ msgTableState)
    (hparse : json.state f.payload = .ok v) :
    stateAfter json state (before ++ f :: after) = v := by
  have hquiet : ∀ state, stateAfter json state after = state := by
    induction after with
    | nil => exact fun _ => rfl
    | cons g after ih =>
        intro state
        rw [stateAfter, List.foldl_cons, if_neg (hlast g List.mem_cons_self)]
        exact ih (fun g hg => hlast g (List.mem_cons_of_mem _ hg)) state
  rw [stateAfter_append, stateAfter, List.foldl_cons, if_pos htype, hparse]
  exact hquiet _

/-! ## Arrival order -/

/-- What a client owes the messages of a run. -/
structure Faithful (json : Json S) (hist : List (SocketAct × RelayClient S)) (c : RelayClient S) :
    Prop where
  /-- frames are delivered in order of arrival -/
  order : c.delivered <+: received hist
  /-- and all of them once no digest is awaited -/
  all : c.digesting = [] → c.delivered = received hist
  /-- the state is then the last table state received -/
  state : c.digesting = [] → ∀ before f after v, received hist = before ++ f :: after →
    f.type = msgTableState → (∀ g ∈ after, g.type ≠ msgTableState) →
    json.state f.payload = .ok v → c.store.state = v

/-- **Arrival order**: in every run whose digests resolve in order, frame
by frame, the client is faithful. -/
theorem frames_in_order (json : Json S) (store : TableStore S) (hrun : Run json store hist c)
    (horder : ∀ step ∈ stepsOf (connecting store) hist, step.1.InOrder step.2.1) :
    Faithful json hist c := by
  have haccount := account hrun horder
  have hall : c.digesting = [] → c.delivered = received hist := by
    intro hidle
    rw [← haccount, waiting, hidle]
    simp
  constructor
  · exact ⟨c.waiting, haccount⟩
  · exact hall
  · intro hidle before f after v hreceived htype hlast hparse
    rw [state_eq hrun, hall hidle, hreceived]
    exact stateAfter_last htype hlast hparse

/-! ## Two table states -/

/-- The bytes of a frame. -/
def sent (frame : WireFrame) : List UInt8 := (encode frame).toOption.getD []

/-- A decode of a frame that was sent. -/
def awaiting (frame : WireFrame) : Digesting := ⟨frame, checksumOf frame.payload⟩

theorem encode_sent {frame : WireFrame} (h : frame.payload.length ≤ maxPayloadSize) :
    encode frame = .ok (sent frame) := by
  rw [sent, encode, if_neg (Nat.not_lt.mpr h)]
  rfl

theorem sent_frame {frame : WireFrame} (h : frame.payload.length ≤ maxPayloadSize) :
    (Message.binary (sent frame)).frame? = some frame := by
  rw [Message.frame?, decode_encode (encode_sent h)]
  rfl

theorem step_sent {frame : WireFrame} (h : frame.payload.length ≤ maxPayloadSize)
    (c : RelayClient S) : Step json c (.message (.binary (sent frame)))
      { c with digesting := c.digesting ++ [awaiting frame] } := by
  show _ = _
  rw [handleMessage, decodeStart_encode (encode_sent h)]
  rfl

theorem step_awaiting {frame : WireFrame} {older : Nat}
    (hat : c.digesting[older]? = some (awaiting frame)) : Step json c (.digested older)
      { digesting := c.digesting.eraseIdx older
        emitted := c.emitted ++ [.frame frame]
        store := handleFrame json c.store frame } := by
  refine ⟨awaiting frame, hat, ?_⟩
  rw [resume, awaiting, Digesting.resume, if_pos rfl]
  rfl

/-- A reader of one-digit texts. -/
def digitJson : Json Nat where
  state
    | [b] => if 0x30 ≤ b ∧ b ≤ 0x39 then .ok (b - 0x30).toNat else .error "Unexpected token"
    | _ => .error "Unexpected token"
  reply _ := .error "Unexpected token"

/-- A table state whose payload is one digit. -/
def digitState (b : UInt8) : WireFrame := ⟨0x0100, msgTableState, [b]⟩

def digitStore : TableStore Nat := ⟨0, none, .connecting⟩

theorem digitState_small (b : UInt8) : (digitState b).payload.length ≤ maxPayloadSize := by
  simp [digitState, maxPayloadSize]

/-- Two table states, their digests in order: the second stays. -/
theorem frames_in_order_sample :
    ∃ (hist : List (SocketAct × RelayClient Nat)) (c : RelayClient Nat),
      hist.map Prod.fst = [.message (.binary (sent (digitState 0x31))),
        .message (.binary (sent (digitState 0x32))), .digested 0, .digested 0] ∧
      c.digesting = [] ∧ c.store.state = 2 ∧ Faithful digitJson hist c := by
  have hrun := (Path.start : Run digitJson digitStore _ _)
    |>.next _ (step_sent (digitState_small 0x31) _)
    |>.next _ (step_sent (digitState_small 0x32) _)
    |>.next (.digested 0) (step_awaiting rfl)
    |>.next (.digested 0) (step_awaiting rfl)
  refine ⟨_, _, rfl, ?_, ?_, frames_in_order digitJson digitStore hrun ?_⟩
  · rfl
  · rfl
  · intro step hstep
    simp only [List.nil_append, List.cons_append, stepsOf, List.mem_cons, List.not_mem_nil,
      or_false] at hstep
    rcases hstep with rfl | rfl | rfl | rfl
    · trivial
    · trivial
    · exact fun _ _ _ o ho => nomatch ho
    · exact fun _ _ _ o ho => nomatch ho

/-- The digest of the second resolves first: the frames come in the other
order, and the store keeps the older state. -/
theorem frames_swapped :
    ∃ (hist : List (SocketAct × RelayClient Nat)) (c : RelayClient Nat),
      Run digitJson digitStore hist c ∧
      hist.map Prod.fst = [.message (.binary (sent (digitState 0x31))),
        .message (.binary (sent (digitState 0x32))), .digested 1, .digested 0] ∧
      c.digesting = [] ∧ received hist = [digitState 0x31, digitState 0x32] ∧
      c.delivered = [digitState 0x32, digitState 0x31] ∧ c.store.state = 1 := by
  have hrun := (Path.start : Run digitJson digitStore _ _)
    |>.next _ (step_sent (digitState_small 0x31) _)
    |>.next _ (step_sent (digitState_small 0x32) _)
    |>.next (.digested 1) (step_awaiting rfl)
    |>.next (.digested 0) (step_awaiting rfl)
  refine ⟨_, _, hrun, rfl, rfl, ?_, rfl, rfl⟩
  simp [received, SocketAct.message?, sent_frame (digitState_small _)]

end RelayClient

end CardTable.Ts
