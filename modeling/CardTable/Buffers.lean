import CardTable.Ts.Buffer

/-!
# Buffers — what is written is read back, however the buffer grew

The writer on its buffer refines the writer that is the bytes written so
far (`Refines`), and the reader with an offset follows the reader that is
the bytes left (`Follows`): each method ends the same way, with the same
number or with the same message. What the readers make of the bytes is
then known from `Ts.Serialisation`, and a list of calls is read back call
by call.
-/

namespace CardTable.Ts

open Basis Basis.Bits32

/-! ## The writer -/

namespace BufferWriter

variable {w : BufferWriter} {written : List UInt8}

/-- The buffer starts with the bytes written so far, and the offset is
behind them. -/
structure Holds (w : BufferWriter) (written : List UInt8) : Prop where
  capacity : 0 < w.buf.length
  content : ∃ spare, w.buf = written ++ spare
  position : w.offset = written.length

theorem Holds.bytes_eq (h : w.Holds written) : w.bytes = written := by
  obtain ⟨spare, hbuf⟩ := h.content
  rw [bytes, hbuf, h.position, List.take_left]

theorem holds_new {capacity : Nat} (h : 0 < capacity) : (new capacity).Holds [] where
  capacity := by
    rw [new, List.length_replicate]
    exact h
  content := ⟨_, rfl⟩
  position := rfl

/-- The loop ends at a capacity that is enough, and never shrinks. -/
theorem growFor_spec (rounds required : Nat) {cap : Nat} (hcap : 0 < cap)
    (hrounds : required ≤ cap + rounds) :
    required ≤ growFor rounds cap required ∧ cap ≤ growFor rounds cap required := by
  induction rounds generalizing cap with
  | zero => exact ⟨hrounds, Nat.le_refl cap⟩
  | succ rounds ih =>
      rw [growFor]
      split
      · have hdouble : 0 < cap * 2 := by omega
        have := ih hdouble (by omega)
        omega
      · omega

/-- **Growing keeps what is written**, and makes room. -/
theorem ensure_spec (h : w.Holds written) (extra : Nat) :
    ∃ w', w.ensure extra = .ok w' ∧ w'.Holds written ∧
      written.length + extra ≤ w'.buf.length := by
  have hcap := h.capacity
  have hpos := h.position
  obtain ⟨spare, hbuf⟩ := h.content
  rw [ensure]
  by_cases hfits : w.offset + extra ≤ w.buf.length
  · rw [if_pos hfits]
    exact ⟨w, rfl, h, by omega⟩
  · have hgrow := growFor_spec (w.offset + extra) (w.offset + extra)
      (show 0 < w.buf.length * 2 by omega) (by omega)
    rw [if_neg hfits, if_neg (by omega)]
    refine ⟨_, rfl, ⟨?_, ?_, hpos⟩, ?_⟩
    · simp only [List.length_append]
      omega
    · exact ⟨spare ++ List.replicate _ 0, by rw [← List.append_assoc, ← hbuf]⟩
    · simp only [List.length_append, List.length_replicate, grow]
      omega

/-- A byte in the room that is left. -/
theorem store_spec (h : w.Holds written) (room : Nat)
    (hroom : written.length + (room + 1) ≤ w.buf.length) (v : Int) :
    (w.store v).Holds (written ++ [toByte v]) ∧
      (written ++ [toByte v]).length + room ≤ (w.store v).buf.length := by
  have hcap := h.capacity
  obtain ⟨spare, hbuf⟩ := h.content
  have hsize := congrArg List.length hbuf
  rw [List.length_append] at hsize
  refine ⟨⟨?_, ?_, ?_⟩, ?_⟩
  · rw [store, List.length_set]
    exact hcap
  · cases spare with
    | nil =>
        rw [List.length_nil] at hsize
        omega
    | cons b spare =>
        refine ⟨spare, ?_⟩
        rw [store, hbuf, h.position, List.set_append_right _ _ (Nat.le_refl _), Nat.sub_self,
          List.set_cons_zero, List.append_assoc]
        rfl
  · rw [store, h.position, List.length_append, List.length_singleton]
  · rw [store, List.length_set, List.length_append, List.length_singleton]
    omega

/-- Bytes in the room that is left. -/
theorem copy_spec (h : w.Holds written) {data : List UInt8}
    (hroom : written.length + data.length ≤ w.buf.length) :
    ∃ w', w.copy data = .ok w' ∧ w'.Holds (written ++ data) := by
  have hcap := h.capacity
  have hpos := h.position
  obtain ⟨spare, hbuf⟩ := h.content
  rw [copy, if_pos (by omega)]
  refine ⟨_, rfl, ?_, ?_, ?_⟩
  · simp only [List.length_append, List.length_take, List.length_drop]
    omega
  · refine ⟨w.buf.drop (w.offset + data.length), ?_⟩
    simp only [hbuf, hpos, List.take_left]
  · simp only [hpos, List.length_append]

/-! ### The writer without a buffer -/

/-- Both end the same way, and the buffer holds what was written. -/
def Refines (x : Js BufferWriter) (y : Js CanonicalWriter) : Prop :=
  match y with
  | .ok a => ∃ w, x = .ok w ∧ w.Holds a.bytes
  | .err e => x = .err e
  | .halt m => x = .halt m

theorem Refines.bind {x : Js BufferWriter} {y : Js CanonicalWriter}
    {f : BufferWriter → Js BufferWriter} {g : CanonicalWriter → Js CanonicalWriter}
    (h : Refines x y) (hstep : ∀ w a, w.Holds a.bytes → Refines (f w) (g a)) :
    Refines (x >>= f) (y >>= g) := by
  cases y with
  | ok a =>
      obtain ⟨w, rfl, hw⟩ := h
      exact hstep w a hw
  | err e =>
      obtain rfl : x = .err e := h
      exact rfl
  | halt m =>
      obtain rfl : x = .halt m := h
      exact rfl

theorem Refines.ok (hw : w.Holds written) : Refines (.ok w) (.ok ⟨written⟩) := ⟨w, rfl, hw⟩

/-! ### Numbers -/

/-- **Four stores write a number of 32 bits.** -/
theorem store_four (h : w.Holds written) (room : Nat) {n : Nat} (hn : n < 2 ^ 32)
    (hroom : written.length + (room + 4) ≤ w.buf.length) :
    ((((w.store (and n 0xff)).store (and (shiftRightUnsigned n 8) 0xff)).store
        (and (shiftRightUnsigned n 16) 0xff)).store (and (shiftRightUnsigned n 24) 0xff)).Holds
      (written ++ putUintLE n 4) ∧
    (written ++ putUintLE n 4).length + room ≤
      ((((w.store (and n 0xff)).store (and (shiftRightUnsigned n 8) 0xff)).store
        (and (shiftRightUnsigned n 16) 0xff)).store
          (and (shiftRightUnsigned n 24) 0xff)).buf.length := by
  obtain ⟨h0, hroom⟩ := store_spec h (room + 3) hroom (and n 0xff)
  obtain ⟨h1, hroom⟩ := store_spec h0 (room + 2) hroom (and (shiftRightUnsigned n 8) 0xff)
  obtain ⟨h2, hroom⟩ := store_spec h1 (room + 1) hroom (and (shiftRightUnsigned n 16) 0xff)
  obtain ⟨h3, hroom⟩ := store_spec h2 room hroom (and (shiftRightUnsigned n 24) 0xff)
  have hbytes : written ++ [toByte (and n 0xff)] ++ [toByte (and (shiftRightUnsigned n 8) 0xff)] ++
      [toByte (and (shiftRightUnsigned n 16) 0xff)] ++
      [toByte (and (shiftRightUnsigned n 24) 0xff)] = written ++ putUintLE n 4 := by
    rw [putUintLE_four, toByte_and, toByte_shiftRightUnsigned hn, toByte_shiftRightUnsigned hn,
      toByte_shiftRightUnsigned hn]
    simp only [Nat.shiftRight_eq_div_pow, List.append_assoc, List.cons_append, List.nil_append,
      Nat.pow_zero, Nat.div_one]
  rw [hbytes] at h3 hroom
  exact ⟨h3, hroom⟩

variable {a : CanonicalWriter} {v : JsNumber}

/-- A number of `k` bytes that is out of range is refused with the same
message. -/
theorem refines_writeUint_out {name : String} {k : Nat} {high : Int}
    (hhigh : (256 ^ k - 1 : Int) = high) (hout : ¬v.Within 0 high) {message : String}
    (hmessage : name ++ ": out of range: " ++ v.text = message) :
    Refines (.halt message) (a.writeUint name k v) := by
  rw [CanonicalWriter.writeUint, hhigh, if_neg hout]
  show Outcome.halt message = Outcome.halt (name ++ ": out of range: " ++ v.text)
  rw [hmessage]

theorem refines_writeU8 (h : w.Holds a.bytes) : Refines (w.writeU8 v) (a.writeU8 v) := by
  by_cases hin : v.Within 0 0xff
  · obtain ⟨w', hensure, hw', hroom⟩ := ensure_spec h 1
    obtain ⟨hstore, _⟩ := store_spec hw' 0 hroom v.value
    obtain ⟨n, hn⟩ := Int.eq_ofNat_of_zero_le hin.integer.2.1
    have hlist : a.writeU8 v = .ok (a.writeRaw (uint v 1)) := CanonicalWriter.writeUint_eq hin
    rw [writeU8, if_pos hin, hensure, hlist, uint, hn, Int.toNat_natCast,
      CanonicalWriter.putUintLE_one]
    rw [hn, toByte_natCast] at hstore
    exact ⟨_, rfl, hstore⟩
  · rw [writeU8, if_neg hin]
    exact refines_writeUint_out rfl hin rfl

theorem refines_writeBool {b : Bool} (h : w.Holds a.bytes) :
    Refines (w.writeBool b) (a.writeBool b) := refines_writeU8 h

theorem refines_writeU16LE (h : w.Holds a.bytes) :
    Refines (w.writeU16LE v) (a.writeU16LE v) := by
  by_cases hin : v.Within 0 0xffff
  · obtain ⟨w', hensure, hw', hroom⟩ := ensure_spec h 2
    obtain ⟨_, hlow, hhigh⟩ := hin.integer
    obtain ⟨n, hn⟩ := Int.eq_ofNat_of_zero_le hlow
    obtain ⟨h0, hroom⟩ := store_spec hw' 1 hroom (and v.value 0xff)
    obtain ⟨h1, _⟩ := store_spec h0 0 hroom (and (shiftRight v.value 8) 0xff)
    have hlist : a.writeU16LE v = .ok (a.writeRaw (uint v 2)) := CanonicalWriter.writeUint_eq hin
    have htwo : putUintLE n 2 = [UInt8.ofNat n, UInt8.ofNat (n / 2 ^ 8)] := by
      rw [putUintLE_two, Nat.shiftRight_eq_div_pow, Nat.shiftRight_eq_div_pow, Nat.pow_zero,
        Nat.div_one]
    rw [writeU16LE, if_pos hin, hensure, hlist, uint, hn, Int.toNat_natCast, htwo]
    rw [hn, toByte_and, toByte_shiftRight (by omega), List.append_assoc] at h1
    exact ⟨_, rfl, h1⟩
  · rw [writeU16LE, if_neg hin]
    exact refines_writeUint_out rfl hin rfl

theorem refines_writeU32LE (h : w.Holds a.bytes) :
    Refines (w.writeU32LE v) (a.writeU32LE v) := by
  by_cases hin : v.Within 0 0xffffffff
  · obtain ⟨w', hensure, hw', hroom⟩ := ensure_spec h 4
    obtain ⟨_, hlow, hhigh⟩ := hin.integer
    obtain ⟨n, hn⟩ := Int.eq_ofNat_of_zero_le hlow
    have hlist : a.writeU32LE v = .ok (a.writeRaw (uint v 4)) := CanonicalWriter.writeUint_eq hin
    obtain ⟨hstore, _⟩ := store_four hw' 0 (n := n) (by omega) hroom
    rw [writeU32LE, if_pos hin, hensure, hlist, uint, hn, Int.toNat_natCast]
    exact ⟨_, rfl, hstore⟩
  · rw [writeU32LE, if_neg hin]
    exact refines_writeUint_out rfl hin rfl

/-- **The two halves of a safe integer.** -/
theorem refines_writeU64LE (h : w.Holds a.bytes) :
    Refines (w.writeU64LE v) (a.writeU64LE v) := by
  by_cases hin : v.Within 0 maxSafeInteger
  · obtain ⟨w', hensure, hw', hroom⟩ := ensure_spec h 8
    obtain ⟨_, hlow, hhigh⟩ := hin.integer
    obtain ⟨n, hn⟩ := Int.eq_ofNat_of_zero_le hlow
    have hmax : maxSafeInteger = 9007199254740991 := rfl
    have hlo : shiftRightUnsigned v.value 0 = ((n % 2 ^ 32 : Nat) : Int) := by
      rw [hn, shiftRightUnsigned_natCast, Nat.pow_zero, Nat.div_one]
    have hhi : shiftRightUnsigned (v.value / 0x100000000) 0 = ((n / 2 ^ 32 : Nat) : Int) := by
      have hdiv : v.value / 0x100000000 = ((n / 2 ^ 32 : Nat) : Int) := by omega
      rw [hdiv, shiftRightUnsigned_natCast, Nat.pow_zero, Nat.div_one, Nat.mod_eq_of_lt]
      omega
    have hlist : a.writeU64LE v = .ok (a.writeRaw (putUintLE v.value.toNat 8)) := if_pos hin
    have hloLt : n % 2 ^ 32 < 2 ^ 32 := Nat.mod_lt _ (by decide)
    have hhiLt : n / 2 ^ 32 < 2 ^ 32 := by omega
    obtain ⟨hfirst, hroom⟩ := store_four hw' 4 hloLt hroom
    obtain ⟨hsecond, _⟩ := store_four hfirst 0 hhiLt hroom
    have hbytes : putUintLE (n % 2 ^ 32) 4 ++ putUintLE (n / 2 ^ 32) 4 = putUintLE n 8 := by
      rw [putUintLE_append hloLt hhiLt]
      congr 1
      omega
    rw [List.append_assoc, hbytes] at hsecond
    rw [writeU64LE, if_pos hin, hensure, hlist, hn, Int.toNat_natCast]
    simp only [Outcome.ok_bind, ← hn, hlo, hhi]
    exact ⟨_, rfl, hsecond⟩
  · rw [writeU64LE, if_neg hin, CanonicalWriter.writeU64LE, if_neg hin]
    rfl

/-- **A varint is written in the same form.** -/
theorem refines_writeVarint (h : w.Holds a.bytes) (n : Nat) :
    Refines (w.writeVarint (.integer n)) (a.writeVarint n) := by
  rw [writeVarint, CanonicalWriter.writeVarint]
  by_cases hlarge : maxSafeInteger < n
  · have hout : ¬(JsNumber.integer n).Within 0 maxSafeInteger := by
      rintro ⟨_, hle⟩
      omega
    rw [if_neg hout, if_pos hlarge]
    rfl
  · have hin : (JsNumber.integer n).Within 0 maxSafeInteger := ⟨by omega, by omega⟩
    have hvalue : (JsNumber.integer n).value = (n : Int) := rfl
    rw [if_pos hin, if_neg hlarge, hvalue]
    by_cases h1 : n < 0xfd
    · rw [if_pos (by omega), if_pos h1]
      exact refines_writeU8 h
    · rw [if_neg (by omega), if_neg h1]
      by_cases h2 : n ≤ 0xffff
      · rw [if_pos (by omega), if_pos h2]
        exact (refines_writeU8 h).bind fun _ _ h => refines_writeU16LE h
      · rw [if_neg (by omega), if_neg h2]
        by_cases h3 : n ≤ 0xffffffff
        · rw [if_pos (by omega), if_pos h3]
          exact (refines_writeU8 h).bind fun _ _ h => refines_writeU32LE h
        · rw [if_neg (by omega), if_neg h3]
          exact (refines_writeU8 h).bind fun _ _ h => refines_writeU64LE h

theorem refines_writeRaw (h : w.Holds a.bytes) (data : List UInt8) :
    Refines (w.writeRaw data) (.ok (a.writeRaw data)) := by
  obtain ⟨w', hensure, hw', hroom⟩ := ensure_spec h data.length
  obtain ⟨w'', hcopy, hw''⟩ := copy_spec hw' hroom
  rw [writeRaw, hensure, Outcome.ok_bind, hcopy]
  exact ⟨w'', rfl, hw''⟩

theorem refines_writeBytes (h : w.Holds a.bytes) (data : List UInt8) :
    Refines (w.writeBytes data) (a.writeBytes data) :=
  (refines_writeVarint h data.length).bind fun _ _ h => refines_writeRaw h data

end BufferWriter

/-! ## The reader -/

namespace BufferReader

section Follows

variable {α β γ δ : Type} {buf : List UInt8}

/-- From every offset both end the same way, the value through `f`, and
what is left is what is behind the offset. -/
def Follows (buf : List UInt8) (f : β → α) (r : BufferReader α) (d : CanonicalReader β) : Prop :=
  ∀ offset ≤ buf.length,
    match d (buf.drop offset) with
    | .ok (b, left) =>
        ∃ offset' ≤ buf.length, left = buf.drop offset' ∧ r offset = .ok (f b, offset')
    | .err e => r offset = .err e
    | .halt m => r offset = .halt m

theorem Follows.bind {f : β → α} {g : δ → γ} {r : BufferReader α} {d : CanonicalReader β}
    {k : α → BufferReader γ} {h : β → CanonicalReader δ} (hr : Follows buf f r d)
    (hk : ∀ b, Follows buf g (k (f b)) (h b)) : Follows buf g (r >>= k) (d >>= h) := by
  intro offset hoffset
  have hfirst := hr offset hoffset
  have hr' : (r >>= k) offset = (r offset >>= fun res => k res.1 res.2) := rfl
  have hd' : (d >>= h) (buf.drop offset) = (d (buf.drop offset) >>= fun res => h res.1 res.2) := rfl
  rw [hr', hd']
  cases hd : d (buf.drop offset) with
  | ok res =>
      obtain ⟨b, left⟩ := res
      rw [hd] at hfirst
      obtain ⟨offset', hoffset', rfl, hread⟩ := hfirst
      rw [hread]
      exact hk b offset' hoffset'
  | err e =>
      rw [hd] at hfirst
      have hread : r offset = .err e := hfirst
      rw [hread]
      rfl
  | halt m =>
      rw [hd] at hfirst
      have hread : r offset = .halt m := hfirst
      rw [hread]
      rfl

theorem Follows.pure (f : β → α) (b : β) :
    Follows buf f (Pure.pure (f b)) (Pure.pure b) := by
  intro offset hoffset
  exact ⟨offset, hoffset, rfl, rfl⟩

theorem Follows.throw {f : β → α} (message : String) :
    Follows buf f (throw message) (CanonicalReader.throw message) := by
  intro offset _
  exact rfl

theorem Follows.ite {f : β → α} {p q : Prop} [Decidable p] [Decidable q] (hpq : p ↔ q)
    {r r' : BufferReader α} {d d' : CanonicalReader β} (hr : Follows buf f r d)
    (hr' : Follows buf f r' d') : Follows buf f (if p then r else r') (if q then d else d') := by
  by_cases hp : p
  · rw [if_pos hp, if_pos (hpq.mp hp)]
    exact hr
  · rw [if_neg hp, if_neg fun hq => hp (hpq.mpr hq)]
    exact hr'

/-- The bytes that are left are those from the offset on. -/
theorem follows_need (n : Nat) : Follows buf id (need buf n) (CanonicalReader.need n) := by
  intro offset hoffset
  have hremaining : remaining buf offset = ((buf.drop offset).length : Int) := by
    rw [remaining, List.length_drop]
    omega
  rw [CanonicalReader.need]
  by_cases hshort : (buf.drop offset).length < n
  · rw [if_pos hshort]
    show need buf n offset = _
    simp only [need]
    rw [hremaining, if_pos (by omega)]
    rfl
  · rw [if_neg hshort]
    refine ⟨offset, hoffset, rfl, ?_⟩
    simp only [need]
    rw [hremaining, if_neg (by omega)]

theorem need_eq {n offset : Nat} (h : offset + n ≤ buf.length) :
    need buf n offset = .ok ((), offset) := by
  have hthere : ¬remaining buf offset < n := by
    rw [remaining]
    omega
  exact if_neg hthere

/-- `body` reads `k` bytes where they are there. -/
theorem follows_counted {k : Nat} {f : List UInt8 → α} {body : BufferReader α}
    (hbody : ∀ offset, offset + k ≤ buf.length →
      body offset = .ok (f ((buf.drop offset).take k), offset + k)) :
    Follows buf f (need buf k >>= fun _ => body) (CanonicalReader.readRaw k) := by
  intro offset hoffset
  have hneed := follows_need k offset hoffset
  have hbuf : (need buf k >>= fun _ => body) offset =
      (need buf k offset >>= fun res => body res.2) := rfl
  have hlist : CanonicalReader.readRaw k (buf.drop offset) =
      (CanonicalReader.need k (buf.drop offset) >>= fun res =>
        .ok (res.2.take k, res.2.drop k)) := rfl
  rw [hbuf, hlist]
  rw [CanonicalReader.need] at hneed ⊢
  by_cases hshort : (buf.drop offset).length < k
  · rw [if_pos hshort] at hneed ⊢
    have hstop : need buf k offset = .halt _ := hneed
    rw [hstop]
    rfl
  · rw [if_neg hshort]
    rw [List.length_drop] at hshort
    rw [need_eq (by omega)]
    refine ⟨offset + k, by omega, ?_, ?_⟩
    · rw [List.drop_drop]
    · exact hbody offset (by omega)

/-- A last step that only computes. -/
theorem Follows.map {f : δ → α} {g : β → δ} {r : BufferReader α} {d : CanonicalReader β}
    (h : Follows buf (fun b => f (g b)) r d) :
    Follows buf f r (d >>= fun b => Pure.pure (g b)) := by
  intro offset hoffset
  have hread := h offset hoffset
  have hstep : (d >>= fun b => Pure.pure (g b)) (buf.drop offset) =
      (d (buf.drop offset) >>= fun res => .ok (g res.1, res.2)) := rfl
  rw [hstep]
  cases hd : d (buf.drop offset) with
  | ok res =>
      rw [hd] at hread
      exact hread
  | err e =>
      rw [hd] at hread
      exact hread
  | halt m =>
      rw [hd] at hread
      exact hread

/-- A number of `k` bytes. -/
theorem follows_readUint {k : Nat} {body : BufferReader Int}
    (hbody : ∀ offset, offset + k ≤ buf.length →
      body offset = .ok ((uintLE ((buf.drop offset).take k) : Int), offset + k)) :
    Follows buf (Nat.cast : Nat → Int) (need buf k >>= fun _ => body)
      (CanonicalReader.readUint k) := by
  have hlist : CanonicalReader.readUint k =
      (CanonicalReader.readRaw k >>= fun w => Pure.pure (uintLE w)) := by
    simp only [CanonicalReader.readUint, CanonicalReader.readRaw, bind_assoc]
  rw [hlist]
  exact (follows_counted hbody).map

theorem bind_apply (r : BufferReader α) (k : α → BufferReader γ) (offset : Nat) :
    (r >>= k) offset = (r offset >>= fun res => k res.1 res.2) := rfl

/-- A byte that is there. -/
theorem byteAt_eq {i offset : Nat} (h : offset + i < buf.length) :
    byteAt buf i offset = .ok ((buf[offset + i].toNat : Int), offset) := by
  rw [byteAt, List.getElem?_eq_getElem h]

/-- The bytes from an offset on, one by one. -/
theorem take_drop_succ {offset : Nat} (k : Nat) (h : offset < buf.length) :
    (buf.drop offset).take (k + 1) = buf[offset] :: (buf.drop (offset + 1)).take k := by
  rw [List.drop_eq_getElem_cons h, List.take_succ_cons]

theorem follows_readU8 :
    Follows buf (Nat.cast : Nat → Int) (readU8 buf) CanonicalReader.readU8 := by
  refine follows_readUint (k := 1) ?_
  intro offset hfits
  simp only [bind_apply, byteAt_eq (show offset + 0 < buf.length by omega), Outcome.ok_bind, skip]
  rw [take_drop_succ 0 (by omega), List.take_zero, uintLE_cons]
  rfl

theorem follows_readU16LE :
    Follows buf (Nat.cast : Nat → Int) (readU16LE buf) CanonicalReader.readU16LE := by
  refine follows_readUint (k := 2) ?_
  intro offset hfits
  simp only [bind_apply, byteAt_eq (show offset + 0 < buf.length by omega),
    byteAt_eq (show offset + 1 < buf.length by omega), Outcome.ok_bind, skip]
  rw [take_drop_succ 1 (by omega), take_drop_succ 0 (by omega), List.take_zero, combine_two]
  rfl

/-- **The signed words of a 32-bit number come out unsigned.** -/
theorem follows_readU32LE :
    Follows buf (Nat.cast : Nat → Int) (readU32LE buf) CanonicalReader.readU32LE := by
  refine follows_readUint (k := 4) ?_
  intro offset hfits
  simp only [bind_apply, byteAt_eq (show offset + 0 < buf.length by omega),
    byteAt_eq (show offset + 1 < buf.length by omega),
    byteAt_eq (show offset + 2 < buf.length by omega),
    byteAt_eq (show offset + 3 < buf.length by omega), Outcome.ok_bind, skip]
  rw [take_drop_succ 3 (by omega), take_drop_succ 2 (by omega), take_drop_succ 1 (by omega),
    take_drop_succ 0 (by omega), List.take_zero, combine_four]
  rfl

theorem follows_readBool : Follows buf id (readBool buf) CanonicalReader.readBool := by
  refine follows_readU8.bind ?_
  intro b
  refine .ite (by omega) (.pure id false) ?_
  refine .ite (by omega) (.pure id true) ?_
  exact .throw _

/-- **The two halves are put together exactly.** -/
theorem follows_readU64LE :
    Follows buf (Nat.cast : Nat → Int) (readU64LE buf) CanonicalReader.readU64LE := by
  refine (follows_need 8).bind ?_
  intro _
  refine follows_readU32LE.bind ?_
  intro lo
  refine follows_readU32LE.bind ?_
  intro hi
  have hsum : toDouble ((hi : Int) * 0x100000000 + (lo : Int)) =
      ((roundNat (hi * 0x100000000 + lo) : Nat) : Int) := rfl
  rw [hsum]
  by_cases hsafe : maxSafeInteger < roundNat (hi * 0x100000000 + lo)
  · have hunsafe : ¬isSafeInteger (roundNat (hi * 0x100000000 + lo)) = true := by
      rw [isSafeInteger, decide_eq_true_eq]
      omega
    rw [if_neg hunsafe, if_pos hsafe]
    exact .throw _
  · have hin : isSafeInteger (roundNat (hi * 0x100000000 + lo)) = true := by
      rw [isSafeInteger, decide_eq_true_eq]
      omega
    rw [if_pos hin, if_neg hsafe]
    exact .pure _ _

theorem follows_readVarint :
    Follows buf (Nat.cast : Nat → Int) (readVarint buf) CanonicalReader.readVarint := by
  refine follows_readU8.bind ?_
  intro b
  refine .ite (by omega) (.pure _ b) ?_
  refine .ite (by omega) follows_readU16LE ?_
  exact .ite (by omega) follows_readU32LE follows_readU64LE

theorem follows_readRaw (n : Nat) :
    Follows buf id (readRaw buf n) (CanonicalReader.readRaw n) := by
  refine follows_counted ?_
  intro offset _
  rw [List.drop_take, Nat.add_sub_cancel_left]
  rfl

theorem follows_readBytes :
    Follows buf id (readBytes buf) (CanonicalReader.readBytes maxSafeInteger) := by
  refine follows_readVarint.bind ?_
  intro n
  refine .ite (by omega) (.throw _) ?_
  exact follows_readRaw n

end Follows

/-- **What is recognised behind an offset is read there**, and the offset
after it is behind its code. -/
theorem run_of_recognises {α β : Type} {f : β → α} {r : List UInt8 → BufferReader α}
    {d : CanonicalReader β} {C : β → List UInt8 → Prop}
    (hr : ∀ buf, Follows buf f (r buf) d) (hd : Recognises d C) {b : β} {code : List UInt8}
    (hcode : C b code) (front rest : List UInt8) :
    r (front ++ code ++ rest) front.length = .ok (f b, (front ++ code).length) := by
  have hdrop : (front ++ code ++ rest).drop front.length = code ++ rest := by
    rw [List.append_assoc, List.drop_left]
  have hread := hr (front ++ code ++ rest) front.length (by simp only [List.length_append]; omega)
  rw [hdrop, hd.run hcode rest] at hread
  obtain ⟨offset', hle, hrest, hoffset⟩ := hread
  have hlen := congrArg List.length hrest
  rw [List.length_drop] at hlen
  have hsame : offset' = (front ++ code).length := by
    simp only [List.length_append] at hlen hle ⊢
    omega
  rw [hoffset, hsame]

end BufferReader

/-! ## Calls -/

/-- A call of the writer. -/
inductive CanonicalWrite where
  | u8 (v : JsNumber)
  | bool (v : Bool)
  | u16LE (v : JsNumber)
  | u32LE (v : JsNumber)
  | u64LE (v : JsNumber)
  | varint (n : JsNumber)
  | raw (data : List UInt8)
  | bytes (data : List UInt8)
  deriving DecidableEq, Repr

/-- What a call of the reader returns. -/
inductive CanonicalValue where
  | number (n : Int)
  | bool (b : Bool)
  | bytes (data : List UInt8)
  deriving DecidableEq, Repr

namespace CanonicalWrite

/-- The call. -/
def run (w : BufferWriter) : CanonicalWrite → Js BufferWriter
  | u8 v => w.writeU8 v
  | bool v => w.writeBool v
  | u16LE v => w.writeU16LE v
  | u32LE v => w.writeU32LE v
  | u64LE v => w.writeU64LE v
  | varint n => w.writeVarint n
  | raw data => w.writeRaw data
  | bytes data => w.writeBytes data

/-- Calls in a row; one that throws ends them. -/
def runAll (w : BufferWriter) : List CanonicalWrite → Js BufferWriter
  | [] => .ok w
  | call :: rest => do
      let w ← call.run w
      runAll w rest

/-- What was written. -/
def value : CanonicalWrite → CanonicalValue
  | bool v => .bool v
  | raw data | bytes data => .bytes data
  | u8 v | u16LE v | u32LE v | u64LE v | varint v => .number v.value

section Read

open BufferReader

variable (buf : List UInt8)

/-- The call of the reader that matches. -/
def read : CanonicalWrite → BufferReader CanonicalValue
  | u8 _ => do
      let n ← readU8 buf
      pure (.number n)
  | bool _ => do
      let b ← readBool buf
      pure (.bool b)
  | u16LE _ => do
      let n ← readU16LE buf
      pure (.number n)
  | u32LE _ => do
      let n ← readU32LE buf
      pure (.number n)
  | u64LE _ => do
      let n ← readU64LE buf
      pure (.number n)
  | varint _ => do
      let n ← readVarint buf
      pure (.number n)
  | raw data => do
      let data ← readRaw buf data.length
      pure (.bytes data)
  | bytes _ => do
      let data ← readBytes buf
      pure (.bytes data)

/-- The matching calls in a row. -/
def readAll : List CanonicalWrite → BufferReader (List CanonicalValue)
  | [] => pure []
  | call :: rest => do
      let v ← call.read buf
      let vs ← readAll rest
      pure (v :: vs)

end Read

/-- The code is read back as what was written, wherever it stands. -/
def ReadBack (call : CanonicalWrite) (code : List UInt8) : Prop :=
  ∀ front rest, call.read (front ++ code ++ rest) front.length =
    .ok (call.value, (front ++ code).length)

end CanonicalWrite

namespace BufferWriter

variable {w w' : BufferWriter} {a : CanonicalWriter} {v : JsNumber}

/-- What was accepted was accepted without a buffer too. -/
theorem Refines.accepted {x : Js BufferWriter} {y : Js CanonicalWriter} (h : Refines x y)
    (hx : x = .ok w') : ∃ a', y = .ok a' ∧ w'.Holds a'.bytes := by
  subst hx
  cases y with
  | ok a' =>
      obtain ⟨w, hw, hholds⟩ := h
      cases hw
      exact ⟨a', rfl, hholds⟩
  | err e => cases h
  | halt m => cases h

/-- A number of `k` bytes that was accepted. -/
theorem Refines.uint {x : Js BufferWriter} {name : String} {k : Nat}
    (h : Refines x (a.writeUint name k v)) (hx : x = .ok w') :
    v.Within 0 (256 ^ k - 1) ∧ w'.Holds (a.bytes ++ Ts.uint v k) := by
  obtain ⟨a', ha, hholds⟩ := h.accepted hx
  by_cases hin : v.Within 0 (256 ^ k - 1)
  · rw [CanonicalWriter.writeUint_eq hin] at ha
    cases ha
    exact ⟨hin, hholds⟩
  · rw [CanonicalWriter.writeUint, if_neg hin] at ha
    cases ha

end BufferWriter

/-- `readBytes` takes a string behind its length. -/
theorem CanonicalReader.recognises_readBytes (cap : Nat) :
    Recognises (readBytes cap) fun data w =>
      ∃ size, VarintCode data.length size ∧ data.length ≤ maxSafeInteger ∧
        data.length ≤ cap ∧ w = size ++ data := by
  have hbytes := recognises_readVarint.bind fun n =>
    Recognises.guard (p := cap < n)
      (throw_ne_ok s!"readBytes: declared length {n} exceeds cap {cap}") (recognises_readRaw n)
  refine hbytes.congr fun data w => ?_
  constructor
  · rintro ⟨n, size, data', ⟨hform, hsafe⟩, ⟨hcap, hlen, rfl⟩, rfl⟩
    subst hlen
    exact ⟨size, hform, hsafe, Nat.not_lt.mp hcap, rfl⟩
  · rintro ⟨size, hform, hsafe, hcap, rfl⟩
    exact ⟨data.length, size, data, ⟨hform, hsafe⟩, ⟨Nat.not_lt.mpr hcap, rfl, rfl⟩, rfl⟩

namespace CanonicalWrite

open BufferReader BufferWriter

variable {w w' : BufferWriter} {written : List UInt8}

/-- A number is read back as a number. -/
theorem number_read {r : List UInt8 → BufferReader Int} {d : CanonicalReader Nat}
    {C : Nat → List UInt8 → Prop} (hr : ∀ buf, Follows buf (Nat.cast : Nat → Int) (r buf) d)
    (hd : Recognises d C) {v : Int} (hv : 0 ≤ v) {code : List UInt8} (hcode : C v.toNat code)
    (front rest : List UInt8) :
    (r (front ++ code ++ rest) >>= fun n => pure (CanonicalValue.number n)) front.length =
      .ok (.number v, (front ++ code).length) := by
  rw [bind_apply, run_of_recognises hr hd hcode front rest, Int.toNat_of_nonneg hv]
  rfl

/-- **One call.** What it appends is read back by the matching call. -/
theorem run_spec (h : w.Holds written) {call : CanonicalWrite} (hrun : call.run w = .ok w') :
    ∃ code, w'.Holds (written ++ code) ∧ call.ReadBack code := by
  have hlist : w.Holds (CanonicalWriter.mk written).bytes := h
  cases call with
  | u8 v =>
      obtain ⟨hin, hholds⟩ := (refines_writeU8 hlist).uint hrun
      obtain ⟨_, hlow, hhigh⟩ := hin.integer
      refine ⟨_, hholds, ?_⟩
      exact number_read (fun _ => follows_readU8) CanonicalReader.recognises_readU8 hlow
        ⟨by omega, rfl⟩
  | bool v =>
      obtain ⟨a', ha, hholds⟩ := (refines_writeBool hlist).accepted hrun
      have hwrite : (CanonicalWriter.mk written).writeBool v =
          .ok ((CanonicalWriter.mk written).writeRaw [if v then 1 else 0]) := by
        cases v with
        | false => rfl
        | true => rfl
      obtain rfl := Outcome.ok.inj (hwrite.symm.trans ha)
      refine ⟨_, hholds, ?_⟩
      intro front rest
      rw [read, bind_apply, run_of_recognises (fun _ => follows_readBool)
        CanonicalReader.recognises_readBool rfl front rest]
      rfl
  | u16LE v =>
      obtain ⟨hin, hholds⟩ := (refines_writeU16LE hlist).uint hrun
      obtain ⟨_, hlow, hhigh⟩ := hin.integer
      refine ⟨_, hholds, ?_⟩
      exact number_read (fun _ => follows_readU16LE) (CanonicalReader.recognises_readUint 2) hlow
        ⟨by omega, rfl⟩
  | u32LE v =>
      obtain ⟨hin, hholds⟩ := (refines_writeU32LE hlist).uint hrun
      obtain ⟨_, hlow, hhigh⟩ := hin.integer
      refine ⟨_, hholds, ?_⟩
      exact number_read (fun _ => follows_readU32LE) CanonicalReader.recognises_readU32LE hlow
        ⟨by omega, rfl⟩
  | u64LE v =>
      obtain ⟨a', ha, hholds⟩ := (refines_writeU64LE hlist).accepted hrun
      by_cases hin : v.Within 0 maxSafeInteger
      · obtain ⟨_, hlow, hhigh⟩ := hin.integer
        rw [CanonicalWriter.writeU64LE, if_pos hin] at ha
        obtain rfl := Outcome.ok.inj ha
        refine ⟨_, hholds, ?_⟩
        exact number_read (fun _ => follows_readU64LE) CanonicalReader.recognises_readU64LE hlow
          ⟨by omega, rfl⟩
      · rw [CanonicalWriter.writeU64LE, if_neg hin] at ha
        cases ha
  | varint n =>
      by_cases hin : n.Within 0 maxSafeInteger
      · obtain ⟨heq, hlow, hhigh⟩ := hin.integer
        obtain ⟨m, hm⟩ := Int.eq_ofNat_of_zero_le hlow
        have hsafe : m ≤ maxSafeInteger := by omega
        rw [heq, hm] at hrun
        obtain ⟨a', ha, hholds⟩ := (refines_writeVarint hlist m).accepted hrun
        rw [CanonicalWriter.writeVarint_eq hsafe] at ha
        obtain rfl := Outcome.ok.inj ha
        refine ⟨_, hholds, ?_⟩
        refine number_read (fun _ => follows_readVarint) CanonicalReader.recognises_readVarint
          hlow ?_
        rw [hm]
        exact ⟨varintCode_varintBytes (Nat.lt_of_le_of_lt hsafe (by decide)), hsafe⟩
      · rw [run, writeVarint, if_neg hin] at hrun
        cases hrun
  | raw data =>
      obtain ⟨a', ha, hholds⟩ := (refines_writeRaw hlist data).accepted hrun
      obtain rfl := Outcome.ok.inj ha
      refine ⟨_, hholds, ?_⟩
      intro front rest
      rw [read, bind_apply, run_of_recognises (fun _ => follows_readRaw data.length)
        (CanonicalReader.recognises_readRaw data.length) ⟨rfl, rfl⟩ front rest]
      rfl
  | bytes data =>
      obtain ⟨a', ha, hholds⟩ := (refines_writeBytes hlist data).accepted hrun
      by_cases hsafe : data.length ≤ maxSafeInteger
      · rw [CanonicalWriter.writeBytes, CanonicalWriter.writeVarint_eq hsafe, Outcome.ok_bind,
          CanonicalWriter.writeRaw_writeRaw] at ha
        obtain rfl := Outcome.ok.inj ha
        refine ⟨_, hholds, ?_⟩
        intro front rest
        rw [read, bind_apply, run_of_recognises (fun _ => follows_readBytes)
          (CanonicalReader.recognises_readBytes maxSafeInteger)
          ⟨_, varintCode_varintBytes (Nat.lt_of_le_of_lt hsafe (by decide)), hsafe, hsafe, rfl⟩
          front rest]
        rfl
      · rw [CanonicalWriter.writeBytes, CanonicalWriter.writeVarint,
          if_pos (Nat.not_le.mp hsafe)] at ha
        cases ha

/-- What a list of calls appends, read back behind whatever is in front. -/
theorem runAll_spec {calls : List CanonicalWrite} (h : w.Holds written)
    (hrun : runAll w calls = .ok w') :
    ∃ code, w'.Holds (written ++ code) ∧
      ∀ front, readAll (front ++ code) calls front.length =
        .ok (calls.map value, (front ++ code).length) := by
  induction calls generalizing w written with
  | nil =>
      rw [runAll] at hrun
      cases hrun
      refine ⟨[], by rwa [List.append_nil], ?_⟩
      intro front
      rw [List.append_nil]
      rfl
  | cons call rest ih =>
      rw [runAll] at hrun
      obtain ⟨mid, hcall, hrest⟩ := Outcome.bind_eq_ok.mp hrun
      obtain ⟨first, hmid, hfirst⟩ := run_spec h hcall
      obtain ⟨more, hholds, hmore⟩ := ih hmid hrest
      refine ⟨first ++ more, by rwa [← List.append_assoc], ?_⟩
      intro front
      have hread := hmore (front ++ first)
      rw [← List.append_assoc, readAll, bind_apply, hfirst front more, Outcome.ok_bind,
        bind_apply, hread]
      rfl

/-- **The writer and the reader are inverse**: whatever capacity the
buffer started with, the matching calls read back what was written and
end behind the last byte. -/
theorem writer_reader_inverse {initialCapacity : Nat} (hcapacity : 1 ≤ initialCapacity)
    {calls : List CanonicalWrite} (hrun : runAll (.new initialCapacity) calls = .ok w') :
    readAll w'.bytes calls 0 = .ok (calls.map value, w'.bytes.length) := by
  obtain ⟨code, hholds, hread⟩ := runAll_spec (holds_new hcapacity) hrun
  rw [hholds.bytes_eq]
  exact hread []

/-- A buffer of one byte, which has to grow. -/
theorem writer_reader_grown :
    ∃ w : BufferWriter,
      runAll (.new 1) [u8 (.integer 7), u64LE (.integer 9007199254740991), bytes [0x2a]] =
        .ok w ∧ w.buf.length = 16 ∧
      readAll w.bytes [u8 (.integer 7), u64LE (.integer 9007199254740991), bytes [0x2a]] 0 =
        .ok ([.number 7, .number 9007199254740991, .bytes [0x2a]], w.bytes.length) := by
  have hrun : runAll (.new 1) [u8 (.integer 7), u64LE (.integer 9007199254740991),
      bytes [0x2a]] = .ok ⟨[7, 0xff, 0xff, 0xff, 0xff, 0xff, 0xff, 0x1f, 0, 1, 0x2a, 0, 0, 0, 0,
        0], 11⟩ := by decide
  exact ⟨_, hrun, rfl, writer_reader_inverse (by decide) hrun⟩

end CanonicalWrite

end CardTable.Ts
