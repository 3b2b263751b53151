import CardTable.Ts.Sign

/-!
# Signatures — DER as the builder writes it and as it reads it

What `encodeDer` writes of two integers is the only encoding of them, and
`decodeDer` reads it back. `decodeDer` reads more: it checks the tags and
the outer length, and nothing of the two integers behind them. `DerExact`
says what else makes a string an encoding.
-/

namespace CardTable.Ts

open Basis

/-! ## The bytes of an integer -/

theorem digitValue_digitChar : ∀ v < 16, digitValue v.digitChar = v := by decide

/-- Two digits more are one byte more. -/
theorem parsePairs_append {cs : List Char} (heven : cs.length % 2 = 0) (hi lo : Char) :
    parsePairs (cs ++ [hi, lo]) =
      parsePairs cs ++ [UInt8.ofNat (16 * digitValue hi + digitValue lo)] := by
  induction cs using parsePairs.induct with
  | case1 a b rest ih =>
      have hrest : rest.length % 2 = 0 := by
        rw [List.length_cons, List.length_cons] at heven
        omega
      rw [List.cons_append, List.cons_append, parsePairs, parsePairs, ih hrest]
      rfl
  | case2 cs hnot =>
      match cs, hnot, heven with
      | [], _, _ => rfl
      | [_], _, heven => cases heven
      | a :: b :: rest, hnot, _ => exact absurd rfl (hnot a b rest)

/-- A number below 256 is one byte. -/
theorem bigintToBytes_of_lt {n : Nat} (h : n < 256) : bigintToBytes n = [UInt8.ofNat n] := by
  rw [bigintToBytes]
  by_cases hsmall : n < 16
  · rw [Nat.toDigits_of_lt_base hsmall]
    have hzero : digitValue '0' = 0 := by decide
    show [UInt8.ofNat (16 * digitValue '0' + digitValue n.digitChar)] = _
    rw [hzero, digitValue_digitChar n hsmall, Nat.mul_zero, Nat.zero_add]
  · have hdiv : n / 16 < 16 := by omega
    rw [Nat.toDigits_of_base_le (by decide) (Nat.not_lt.mp hsmall),
      Nat.toDigits_of_lt_base hdiv, List.singleton_append]
    simp only [List.length_cons, List.length_nil]
    rw [if_neg (by decide)]
    show [UInt8.ofNat (16 * digitValue (n / 16).digitChar + digitValue (n % 16).digitChar)] = _
    rw [digitValue_digitChar _ hdiv, digitValue_digitChar _ (Nat.mod_lt n (by decide)),
      Nat.div_add_mod]

/-- A larger number has one byte more than what is left without its last
byte: both have an odd number of digits, or both an even one. -/
theorem bigintToBytes_of_le {n : Nat} (h : 256 ≤ n) :
    bigintToBytes n = bigintToBytes (n / 256) ++ [UInt8.ofNat n] := by
  have hdigits : Nat.toDigits 16 n =
      Nat.toDigits 16 (n / 256) ++ [(n / 16 % 16).digitChar, (n % 16).digitChar] := by
    rw [Nat.toDigits_of_base_le (by decide) (show 16 ≤ n by omega),
      Nat.toDigits_of_base_le (by decide) (show 16 ≤ n / 16 by omega), Nat.div_div_eq_div_mul,
      List.append_assoc]
    rfl
  have hbyte : UInt8.ofNat (16 * digitValue (n / 16 % 16).digitChar +
      digitValue (n % 16).digitChar) = UInt8.ofNat n := by
    rw [digitValue_digitChar _ (Nat.mod_lt _ (by decide)),
      digitValue_digitChar _ (Nat.mod_lt n (by decide))]
    apply UInt8.toNat_inj.mp
    rw [UInt8.toNat_ofNat', UInt8.toNat_ofNat']
    omega
  rw [bigintToBytes, bigintToBytes, hdigits]
  generalize Nat.toDigits 16 (n / 256) = cs
  simp only [List.length_append, List.length_cons, List.length_nil]
  by_cases hodd : cs.length % 2 = 0
  · rw [if_neg (by omega), if_neg (by omega), parsePairs_append hodd, hbyte]
  · have heven : ('0' :: cs).length % 2 = 0 := by
      rw [List.length_cons]
      omega
    rw [if_pos (by omega), if_pos (by omega), ← List.cons_append, parsePairs_append heven, hbyte]

/-- **The bytes are those of the number.** -/
theorem uintBE_bigintToBytes (n : Nat) : uintBE (bigintToBytes n) = n := by
  induction n using Nat.strong_induction_on with
  | _ n ih =>
      by_cases hsmall : n < 256
      · rw [bigintToBytes_of_lt hsmall]
        simp only [uintBE, List.foldl_cons, List.foldl_nil, UInt8.toNat_ofNat']
        omega
      · have hone : uintBE [UInt8.ofNat n] = n % 256 := by
          simp only [uintBE, List.foldl_cons, List.foldl_nil, UInt8.toNat_ofNat']
          omega
        rw [bigintToBytes_of_le (by omega), uintBE_append, ih (n / 256) (by omega), hone,
          List.length_singleton]
        omega

/-- No byte of zeros is in front. -/
theorem bigintToBytes_head {n : Nat} (h : 0 < n) :
    ∃ b rest, bigintToBytes n = b :: rest ∧ b ≠ 0 := by
  induction n using Nat.strong_induction_on with
  | _ n ih =>
      by_cases hsmall : n < 256
      · refine ⟨UInt8.ofNat n, [], bigintToBytes_of_lt hsmall, ?_⟩
        intro hzero
        have := congrArg UInt8.toNat hzero
        rw [UInt8.toNat_ofNat', show (0 : UInt8).toNat = 0 from rfl] at this
        omega
      · obtain ⟨b, rest, hdiv, hb⟩ := ih (n / 256) (by omega) (by omega)
        refine ⟨b, rest ++ [UInt8.ofNat n], ?_, hb⟩
        rw [bigintToBytes_of_le (by omega), hdiv]
        rfl

/-- Padded to 32 bytes it is the number modulo `2 ^ 256`, whichever branch
was taken. -/
theorem padTo32_eq (b : List UInt8) : padTo32 b = putUintBE (uintBE b) 32 := by
  rw [padTo32]
  split
  · rename_i heq
    rw [putUintBE_uintBE heq]
  · split
    · rename_i hlong
      rw [putUintBE_uintBE_of_ge (Nat.le_of_lt hlong)]
    · rename_i hshort
      rw [putUintBE_uintBE_of_le (Nat.not_lt.mp hshort)]

/-! ## Encoding -/

/-- Bytes without a zero in front, with a sign byte where they need one. -/
theorem positive_padded {b : UInt8} {rest : List UInt8} {k : Nat} (hb : b ≠ 0)
    (hbound : uintBE (b :: rest) < 256 ^ k) :
    Der.Positive k (if 128 ≤ b.toNat then 0 :: b :: rest else b :: rest) := by
  have hpos : 0 < b.toNat := by
    apply Nat.pos_of_ne_zero
    intro hzero
    exact hb (UInt8.toNat_inj.mp hzero)
  have hval : 0 < uintBE (b :: rest) := by
    rw [uintBE_cons]
    have : 0 < b.toNat * 256 ^ rest.length := Nat.mul_pos hpos (Nat.pow_pos (by decide))
    omega
  by_cases htop : 128 ≤ b.toNat
  · rw [if_pos htop]
    have hzero : uintBE (0 :: b :: rest) = uintBE (b :: rest) := by
      rw [uintBE_cons 0, show (0 : UInt8).toNat = 0 from rfl, Nat.zero_mul, Nat.zero_add]
    refine ⟨fun _ => htop, show (0 : UInt8).toNat < 128 by decide, ?_, ?_⟩
    · rw [hzero]
      exact hval
    · rw [hzero]
      exact hbound
  · rw [if_neg htop]
    refine ⟨?_, Nat.not_le.mp htop, hval, hbound⟩
    cases rest with
    | nil => trivial
    | cons c rest => exact fun hzero => absurd hzero hb

/-- The body `encodeDerInt` gives a number. -/
def derBody (n : Nat) : List UInt8 :=
  match bigintToBytes n with
  | b :: rest => if 128 ≤ b.toNat then 0 :: b :: rest else b :: rest
  | [] => []

theorem uintBE_derBody (n : Nat) : uintBE (derBody n) = n := by
  have hval := uintBE_bigintToBytes n
  rw [derBody]
  cases hbytes : bigintToBytes n with
  | nil => rwa [hbytes] at hval
  | cons b rest =>
      rw [hbytes] at hval
      dsimp only
      split
      · rw [uintBE_cons 0, show (0 : UInt8).toNat = 0 from rfl, Nat.zero_mul, Nat.zero_add, hval]
      · exact hval

theorem positive_derBody {n : Nat} (hpos : 0 < n) (hbound : n < 2 ^ 256) :
    Der.Positive 32 (derBody n) := by
  obtain ⟨b, rest, hbytes, hb⟩ := bigintToBytes_head hpos
  have hval := uintBE_bigintToBytes n
  rw [hbytes] at hval
  rw [derBody, hbytes]
  apply positive_padded hb
  rw [hval]
  exact hbound

/-- `encodeDerInt` puts the sign byte in front and strips nothing. -/
theorem encodeDerInt_bigintToBytes {n : Nat} (hpos : 0 < n) :
    encodeDerInt (bigintToBytes n) = Der.integer (derBody n) := by
  obtain ⟨b, rest, hbytes, hb⟩ := bigintToBytes_head hpos
  have hstrip : stripZeros (b :: rest) = b :: rest := by
    cases rest with
    | nil => rfl
    | cons c rest => rw [stripZeros, if_neg hb]
  rw [encodeDerInt, derBody, hbytes, hstrip, Der.integer]

/-- **A minimal body is written as it is**: the zero that is stripped is
put back. -/
theorem encodeDerInt_of_positive {k : Nat} {body : List UInt8} (h : Der.Positive k body) :
    encodeDerInt body = Der.integer body := by
  have hpos := h.pos
  obtain ⟨hminimal, hnonneg, _, _⟩ := h
  match body, hminimal, hnonneg, hpos with
  | [b], _, hnonneg, _ =>
      have hb : ¬128 ≤ b.toNat := Nat.not_le.mpr hnonneg
      rw [encodeDerInt, stripZeros, Der.integer]
      · simp only [if_neg hb]
      · intro b' c rest h
        cases h
  | b :: c :: rest, hminimal, hnonneg, _ =>
      have hb : ¬128 ≤ b.toNat := Nat.not_le.mpr hnonneg
      by_cases hzero : b = 0
      · subst hzero
        have hc : 128 ≤ c.toNat := hminimal rfl
        have hcne : c ≠ 0 := by
          rintro rfl
          exact absurd hc (by decide)
        have hstrip : stripZeros (c :: rest) = c :: rest := by
          cases rest with
          | nil => rfl
          | cons d rest => rw [stripZeros, if_neg hcne]
        rw [encodeDerInt, stripZeros, if_pos rfl, hstrip, Der.integer]
        simp only [if_pos hc]
      · rw [encodeDerInt, stripZeros, if_neg hzero, Der.integer]
        simp only [if_neg hb]

/-- Two integers in a row. -/
theorem encodeDer_eq {r s rBody sBody : List UInt8} (hr : encodeDerInt r = Der.integer rBody)
    (hs : encodeDerInt s = Der.integer sBody) :
    encodeDer r s = Der.signature rBody sBody := by
  have hsum : (Der.integer rBody).length + (Der.integer sBody).length =
      rBody.length + sBody.length + 4 := by
    simp only [Der.integer, List.length_cons]
    omega
  rw [encodeDer, hr, hs, hsum, Der.signature]

/-! ## Decoding -/

/-- A range behind four bytes. -/
theorem slice_cons_four (a b c d : UInt8) (rest : List UInt8) (i j : Nat) :
    slice (a :: b :: c :: d :: rest) (4 + i) (4 + j) = slice rest i j := by
  rw [slice, slice, Nat.add_comm 4, Nat.add_comm 4]
  rfl

/-- What `decodeDer` does behind the tags and the outer length. -/
theorem decodeDer_cons {total rLen : UInt8} {rest : List UInt8}
    (htotal : total.toNat = rest.length + 2) (hlen : 4 ≤ rest.length) :
    decodeDer (0x30 :: total :: 0x02 :: rLen :: rest) =
      if rest[rLen.toNat]? ≠ some 0x02 then .halt "decodeDer: missing s INTEGER tag"
      else match rest[rLen.toNat + 1]? with
        | none => .ok (slice rest 0 rLen.toNat, [])
        | some sLen =>
            .ok (slice rest 0 rLen.toNat,
              slice rest (rLen.toNat + 2) (rLen.toNat + 2 + sLen.toNat)) := by
  obtain ⟨buf, hbuf⟩ : ∃ buf, buf = 0x30 :: total :: 0x02 :: rLen :: rest := ⟨_, rfl⟩
  have hsize : buf.length = rest.length + 4 := by
    rw [hbuf]
    rfl
  have hseq : buf[0]? = some 0x30 := by rw [hbuf, List.getElem?_cons_zero]
  have houter : buf[1]?.map UInt8.toNat = some (buf.length - 2) := by
    rw [hsize, hbuf, List.getElem?_cons_succ, List.getElem?_cons_zero, Option.map_some, htotal]
    rfl
  have hrTag : buf[2]? = some 0x02 := by rw [hbuf]; rfl
  have hrLen : buf[3]? = some rLen := by rw [hbuf]; rfl
  have hbehind : ∀ i, buf[4 + i]? = rest[i]? := by
    intro i
    rw [hbuf, Nat.add_comm]
    rfl
  have hslice : ∀ i j, slice buf (4 + i) (4 + j) = slice rest i j := by
    intro i j
    rw [hbuf, slice_cons_four]
  rw [← hbuf, decodeDer, if_neg (by omega), if_neg (by simp [hseq]), if_neg (by simp [houter]),
    if_neg (by simp [hrTag]), hrLen, Option.getD_some]
  simp only [hbehind, Nat.add_assoc 4]
  rw [hslice 0 rLen.toNat]
  split
  · rfl
  · cases rest[rLen.toNat + 1]? with
    | none =>
        dsimp only
        rw [slice, slice, List.take_zero, List.drop_nil]
    | some sLen =>
        dsimp only
        rw [hslice]

/-- **Whatever is behind the two integers is not looked at.** -/
theorem decodeDer_trailing {r s : List UInt8} (more : List UInt8) (hr : 0 < r.length)
    (hs : 0 < s.length) (hfits : r.length + s.length + more.length + 4 < 256) :
    decodeDer (0x30 :: UInt8.ofNat (r.length + s.length + more.length + 4) ::
      (Der.integer r ++ Der.integer s ++ more)) = .ok (r, s) := by
  obtain ⟨rest, hrest⟩ : ∃ rest, rest = r ++ 0x02 :: UInt8.ofNat s.length :: (s ++ more) :=
    ⟨_, rfl⟩
  have hform : 0x30 :: UInt8.ofNat (r.length + s.length + more.length + 4) ::
      (Der.integer r ++ Der.integer s ++ more) =
      0x30 :: UInt8.ofNat (r.length + s.length + more.length + 4) :: 0x02 ::
        UInt8.ofNat r.length :: rest := by
    rw [hrest]
    simp [Der.integer]
  have hsize : rest.length = r.length + s.length + more.length + 2 := by
    rw [hrest]
    simp only [List.length_append, List.length_cons]
    omega
  have htotal : (UInt8.ofNat (r.length + s.length + more.length + 4)).toNat =
      rest.length + 2 := by
    rw [UInt8.toNat_ofNat']
    omega
  have hrLen : (UInt8.ofNat r.length).toNat = r.length := by
    rw [UInt8.toNat_ofNat']
    omega
  have hsLen : (UInt8.ofNat s.length).toNat = s.length := by
    rw [UInt8.toNat_ofNat']
    omega
  have htag : rest[r.length]? = some 0x02 := by
    rw [hrest, List.getElem?_append_right (Nat.le_refl _), Nat.sub_self]
    rfl
  have hlength : rest[r.length + 1]? = some (UInt8.ofNat s.length) := by
    rw [hrest, List.getElem?_append_right (Nat.le_add_right _ 1), Nat.add_sub_cancel_left]
    rfl
  have hfirst : slice rest 0 r.length = r := by
    rw [slice, List.drop_zero, hrest, List.take_left]
  have hsecond : slice rest (r.length + 2) (r.length + 2 + s.length) = s := by
    rw [slice, ← List.take_drop, ← List.drop_drop, hrest, List.drop_left]
    exact List.take_left
  rw [hform, decodeDer_cons htotal (by omega), hrLen, htag, hlength, if_neg (by simp)]
  dsimp only
  rw [hsLen, hfirst, hsecond]

/-- **What is an encoding is read back.** -/
theorem decodeDer_signature {r s : List UInt8} (hr : 0 < r.length) (hs : 0 < s.length)
    (hfits : r.length + s.length + 4 < 256) :
    decodeDer (Der.signature r s) = .ok (r, s) := by
  have hread := decodeDer_trailing [] hr hs hfits
  rwa [List.append_nil] at hread

/-- **DER round-trips.** What `encodeDer` writes of two numbers of 256 bits
is the encoding of them, every length in it is a byte below `0x80`, both
bodies are minimal and non-negative, and `decodeDer` gives bodies which
padded are the 32 bytes of the numbers. -/
theorem der_round_trip {r s : Nat} (hr : 1 ≤ r) (hr' : r < 2 ^ 256) (hs : 1 ≤ s)
    (hs' : s < 2 ^ 256) :
    ∃ rBody sBody, encodeDer (bigintToBytes r) (bigintToBytes s) = Der.signature rBody sBody ∧
      decodeDer (encodeDer (bigintToBytes r) (bigintToBytes s)) = .ok (rBody, sBody) ∧
      padTo32 rBody = putUintBE r 32 ∧ padTo32 sBody = putUintBE s 32 ∧
      rBody.length + sBody.length + 4 < 0x80 ∧
      Der.Minimal rBody ∧ Der.Nonneg rBody ∧ Der.Minimal sBody ∧ Der.Nonneg sBody := by
  have hrBody := positive_derBody hr hr'
  have hsBody := positive_derBody hs hs'
  have hrLen := hrBody.length_le
  have hsLen := hsBody.length_le
  have hencode : encodeDer (bigintToBytes r) (bigintToBytes s) =
      Der.signature (derBody r) (derBody s) :=
    encodeDer_eq (encodeDerInt_bigintToBytes hr) (encodeDerInt_bigintToBytes hs)
  refine ⟨derBody r, derBody s, hencode, ?_, ?_, ?_, by omega, hrBody.minimal, hrBody.nonneg,
    hsBody.minimal, hsBody.nonneg⟩
  · rw [hencode]
    exact decodeDer_signature hrBody.length_pos hsBody.length_pos (by omega)
  · rw [padTo32_eq, uintBE_derBody]
  · rw [padTo32_eq, uintBE_derBody]

/-- The largest numbers, which both need a sign byte. -/
theorem der_round_trip_largest :
    ∃ rBody sBody,
      encodeDer (bigintToBytes (2 ^ 256 - 1)) (bigintToBytes 1) = Der.signature rBody sBody ∧
      decodeDer (encodeDer (bigintToBytes (2 ^ 256 - 1)) (bigintToBytes 1)) =
        .ok (rBody, sBody) ∧
      padTo32 rBody = putUintBE (2 ^ 256 - 1) 32 ∧ padTo32 sBody = putUintBE 1 32 ∧
      rBody.length + sBody.length + 4 < 0x80 ∧
      Der.Minimal rBody ∧ Der.Nonneg rBody ∧ Der.Minimal sBody ∧ Der.Nonneg sBody :=
  der_round_trip (by decide) (by decide) (by decide) (by decide)

/-! ## What `decodeDer` reads -/

/-- The checks `decodeDer` makes: the tags and the outer length. -/
def DerTagged (buf : List UInt8) : Prop :=
  8 ≤ buf.length ∧ buf[0]? = some 0x30 ∧ buf[1]?.map UInt8.toNat = some (buf.length - 2) ∧
    buf[2]? = some 0x02 ∧ ∃ rLen ∈ buf[3]?, buf[4 + rLen.toNat]? = some 0x02

/-- The checks it leaves out: the inner lengths are those of the two
integers and fill the string, and each integer is minimal, positive and
of 32 bytes at most. -/
def DerExact (buf : List UInt8) : Prop :=
  ∃ rLen ∈ buf[3]?, ∃ sLen ∈ buf[5 + rLen.toNat]?,
    buf.length = 6 + rLen.toNat + sLen.toNat ∧
    Der.Positive 32 (slice buf 4 (4 + rLen.toNat)) ∧
    Der.Positive 32 (slice buf (6 + rLen.toNat) (6 + rLen.toNat + sLen.toNat))

/-- A string `decodeDer` would refuse, or an exact one. -/
def DerStrict (buf : List UInt8) : Prop := DerTagged buf → DerExact buf

/-- What `decodeDer` returns of the string, if anything, are two positive
integers of 32 bytes at most, and the string is their encoding. -/
def StrictlyDecoded (buf : List UInt8) : Prop :=
  ∀ r s, decodeDer buf = .ok (r, s) →
    buf = encodeDer r s ∧ Der.Positive 32 r ∧ Der.Positive 32 s

/-- What `decodeDer` returns passed its checks. -/
theorem derTagged_of_decodeDer {buf r s : List UInt8} (h : decodeDer buf = .ok (r, s)) :
    DerTagged buf := by
  rw [decodeDer] at h
  split at h
  · cases h
  · rename_i hlen
    split at h
    · cases h
    · rename_i hseq
      split at h
      · cases h
      · rename_i houter
        split at h
        · cases h
        · rename_i hrTag
          have hrLen : buf[3]? = some (buf[3]?.getD 0) := by
            rw [List.getElem?_eq_getElem (by omega)]
            rfl
          refine ⟨by omega, by simpa using hseq, by simpa using houter, by simpa using hrTag,
            buf[3]?.getD 0, hrLen, ?_⟩
          dsimp only at h
          split at h
          · cases h
          · rename_i hsTag
            simpa using hsTag

/-- A tagged string is four bytes and the rest. -/
theorem DerTagged.eq_cons {buf : List UInt8} (h : DerTagged buf) :
    ∃ total rLen rest, buf = 0x30 :: total :: 0x02 :: rLen :: rest ∧
      total.toNat = rest.length + 2 ∧ 4 ≤ rest.length ∧ rest[rLen.toNat]? = some 0x02 := by
  obtain ⟨hlen, hseq, houter, hrTag, rLen, hrLen, hsTag⟩ := h
  match buf, hlen with
  | a :: total :: c :: d :: rest, hlen =>
      obtain rfl : a = 0x30 := by simpa using hseq
      obtain rfl : c = 0x02 := by simpa using hrTag
      obtain rfl : d = rLen := by simpa using hrLen
      refine ⟨total, d, rest, rfl, ?_, ?_, ?_⟩
      · simpa using houter
      · simpa using hlen
      · rwa [Nat.add_comm] at hsTag

/-- A list around two elements in a row. -/
theorem eq_take_append_cons {l : List UInt8} {i : Nat} {a b : UInt8} (ha : l[i]? = some a)
    (hb : l[i + 1]? = some b) : l = l.take i ++ a :: b :: l.drop (i + 2) := by
  obtain ⟨hi, rfl⟩ := List.getElem?_eq_some_iff.mp ha
  obtain ⟨hi', rfl⟩ := List.getElem?_eq_some_iff.mp hb
  rw [← List.drop_eq_getElem_cons hi', ← List.drop_eq_getElem_cons hi, List.take_append_drop]

/-- **Tagged and exact is an encoding.** -/
theorem eq_signature_of_derExact {buf : List UInt8} (htagged : DerTagged buf)
    (hexact : DerExact buf) :
    ∃ r s, buf = Der.signature r s ∧ Der.Positive 32 r ∧ Der.Positive 32 s := by
  obtain ⟨total, rLen, rest, rfl, htotal, hlen, hsTag⟩ := htagged.eq_cons
  obtain ⟨rLen', hrLen, sLen, hsLen, hsize, hr, hs⟩ := hexact
  obtain rfl : rLen = rLen' := by simpa using hrLen
  have hsize' : rest.length = rLen.toNat + 2 + sLen.toNat := by
    simp only [List.length_cons] at hsize
    omega
  have hsLen' : rest[rLen.toNat + 1]? = some sLen := by
    have hshift : 5 + rLen.toNat = rLen.toNat + 1 + 4 := by omega
    rw [hshift] at hsLen
    exact hsLen
  have hrSlice : slice (0x30 :: total :: 0x02 :: rLen :: rest) 4 (4 + rLen.toNat) =
      rest.take rLen.toNat := slice_cons_four _ _ _ _ rest 0 rLen.toNat
  have hsSlice : slice (0x30 :: total :: 0x02 :: rLen :: rest) (6 + rLen.toNat)
      (6 + rLen.toNat + sLen.toNat) = rest.drop (rLen.toNat + 2) := by
    have hstart : 6 + rLen.toNat = 4 + (rLen.toNat + 2) := by omega
    rw [hstart, Nat.add_assoc 4, slice_cons_four, slice, List.take_of_length_le (by omega)]
  rw [hrSlice] at hr
  rw [hsSlice] at hs
  refine ⟨_, _, ?_, hr, hs⟩
  have hrLength : UInt8.ofNat (rest.take rLen.toNat).length = rLen := by
    rw [List.length_take, Nat.min_eq_left (by omega), UInt8.ofNat_toNat]
  have hsLength : UInt8.ofNat (rest.drop (rLen.toNat + 2)).length = sLen := by
    rw [List.length_drop, hsize', Nat.add_sub_cancel_left, UInt8.ofNat_toNat]
  have htotal' : UInt8.ofNat ((rest.take rLen.toNat).length +
      (rest.drop (rLen.toNat + 2)).length + 4) = total := by
    have hsum : (rest.take rLen.toNat).length + (rest.drop (rLen.toNat + 2)).length + 4 =
        total.toNat := by
      rw [List.length_take, List.length_drop]
      omega
    rw [hsum, UInt8.ofNat_toNat]
  rw [Der.signature, htotal', Der.integer, Der.integer, hrLength, hsLength, List.cons_append,
    List.cons_append, ← eq_take_append_cons hsTag hsLen']

/-- The encoding of positive integers is exact. -/
theorem derExact_signature {r s : List UInt8} (hr : Der.Positive 32 r) (hs : Der.Positive 32 s) :
    DerExact (Der.signature r s) := by
  have hrLe := hr.length_le
  have hsLe := hs.length_le
  have hrLen : (UInt8.ofNat r.length).toNat = r.length := by
    rw [UInt8.toNat_ofNat']
    omega
  have hsLen : (UInt8.ofNat s.length).toNat = s.length := by
    rw [UInt8.toNat_ofNat']
    omega
  obtain ⟨rest, hrest⟩ : ∃ rest, rest = r ++ 0x02 :: UInt8.ofNat s.length :: s := ⟨_, rfl⟩
  have hform : Der.signature r s = 0x30 :: UInt8.ofNat (r.length + s.length + 4) :: 0x02 ::
      UInt8.ofNat r.length :: rest := by
    rw [hrest]
    rfl
  have hsize : rest.length = r.length + 2 + s.length := by
    rw [hrest]
    simp only [List.length_append, List.length_cons]
    omega
  rw [hform]
  refine ⟨UInt8.ofNat r.length, rfl, UInt8.ofNat s.length, ?_, ?_, ?_, ?_⟩
  · have hshift : 5 + (UInt8.ofNat r.length).toNat = r.length + 1 + 4 := by omega
    rw [hshift]
    show rest[r.length + 1]? = some (UInt8.ofNat s.length)
    rw [hrest, List.getElem?_append_right (Nat.le_add_right _ 1), Nat.add_sub_cancel_left]
    rfl
  · simp only [List.length_cons]
    omega
  · rw [hrLen, slice_cons_four (i := 0), slice, List.drop_zero, hrest, List.take_left]
    exact hr
  · have hstart : 6 + r.length = 4 + (r.length + 2) := by omega
    rw [hrLen, hsLen, hstart, Nat.add_assoc 4, slice_cons_four, slice,
      List.take_of_length_le (by omega), ← List.drop_drop, hrest, List.drop_left]
    exact hs

/-- A strict string that is not refused is an encoding. -/
theorem eq_signature_of_decodeDer {buf r s : List UInt8} (hstrict : DerStrict buf)
    (h : decodeDer buf = .ok (r, s)) :
    buf = Der.signature r s ∧ Der.Positive 32 r ∧ Der.Positive 32 s := by
  have htagged := derTagged_of_decodeDer h
  obtain ⟨r', s', rfl, hr, hs⟩ := eq_signature_of_derExact htagged (hstrict htagged)
  have hrLe := hr.length_le
  have hsLe := hs.length_le
  rw [decodeDer_signature hr.length_pos hs.length_pos (by omega)] at h
  cases h
  exact ⟨rfl, hr, hs⟩

/-- What passes the checks is returned as something. -/
theorem DerTagged.decodes {buf : List UInt8} (h : DerTagged buf) :
    ∃ r s, decodeDer buf = .ok (r, s) := by
  obtain ⟨total, rLen, rest, rfl, htotal, hlen, hsTag⟩ := h.eq_cons
  rw [decodeDer_cons htotal hlen, hsTag, if_neg (by simp)]
  cases rest[rLen.toNat + 1]? with
  | none => exact ⟨_, _, rfl⟩
  | some sLen => exact ⟨_, _, rfl⟩

/-- **`decodeDer` is strict on exact strings, and on no other one it does
not refuse.** -/
theorem strictlyDecoded_iff (buf : List UInt8) : StrictlyDecoded buf ↔ DerStrict buf := by
  constructor
  · intro h htagged
    obtain ⟨r, s, hread⟩ := htagged.decodes
    obtain ⟨heq, hr, hs⟩ := h r s hread
    rw [heq, encodeDer_eq (encodeDerInt_of_positive hr) (encodeDerInt_of_positive hs)]
    exact derExact_signature hr hs
  · intro hstrict r s hread
    obtain ⟨heq, hr, hs⟩ := eq_signature_of_decodeDer hstrict hread
    refine ⟨?_, hr, hs⟩
    rw [encodeDer_eq (encodeDerInt_of_positive hr) (encodeDerInt_of_positive hs)]
    exact heq

/-! ## How many strings a signature has -/

/-- The two numbers `decodeDer` returns of a string. -/
def signatureOf (buf : List UInt8) : Option (Nat × Nat) :=
  (decodeDer buf).value?.map fun read => (uintBE read.1, uintBE read.2)

section Verify

variable {verify : List UInt8 → List UInt8 → List UInt8 → Js Bool}
  {buf buf' sighash pubKey : List UInt8}

/-- What is verified was read. -/
theorem decodes_of_verified (h : verifySighashSignature verify buf sighash pubKey = true) :
    ∃ r s, decodeDer buf = .ok (r, s) := by
  rw [verifySighashSignature] at h
  split at h
  · cases h
  · split at h
    · cases h
    · cases hread : decodeDer buf with
      | ok read => exact ⟨read.1, read.2, rfl⟩
      | err e =>
          rw [hread] at h
          cases h
      | halt why =>
          rw [hread] at h
          cases h

/-- Strings that read the same are verified the same. -/
theorem verified_congr (h : decodeDer buf' = decodeDer buf) :
    verifySighashSignature verify buf' sighash pubKey =
      verifySighashSignature verify buf sighash pubKey := by
  rw [verifySighashSignature, verifySighashSignature, h]

/-- **Strict strings of one signature are one string.** -/
theorem eq_of_signatureOf_eq (hstrict : DerStrict buf) (hstrict' : DerStrict buf')
    (hverified : verifySighashSignature verify buf sighash pubKey = true)
    (hverified' : verifySighashSignature verify buf' sighash pubKey = true)
    (h : signatureOf buf' = signatureOf buf) : buf' = buf := by
  obtain ⟨r, s, hread⟩ := decodes_of_verified hverified
  obtain ⟨r', s', hread'⟩ := decodes_of_verified hverified'
  obtain ⟨heq, hr, hs⟩ := eq_signature_of_decodeDer hstrict hread
  obtain ⟨heq', hr', hs'⟩ := eq_signature_of_decodeDer hstrict' hread'
  rw [signatureOf, signatureOf, hread, hread'] at h
  obtain ⟨hrVal, hsVal⟩ := Prod.mk.inj (Option.some.inj h)
  have hrEq := hr'.minimal.inj hr'.nonneg hr.minimal hr.nonneg hrVal
  have hsEq := hs'.minimal.inj hs'.nonneg hs.minimal hs.nonneg hsVal
  rw [heq, heq', hrEq, hsEq]

/-- **Every signature has another string that is read the same**: one byte
behind the two integers, counted by the outer length. -/
theorem exists_trailing (hstrict : DerStrict buf) {r s : List UInt8}
    (h : decodeDer buf = .ok (r, s)) :
    ∃ other, other ≠ buf ∧ decodeDer other = decodeDer buf := by
  obtain ⟨heq, hr, hs⟩ := eq_signature_of_decodeDer hstrict h
  have hrLe := hr.length_le
  have hsLe := hs.length_le
  have hfits : r.length + s.length + [(0 : UInt8)].length + 4 < 256 := by
    rw [List.length_singleton]
    omega
  refine ⟨_, ?_, (decodeDer_trailing [0] hr.length_pos hs.length_pos hfits).trans h.symm⟩
  intro hsame
  have hlen := congrArg List.length (hsame.trans heq)
  simp [Der.signature] at hlen

end Verify

/-- **When DER is read strictly.** A string that passes the checks of
`decodeDer` is the encoding of what is returned exactly when its inner
lengths fill it and its integers are minimal, positive and of 32 bytes at
most. Among such strings a verified signature has one; without the
condition each has another one besides it. -/
theorem decodeDer_strict_iff (buf : List UInt8) :
    (StrictlyDecoded buf ↔ DerStrict buf) ∧
    ∀ verify sighash pubKey, verifySighashSignature verify buf sighash pubKey = true →
      DerStrict buf →
      (∀ buf', verifySighashSignature verify buf' sighash pubKey = true →
        DerStrict buf' → signatureOf buf' = signatureOf buf → buf' = buf) ∧
      (∃ buf', buf' ≠ buf ∧ verifySighashSignature verify buf' sighash pubKey = true ∧
        signatureOf buf' = signatureOf buf) := by
  refine ⟨strictlyDecoded_iff buf, ?_⟩
  intro verify sighash pubKey hverified hstrict
  refine ⟨?_, ?_⟩
  · intro buf' hverified' hstrict' h
    exact eq_of_signatureOf_eq hstrict hstrict' hverified hverified' h
  · obtain ⟨r, s, hread⟩ := decodes_of_verified hverified
    obtain ⟨other, hne, hsame⟩ := exists_trailing hstrict hread
    refine ⟨other, hne, ?_, ?_⟩
    · rw [verified_congr hsame, hverified]
    · rw [signatureOf, signatureOf, hsame]

/-- A byte behind two small integers is passed over. -/
theorem decodeDer_not_strict :
    ¬∀ buf : List UInt8, StrictlyDecoded buf := by
  intro h
  have hread : decodeDer [0x30, 0x07, 0x02, 0x01, 0x01, 0x02, 0x01, 0x01, 0x00] =
      .ok ([0x01], [0x01]) := by decide
  obtain ⟨heq, _, _⟩ := h _ _ _ hread
  exact absurd heq (by decide)

/-! ## Signing and verifying -/

/-- **What is signed is verified as it was signed**: the verifier of the
library gets the 32 bytes of both numbers the signer of the library
returned. -/
theorem verify_signSighash {signAsync : List UInt8 → List UInt8 → Js (Nat × Nat)}
    {verify : List UInt8 → List UInt8 → List UInt8 → Js Bool} {sighash privKey pubKey : List UInt8}
    {r s : Nat} (hsighash : sighash.length = 32) (hpriv : privKey.length = 32)
    (hpub : pubKey.length = 33) (hsign : signAsync sighash privKey = .ok (r, s))
    (hr : 0 < r) (hr' : r < 2 ^ 256) (hs : 0 < s) (hs' : s < 2 ^ 256) :
    ∃ derSig, signSighash signAsync sighash privKey = .ok derSig ∧
      (verifySighashSignature verify derSig sighash pubKey = true ↔
        verify (putUintBE r 32 ++ putUintBE s 32) sighash pubKey = .ok true) := by
  have hrBody := positive_derBody hr hr'
  have hsBody := positive_derBody hs hs'
  have hrLe := hrBody.length_le
  have hsLe := hsBody.length_le
  refine ⟨Der.signature (derBody r) (derBody s), ?_, ?_⟩
  · rw [signSighash]
    simp only [hsighash, hpriv, ne_eq, not_true_eq_false, if_false, hsign, Outcome.ok_bind]
    rw [encodeDer_eq (encodeDerInt_bigintToBytes hr) (encodeDerInt_bigintToBytes hs)]
    rfl
  · rw [verifySighashSignature, if_neg (by simp [hsighash]), if_neg (by simp [hpub]),
      decodeDer_signature hrBody.length_pos hsBody.length_pos (by omega), Outcome.ok_bind]
    dsimp only
    rw [padTo32_eq, padTo32_eq, uintBE_derBody, uintBE_derBody]
    cases verify (putUintBE r 32 ++ putUintBE s 32) sighash pubKey with
    | ok valid => simp
    | err e => simp
    | halt why => simp

end CardTable.Ts
