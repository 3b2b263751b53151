import Mathlib.Data.List.Basic

/-!
# Unicode — text as code units and as bytes

A string of a language that stores UTF-16 is a list of code units, and
need not be text: a surrogate may stand alone. `scalars` reads its
characters and puts U+FFFD in the place of a lone surrogate, `units`
writes them back. Encoding to UTF-8 goes through the characters; decoding
refuses what is no UTF-8 and drops a byte order mark at the front.

A string comes back from its bytes just when no surrogate in it is alone
and it does not begin with the mark. What does not come back gets
smaller, in its length or in its surrogates.
-/

namespace Basis.Unicode

/-! ## UTF-8 -/

/-- The bytes of some characters. -/
def utf8 (cs : List Char) : List UInt8 := cs.flatMap String.utf8EncodeChar

/-- The characters of some bytes; `none` when they are no UTF-8. -/
def utf8Decode? (bytes : List UInt8) : Option (List Char) :=
  bytes.toByteArray.utf8Decode?.map Array.toList

@[simp] theorem utf8_nil : utf8 [] = [] := rfl

@[simp] theorem utf8_cons (c : Char) (cs : List Char) :
    utf8 (c :: cs) = String.utf8EncodeChar c ++ utf8 cs := rfl

theorem toByteArray_utf8 (cs : List Char) : (utf8 cs).toByteArray = cs.utf8Encode := rfl

theorem toByteArray_injective {x y : List UInt8} (h : x.toByteArray = y.toByteArray) : x = y := by
  have hdata := congrArg (fun b => b.data.toList) h
  simpa using hdata

@[simp] theorem utf8Decode?_utf8 (cs : List Char) : utf8Decode? (utf8 cs) = some cs := by
  rw [utf8Decode?, toByteArray_utf8, List.utf8Decode?_utf8Encode]
  simp

/-- **What decodes** is the bytes of characters. -/
theorem utf8Decode?_eq_some_iff {bytes : List UInt8} {cs : List Char} :
    utf8Decode? bytes = some cs ↔ bytes = utf8 cs := by
  constructor
  · intro h
    obtain ⟨chars, hchars, rfl⟩ := Option.map_eq_some_iff.mp h
    have hsome : bytes.toByteArray.utf8Decode?.isSome = true := by rw [hchars]; rfl
    have hback := ByteArray.utf8Encode_get_utf8Decode? (h := hsome)
    simp only [hchars, Option.get_some] at hback
    exact toByteArray_injective (hback.symm.trans (toByteArray_utf8 _).symm)
  · rintro rfl
    exact utf8Decode?_utf8 cs

/-- Characters have one code. -/
theorem utf8_injective {cs ds : List Char} (h : utf8 cs = utf8 ds) : cs = ds := by
  have hsame : utf8Decode? (utf8 cs) = utf8Decode? (utf8 ds) := by rw [h]
  simpa using hsame

/-- A character at the front of the bytes is the first that is read. -/
theorem head_of_prefix {c : Char} {rest : List UInt8} {cs : List Char}
    (h : String.utf8EncodeChar c ++ rest = utf8 cs) : ∃ ds, cs = c :: ds := by
  have hdecode := ByteArray.utf8Decode?_utf8Encode_singleton_append (l := rest.toByteArray) (c := c)
  have hjoin : [c].utf8Encode ++ rest.toByteArray = (utf8 cs).toByteArray := by
    rw [← h, ← toByteArray_utf8]
    simp
  rw [hjoin, toByteArray_utf8, List.utf8Decode?_utf8Encode] at hdecode
  obtain ⟨ds, -, hds⟩ := Option.map_eq_some_iff.mp hdecode.symm
  refine ⟨ds.toList, ?_⟩
  have := congrArg Array.toList hds
  simpa using this.symm

/-! ## UTF-16 -/

def isHigh (u : UInt16) : Bool := decide (0xd800 ≤ u.toNat ∧ u.toNat < 0xdc00)

def isLow (u : UInt16) : Bool := decide (0xdc00 ≤ u.toNat ∧ u.toNat < 0xe000)

def isSurrogate (u : UInt16) : Bool := isHigh u || isLow u

/-- The character of a code unit by itself. -/
def scalar (u : UInt16) : Char := if isSurrogate u then '\uFFFD' else Char.ofNat u.toNat

/-- The character of two surrogates. -/
def pair (u v : UInt16) : Char :=
  Char.ofNat (0x10000 + (u.toNat - 0xd800) * 0x400 + (v.toNat - 0xdc00))

/-- The characters of a string. -/
def scalars : List UInt16 → List Char
  | [] => []
  | [u] => [scalar u]
  | u :: v :: rest =>
      if isHigh u && isLow v then pair u v :: scalars rest else scalar u :: scalars (v :: rest)

/-- The code units of a character. -/
def charUnits (c : Char) : List UInt16 :=
  if c.toNat < 0x10000 then [UInt16.ofNat c.toNat]
  else [UInt16.ofNat (0xd800 + (c.toNat - 0x10000) / 0x400),
    UInt16.ofNat (0xdc00 + (c.toNat - 0x10000) % 0x400)]

/-- The code units of some characters. -/
def units (cs : List Char) : List UInt16 := cs.flatMap charUnits

/-- No surrogate stands alone. -/
def isWellFormed : List UInt16 → Bool
  | [] => true
  | [u] => !isSurrogate u
  | u :: v :: rest =>
      if isHigh u && isLow v then isWellFormed rest else !isSurrogate u && isWellFormed (v :: rest)

/-- The string with its lone surrogates replaced. -/
def toWellFormed (s : List UInt16) : List UInt16 := units (scalars s)

@[simp] theorem units_nil : units [] = [] := rfl

@[simp] theorem units_cons (c : Char) (cs : List Char) :
    units (c :: cs) = charUnits c ++ units cs := rfl

/-- The numbers of characters leave out the surrogates. -/
theorem toNat_valid (c : Char) : c.toNat < 0xd800 ∨ 0xdfff < c.toNat ∧ c.toNat < 0x110000 := c.valid

theorem toNat_ofNat_char {n : Nat} (h : n < 0xd800 ∨ 0xdfff < n ∧ n < 0x110000) :
    (Char.ofNat n).toNat = n := by
  have hvalid : n.isValidChar := h
  rw [Char.ofNat, dif_pos hvalid]
  rfl

theorem charUnits_scalar (u : UInt16) :
    charUnits (scalar u) = [if isSurrogate u then 0xfffd else u] := by
  by_cases h : isSurrogate u = true
  · rw [scalar, if_pos h, if_pos h]
    rfl
  · rw [scalar, if_neg h, if_neg h]
    have hlt := u.toNat_lt
    have hrange : u.toNat < 0xd800 ∨ 0xdfff < u.toNat ∧ u.toNat < 0x110000 := by
      simp only [isSurrogate, isHigh, isLow, Bool.or_eq_true, decide_eq_true_eq] at h
      omega
    rw [charUnits, toNat_ofNat_char hrange, if_pos (by omega)]
    simp

theorem charUnits_pair {u v : UInt16} (hu : isHigh u = true) (hv : isLow v = true) :
    charUnits (pair u v) = [u, v] := by
  simp only [isHigh, isLow, decide_eq_true_eq] at hu hv
  have hval : (pair u v).toNat = 0x10000 + (u.toNat - 0xd800) * 0x400 + (v.toNat - 0xdc00) := by
    rw [pair]
    exact toNat_ofNat_char (by omega)
  have hhigh : 0xd800 + (0x10000 + (u.toNat - 0xd800) * 0x400 + (v.toNat - 0xdc00) - 0x10000) /
      0x400 = u.toNat := by omega
  have hlow : 0xdc00 + (0x10000 + (u.toNat - 0xd800) * 0x400 + (v.toNat - 0xdc00) - 0x10000) %
      0x400 = v.toNat := by omega
  rw [charUnits, hval, if_neg (by omega), hhigh, hlow]
  simp

/-- A unit that is no surrogate is a character. -/
theorem scalars_cons {u : UInt16} (h : isSurrogate u = false) (rest : List UInt16) :
    scalars (u :: rest) = scalar u :: scalars rest := by
  cases rest with
  | nil => rfl
  | cons v rest =>
      have hhigh : isHigh u = false := (Bool.or_eq_false_iff.mp h).1
      rw [scalars, hhigh]
      simp

theorem scalars_pair {u v : UInt16} (hu : isHigh u = true) (hv : isLow v = true)
    (rest : List UInt16) : scalars (u :: v :: rest) = pair u v :: scalars rest := by
  rw [scalars, hu, hv]
  simp

/-- **Characters come back from their code units.** -/
@[simp] theorem scalars_units (cs : List Char) : scalars (units cs) = cs := by
  induction cs with
  | nil => rfl
  | cons c cs ih =>
      have hvalid := toNat_valid c
      rw [units_cons, charUnits]
      by_cases hsmall : c.toNat < 0x10000
      · have hval : (UInt16.ofNat c.toNat).toNat = c.toNat := UInt16.toNat_ofNat_of_lt' hsmall
        have hplain : isSurrogate (UInt16.ofNat c.toNat) = false := by
          simp only [isSurrogate, isHigh, isLow, hval, Bool.or_eq_false_iff, decide_eq_false_iff_not]
          omega
        rw [if_pos hsmall, List.singleton_append, scalars_cons hplain, ih, scalar,
          if_neg (by simp [hplain]), hval, Char.ofNat_toNat]
      · have hhighval : (UInt16.ofNat (0xd800 + (c.toNat - 0x10000) / 0x400)).toNat =
            0xd800 + (c.toNat - 0x10000) / 0x400 := UInt16.toNat_ofNat_of_lt' (by
              show _ < 65536
              omega)
        have hlowval : (UInt16.ofNat (0xdc00 + (c.toNat - 0x10000) % 0x400)).toNat =
            0xdc00 + (c.toNat - 0x10000) % 0x400 := UInt16.toNat_ofNat_of_lt' (by
              show _ < 65536
              omega)
        have hhigh : isHigh (UInt16.ofNat (0xd800 + (c.toNat - 0x10000) / 0x400)) = true := by
          simp only [isHigh, hhighval, decide_eq_true_eq]
          omega
        have hlow : isLow (UInt16.ofNat (0xdc00 + (c.toNat - 0x10000) % 0x400)) = true := by
          simp only [isLow, hlowval, decide_eq_true_eq]
          omega
        rw [if_neg hsmall, List.cons_append, List.singleton_append, scalars_pair hhigh hlow, ih,
          pair, hhighval, hlowval]
        have hback : 0x10000 + (0xd800 + (c.toNat - 0x10000) / 0x400 - 0xd800) * 0x400 +
            (0xdc00 + (c.toNat - 0x10000) % 0x400 - 0xdc00) = c.toNat := by omega
        rw [hback, Char.ofNat_toNat]

@[simp] theorem toWellFormed_units (cs : List Char) : toWellFormed (units cs) = units cs := by
  rw [toWellFormed, scalars_units]

/-- What stands for a unit that is in no pair. -/
def repaired (u : UInt16) : UInt16 := if isSurrogate u then 0xfffd else u

theorem toWellFormed_singleton (u : UInt16) : toWellFormed [u] = [repaired u] := by
  simp [toWellFormed, scalars, charUnits_scalar, repaired]

theorem toWellFormed_pair {u v : UInt16} (h : (isHigh u && isLow v) = true) (rest : List UInt16) :
    toWellFormed (u :: v :: rest) = u :: v :: toWellFormed rest := by
  obtain ⟨hu, hv⟩ := Bool.and_eq_true_iff.mp h
  rw [toWellFormed, scalars_pair hu hv, units_cons, charUnits_pair hu hv]
  rfl

theorem toWellFormed_cons {u v : UInt16} (h : ¬(isHigh u && isLow v) = true)
    (rest : List UInt16) :
    toWellFormed (u :: v :: rest) = repaired u :: toWellFormed (v :: rest) := by
  rw [toWellFormed, scalars, if_neg h, units_cons, charUnits_scalar]
  rfl

/-- A well-formed string stays as it is. -/
theorem toWellFormed_eq {s : List UInt16} (h : isWellFormed s = true) : toWellFormed s = s := by
  induction s using scalars.induct with
  | case1 => rfl
  | case2 u =>
      have hu : isSurrogate u = false := by simpa [isWellFormed] using h
      simp [toWellFormed_singleton, repaired, hu]
  | case3 u v rest hpair ih =>
      rw [isWellFormed, if_pos hpair] at h
      rw [toWellFormed_pair hpair, ih h]
  | case4 u v rest hpair ih =>
      rw [isWellFormed, if_neg hpair, Bool.and_eq_true_iff] at h
      have hu : isSurrogate u = false := by simpa using h.1
      rw [toWellFormed_cons hpair, ih h.2]
      simp [repaired, hu]

/-- How many surrogates a string has. -/
def surrogates (s : List UInt16) : Nat := s.countP isSurrogate

theorem isSurrogate_repaired (u : UInt16) : isSurrogate (repaired u) = false := by
  rw [repaired]
  cases hu : isSurrogate u with
  | false => simpa using hu
  | true =>
      rw [if_pos rfl]
      decide

theorem length_toWellFormed (s : List UInt16) : (toWellFormed s).length = s.length := by
  induction s using scalars.induct with
  | case1 => rfl
  | case2 u => rw [toWellFormed_singleton, List.length_singleton, List.length_singleton]
  | case3 u v rest hpair ih =>
      rw [toWellFormed_pair hpair, List.length_cons, List.length_cons, ih]
      rfl
  | case4 u v rest hpair ih =>
      rw [toWellFormed_cons hpair, List.length_cons, ih]
      rfl

/-- Repairing leaves the surrogates that stand in pairs. -/
theorem surrogates_toWellFormed_le (s : List UInt16) :
    surrogates (toWellFormed s) ≤ surrogates s := by
  induction s using scalars.induct with
  | case1 => exact Nat.le_refl _
  | case2 u => simp [toWellFormed_singleton, surrogates, isSurrogate_repaired]
  | case3 u v rest hpair ih =>
      rw [toWellFormed_pair hpair]
      simp only [surrogates, List.countP_cons] at ih ⊢
      omega
  | case4 u v rest hpair ih =>
      rw [toWellFormed_cons hpair]
      simp only [surrogates] at ih ⊢
      rw [List.countP_cons_of_neg (by simp [isSurrogate_repaired]), List.countP_cons]
      exact Nat.le_add_right_of_le ih

/-- **Repairing costs a surrogate**, unless nothing is to be repaired. -/
theorem surrogates_toWellFormed_lt {s : List UInt16} (h : isWellFormed s = false) :
    surrogates (toWellFormed s) < surrogates s := by
  induction s using scalars.induct with
  | case1 => cases h
  | case2 u =>
      have hu : isSurrogate u = true := by simpa [isWellFormed] using h
      simp [toWellFormed_singleton, surrogates, isSurrogate_repaired, hu]
  | case3 u v rest hpair ih =>
      rw [isWellFormed, if_pos hpair] at h
      have hrest := ih h
      rw [toWellFormed_pair hpair]
      simp only [surrogates, List.countP_cons] at hrest ⊢
      omega
  | case4 u v rest hpair ih =>
      have hle := surrogates_toWellFormed_le (v :: rest)
      rw [isWellFormed, if_neg hpair] at h
      rw [toWellFormed_cons hpair]
      simp only [surrogates] at ih hle ⊢
      rw [List.countP_cons_of_neg (by simp [isSurrogate_repaired]),
        List.countP_cons (l := v :: rest)]
      cases hu : isSurrogate u with
      | false =>
          have hrest : isWellFormed (v :: rest) = false := by simpa [hu] using h
          simpa [hu] using ih hrest
      | true => exact Nat.lt_succ_of_le hle

/-! ## The byte order mark -/

def mark : Char := '\uFEFF'

/-- The bytes of the mark. -/
def markBytes : List UInt8 := [0xef, 0xbb, 0xbf]

theorem utf8EncodeChar_mark : String.utf8EncodeChar mark = markBytes := by decide

def dropMark : List Char → List Char
  | [] => []
  | c :: cs => if c = mark then cs else c :: cs

/-- The same on code units. -/
def dropMarkUnit : List UInt16 → List UInt16
  | [] => []
  | u :: s => if u = 0xfeff then s else u :: s

theorem units_dropMark (cs : List Char) : units (dropMark cs) = dropMarkUnit (units cs) := by
  cases cs with
  | nil => rfl
  | cons c cs =>
      by_cases hc : c = mark
      · subst hc
        rfl
      · rw [dropMark, if_neg hc, units_cons]
        have hne : c.toNat ≠ 0xfeff := fun h => hc (Char.toNat_inj.mp (h.trans rfl))
        by_cases hsmall : c.toNat < 0x10000
        · have hval : (UInt16.ofNat c.toNat).toNat = c.toNat := UInt16.toNat_ofNat_of_lt' hsmall
          have hunit : UInt16.ofNat c.toNat ≠ 0xfeff := fun h => hne (hval.symm.trans (by rw [h]; rfl))
          rw [charUnits, if_pos hsmall, List.singleton_append, dropMarkUnit, if_neg hunit]
        · have hvalid := toNat_valid c
          have hval : (UInt16.ofNat (0xd800 + (c.toNat - 0x10000) / 0x400)).toNat =
              0xd800 + (c.toNat - 0x10000) / 0x400 := UInt16.toNat_ofNat_of_lt' (by
                show _ < 65536
                omega)
          have hunit : UInt16.ofNat (0xd800 + (c.toNat - 0x10000) / 0x400) ≠ 0xfeff := by
            intro h
            have hfeff : 0xd800 + (c.toNat - 0x10000) / 0x400 = 0xfeff := by
              rw [← hval, h]
              rfl
            omega
          rw [charUnits, if_neg hsmall, List.cons_append, dropMarkUnit, if_neg hunit]

/-! ## Encoding and decoding -/

/-- The bytes of a string. -/
def textEncode (s : List UInt16) : List UInt8 := utf8 (scalars s)

/-- The string of some bytes, without a mark at the front; `none` when
they are no UTF-8. -/
def textDecode (bytes : List UInt8) : Option (List UInt16) :=
  (utf8Decode? bytes).map fun cs => units (dropMark cs)

/-- What comes back when a string is encoded and decoded. -/
def reread (s : List UInt16) : List UInt16 := dropMarkUnit (toWellFormed s)

theorem textDecode_textEncode (s : List UInt16) : textDecode (textEncode s) = some (reread s) := by
  rw [textDecode, textEncode, utf8Decode?_utf8, Option.map_some, units_dropMark]
  rfl

/-- No lone surrogate, and no mark at the front. -/
def Faithful (s : List UInt16) : Prop := isWellFormed s = true ∧ s.head? ≠ some 0xfeff

instance (s : List UInt16) : Decidable (Faithful s) := inferInstanceAs (Decidable (_ ∧ _))

theorem dropMarkUnit_eq {s : List UInt16} (h : s.head? ≠ some 0xfeff) : dropMarkUnit s = s := by
  cases s with
  | nil => rfl
  | cons u s =>
      rw [dropMarkUnit, if_neg]
      rintro rfl
      exact h rfl

/-- **A faithful string comes back.** -/
theorem reread_eq {s : List UInt16} (h : Faithful s) : reread s = s := by
  rw [reread, toWellFormed_eq h.1, dropMarkUnit_eq h.2]

/-- Length and surrogates together. -/
def weight (s : List UInt16) : Nat := s.length + surrogates s

theorem weight_dropMarkUnit_le (s : List UInt16) : weight (dropMarkUnit s) ≤ weight s := by
  cases s with
  | nil => exact Nat.le_refl _
  | cons u s =>
      rw [dropMarkUnit]
      split
      · simp only [weight, surrogates, List.length_cons, List.countP_cons]
        omega
      · exact Nat.le_refl _

/-- **A string that does not come back gets lighter.** -/
theorem weight_reread_lt {s : List UInt16} (h : reread s ≠ s) : weight (reread s) < weight s := by
  cases hform : isWellFormed s with
  | false =>
      have hlt := surrogates_toWellFormed_lt hform
      have hle := weight_dropMarkUnit_le (toWellFormed s)
      have hlen := length_toWellFormed s
      simp only [weight] at hle ⊢
      rw [reread]
      omega
  | true =>
      rw [reread, toWellFormed_eq hform] at h ⊢
      cases s with
      | nil => exact absurd rfl h
      | cons u s =>
          rw [dropMarkUnit] at h ⊢
          split
          · simp only [weight, surrogates, List.length_cons, List.countP_cons]
            omega
          · rename_i hu
            rw [if_neg hu] at h
            exact absurd rfl h

/-- Only faithful strings come back. -/
theorem reread_eq_iff {s : List UInt16} : reread s = s ↔ Faithful s := by
  constructor
  · intro h
    have hform : isWellFormed s = true := by
      by_contra hform
      have hlt := surrogates_toWellFormed_lt (Bool.eq_false_iff.mpr hform)
      have hlen := length_toWellFormed s
      have hle := weight_dropMarkUnit_le (toWellFormed s)
      rw [← reread, h] at hle
      simp only [weight] at hle
      omega
    refine ⟨hform, ?_⟩
    intro hmark
    rw [reread, toWellFormed_eq hform] at h
    cases s with
    | nil => cases hmark
    | cons u s =>
        obtain rfl := Option.some.inj hmark
        rw [dropMarkUnit, if_pos rfl] at h
        have := congrArg List.length h
        simp at this
  · exact reread_eq

/-- **Bytes come back** from the string they decode to unless they begin
with the mark. -/
theorem textEncode_eq_iff {bytes : List UInt8} {s : List UInt16} (h : textDecode bytes = some s) :
    textEncode s = bytes ↔ bytes.take 3 ≠ markBytes := by
  obtain ⟨cs, hcs, rfl⟩ := Option.map_eq_some_iff.mp h
  obtain rfl := utf8Decode?_eq_some_iff.mp hcs
  rw [textEncode, scalars_units]
  cases cs with
  | nil => exact iff_of_true rfl (by decide)
  | cons c cs =>
      by_cases hc : c = mark
      · subst hc
        rw [dropMark, if_pos rfl]
        refine iff_of_false ?_ (not_not.mpr ?_)
        · intro hsame
          have := congrArg List.length (utf8_injective hsame)
          simp at this
        · rw [utf8_cons, utf8EncodeChar_mark]
          rfl
      · rw [dropMark, if_neg hc]
        refine iff_of_true rfl ?_
        intro htake
        have hsplit : String.utf8EncodeChar mark ++ (utf8 (c :: cs)).drop 3 = utf8 (c :: cs) := by
          rw [utf8EncodeChar_mark, ← htake, List.take_append_drop]
        obtain ⟨ds, hds⟩ := head_of_prefix hsplit
        exact hc (List.cons.inj hds).1

end Basis.Unicode
