/-!
# Hex — bytes written as hexadecimal text

`encode` writes two lowercase digits for each byte; `decode` reads digits
of either case and refuses anything else. A text that decodes is made of
hex digits only, so a reader laxer than `decode` has no room to differ on
it (`decode_induction` is how such a fact is proved).

Digits are recognised by their code, so that the same test serves
characters, UTF-8 bytes and UTF-16 code units.
-/

namespace Basis.Hex

/-- The value of a hex digit of either case, by its code. -/
def digitVal? (code : Nat) : Option Nat :=
  if 48 ≤ code ∧ code ≤ 57 then some (code - 48)
  else if 97 ≤ code ∧ code ≤ 102 then some (code - 87)
  else if 65 ≤ code ∧ code ≤ 70 then some (code - 55)
  else none

/-- A digit, or a lowercase letter up to `f`. -/
def isLowerDigit (c : Char) : Bool :=
  decide (48 ≤ c.toNat ∧ c.toNat ≤ 57 ∨ 97 ≤ c.toNat ∧ c.toNat ≤ 102)

/-- The lowercase digit of a value below 16. -/
def digit (v : Nat) : Char :=
  if v < 10 then Char.ofNat (48 + v) else Char.ofNat (87 + v)

/-- Two digits for each byte. -/
def encodeChars : List UInt8 → List Char
  | [] => []
  | b :: bs => digit (b.toNat / 16) :: digit (b.toNat % 16) :: encodeChars bs

/-- The lowercase hex text of some bytes. -/
def encode (bytes : List UInt8) : String := String.ofList (encodeChars bytes)

/-- Read two digits a byte; an odd length or another character refuses
the whole text. -/
def decodeChars : List Char → Option (List UInt8)
  | [] => some []
  | [_] => none
  | c :: d :: rest =>
      match digitVal? c.toNat, digitVal? d.toNat, decodeChars rest with
      | some hi, some lo, some bytes => some (UInt8.ofNat (16 * hi + lo) :: bytes)
      | _, _, _ => none

/-- The bytes of a hex text. -/
def decode (s : String) : Option (List UInt8) := decodeChars s.toList

/-! ## Digits -/

theorem digitVal?_lt {code v : Nat} (h : digitVal? code = some v) : v < 16 := by
  simp only [digitVal?] at h
  split at h
  · cases h; omega
  · split at h
    · cases h; omega
    · split at h
      · cases h; omega
      · cases h

/-- Hex digits are ASCII. -/
theorem code_lt_of_digitVal? {code v : Nat} (h : digitVal? code = some v) : code < 128 := by
  simp only [digitVal?] at h
  split at h
  · omega
  · split at h
    · omega
    · split at h
      · omega
      · cases h

theorem digitVal?_digit : ∀ v < 16, digitVal? (digit v).toNat = some v := by decide

theorem isLowerDigit_digit : ∀ v < 16, isLowerDigit (digit v) = true := by decide

/-- A lowercase digit is the one its value is written with. -/
theorem digit_of_digitVal? {c : Char} {v : Nat} (hlower : isLowerDigit c = true)
    (h : digitVal? c.toNat = some v) : digit v = c := by
  have hrange := of_decide_eq_true hlower
  simp only [digitVal?] at h
  split at h
  · cases h
    rw [digit, if_pos (by omega), show 48 + (c.toNat - 48) = c.toNat by omega, Char.ofNat_toNat]
  · split at h
    · cases h
      rw [digit, if_neg (by omega), show 87 + (c.toNat - 87) = c.toNat by omega,
        Char.ofNat_toNat]
    · omega

theorem digitVal?_isSome {c : Char} (hlower : isLowerDigit c = true) :
    ∃ v, digitVal? c.toNat = some v := by
  rcases of_decide_eq_true hlower with hnum | hletter
  · exact ⟨_, if_pos hnum⟩
  · refine ⟨c.toNat - 87, ?_⟩
    rw [digitVal?, if_neg (by omega), if_pos hletter]

/-! ## Texts -/

/-- What a text that decodes looks like: two digits in front of a text
that decodes. -/
theorem decodeChars_cons {cs : List Char} {b : UInt8} {bytes : List UInt8}
    (h : decodeChars cs = some (b :: bytes)) :
    ∃ c d rest hi lo, cs = c :: d :: rest ∧ digitVal? c.toNat = some hi ∧
      digitVal? d.toNat = some lo ∧ b = UInt8.ofNat (16 * hi + lo) ∧
      decodeChars rest = some bytes := by
  cases cs with
  | nil => simp [decodeChars] at h
  | cons c cs =>
    cases cs with
    | nil => simp [decodeChars] at h
    | cons d rest =>
      simp only [decodeChars] at h
      split at h
      · rename_i hi lo bytes' hc hd hrest
        cases h
        exact ⟨c, d, rest, hi, lo, rfl, hc, hd, rfl, hrest⟩
      · cases h

theorem decodeChars_nil {cs : List Char} (h : decodeChars cs = some []) : cs = [] := by
  cases cs with
  | nil => rfl
  | cons c cs =>
    cases cs with
    | nil => simp [decodeChars] at h
    | cons d rest =>
      simp only [decodeChars] at h
      split at h
      · cases h
      · cases h

/-- **The induction rule for texts that decode**, along the bytes they
decode to. -/
theorem decode_induction {P : List Char → List UInt8 → Prop} (hnil : P [] [])
    (hcons : ∀ {c d : Char} {rest : List Char} {hi lo : Nat} {bytes : List UInt8},
      digitVal? c.toNat = some hi → digitVal? d.toNat = some lo → P rest bytes →
      P (c :: d :: rest) (UInt8.ofNat (16 * hi + lo) :: bytes))
    {cs : List Char} {bytes : List UInt8} (h : decodeChars cs = some bytes) : P cs bytes := by
  induction bytes generalizing cs with
  | nil =>
      rw [decodeChars_nil h]
      exact hnil
  | cons b bytes ih =>
      obtain ⟨c, d, rest, hi, lo, rfl, hc, hd, rfl, hrest⟩ := decodeChars_cons h
      exact hcons hc hd (ih hrest)

theorem length_encodeChars (bytes : List UInt8) :
    (encodeChars bytes).length = 2 * bytes.length := by
  induction bytes with
  | nil => rfl
  | cons b bytes ih =>
      simp only [encodeChars, List.length_cons]
      omega

/-- What is written is lowercase. -/
theorem isLowerDigit_encodeChars (bytes : List UInt8) :
    ∀ c ∈ encodeChars bytes, isLowerDigit c = true := by
  induction bytes with
  | nil =>
      intro c hc
      cases hc
  | cons b bytes ih =>
      have hb := b.toNat_lt
      intro c hc
      rcases List.mem_cons.mp hc with rfl | hc
      · exact isLowerDigit_digit _ (by omega)
      · rcases List.mem_cons.mp hc with rfl | hc
        · exact isLowerDigit_digit _ (by omega)
        · exact ih c hc

/-- **Round trip**: what was written reads back. -/
@[simp] theorem decode_encode (bytes : List UInt8) : decode (encode bytes) = some bytes := by
  have hchars : ∀ bytes, decodeChars (encodeChars bytes) = some bytes := by
    intro bytes
    induction bytes with
    | nil => rfl
    | cons b bytes ih =>
        have hb := b.toNat_lt
        have hhi := digitVal?_digit (b.toNat / 16) (by omega)
        have hlo := digitVal?_digit (b.toNat % 16) (by omega)
        have hval : 16 * (b.toNat / 16) + b.toNat % 16 = b.toNat := Nat.div_add_mod _ _
        simp [encodeChars, decodeChars, hhi, hlo, ih, hval]
  simpa [decode, encode] using hchars bytes

/-- Only no bytes are written as the empty text. -/
theorem encode_eq_empty_iff {bytes : List UInt8} : encode bytes = "" ↔ bytes = [] := by
  constructor
  · intro h
    have hlen := length_encodeChars bytes
    have hnil : encodeChars bytes = [] := by
      have := congrArg String.toList h
      simpa [encode] using this
    rw [hnil, List.length_nil] at hlen
    exact List.length_eq_zero_iff.mp (by omega)
  · intro heq
    subst heq
    rfl

/-- An even number of digits decodes. -/
theorem decodeChars_isSome : ∀ {cs : List Char}, cs.length % 2 = 0 →
    (∀ c ∈ cs, ∃ v, digitVal? c.toNat = some v) → ∃ bytes, decodeChars cs = some bytes
  | [], _, _ => ⟨[], rfl⟩
  | [_], heven, _ => by simp at heven
  | c :: d :: rest, heven, hdigits => by
      simp only [List.forall_mem_cons] at hdigits
      obtain ⟨⟨hi, hc⟩, ⟨lo, hd⟩, hrest⟩ := hdigits
      obtain ⟨bytes, hrest⟩ :=
        decodeChars_isSome (by simp only [List.length_cons] at heven; omega) hrest
      exact ⟨_, by rw [decodeChars, hc, hd, hrest]⟩

/-- A text that decodes is digits, two for each byte. -/
theorem digits_of_decodeChars {cs : List Char} {bytes : List UInt8}
    (h : decodeChars cs = some bytes) :
    cs.length = 2 * bytes.length ∧ ∀ c ∈ cs, ∃ v, digitVal? c.toNat = some v := by
  refine decode_induction (P := fun cs bytes => cs.length = 2 * bytes.length ∧
    ∀ c ∈ cs, ∃ v, digitVal? c.toNat = some v) ⟨rfl, by simp⟩ ?_ h
  intro c d rest hi lo bytes hc hd ih
  simp only [List.forall_mem_cons, List.length_cons]
  exact ⟨by omega, ⟨hi, hc⟩, ⟨lo, hd⟩, ih.2⟩

/-- A text that decodes is ASCII, two characters a byte. -/
theorem ascii_of_decodeChars {cs : List Char} {bytes : List UInt8}
    (h : decodeChars cs = some bytes) :
    cs.length = 2 * bytes.length ∧ ∀ c ∈ cs, c.toNat < 128 := by
  obtain ⟨hlen, hdigits⟩ := digits_of_decodeChars h
  refine ⟨hlen, ?_⟩
  intro c hc
  obtain ⟨v, hv⟩ := hdigits c hc
  exact code_lt_of_digitVal? hv

/-- A lowercase text is the one its bytes are written as. -/
theorem encodeChars_of_decodeChars {cs : List Char} {bytes : List UInt8}
    (h : decodeChars cs = some bytes) (hlower : ∀ c ∈ cs, isLowerDigit c = true) :
    encodeChars bytes = cs := by
  revert hlower
  refine decode_induction
    (P := fun cs bytes => (∀ c ∈ cs, isLowerDigit c = true) → encodeChars bytes = cs)
    (fun _ => rfl) ?_ h
  intro c d rest hi lo bytes hc hd ih hlower
  simp only [List.forall_mem_cons] at hlower
  have hhi := digitVal?_lt hc
  have hlo := digitVal?_lt hd
  have hval : (UInt8.ofNat (16 * hi + lo)).toNat = 16 * hi + lo := by
    rw [UInt8.toNat_ofNat']
    omega
  rw [encodeChars, hval, ih hlower.2.2, show (16 * hi + lo) / 16 = hi by omega,
    show (16 * hi + lo) % 16 = lo by omega, digit_of_digitVal? hlower.1 hc,
    digit_of_digitVal? hlower.2.1 hd]

/-! ## Sizes -/

/-- ASCII takes a byte a character. -/
theorem utf8ByteSize_ofList {cs : List Char} (h : ∀ c ∈ cs, c.toNat < 128) :
    (String.ofList cs).utf8ByteSize = cs.length := by
  induction cs with
  | nil => rfl
  | cons c cs ih =>
      obtain ⟨hc, hcs⟩ := List.forall_mem_cons.mp h
      have hone : c.utf8Size = 1 := by
        have hval : c.val ≤ 0x7F := UInt32.le_iff_toNat_le.mpr (show c.toNat ≤ 127 by omega)
        simp [Char.utf8Size, hval]
      rw [String.ofList_cons, String.utf8ByteSize_append, String.utf8ByteSize_singleton, ih hcs,
        hone, List.length_cons, Nat.add_comm]

theorem utf8ByteSize_of_decode {s : String} {bytes : List UInt8} (h : decode s = some bytes) :
    s.utf8ByteSize = 2 * bytes.length := by
  obtain ⟨hlen, hascii⟩ := ascii_of_decodeChars h
  rw [← hlen, ← utf8ByteSize_ofList hascii, String.ofList_toList]

end Basis.Hex
