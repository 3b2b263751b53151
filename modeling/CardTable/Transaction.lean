import CardTable.Basis.Bytes
import CardTable.Basis.Stream
import CardTable.Basis.Walk

/-!
# Transaction — the format of a transaction

The record both languages have (`packages/tx-builder/src/types.ts`,
`apps/relay-go/pkg/txbuilder/types.go`), with the integers at the widths
of the format, and the format itself: the canonical bytes of a
transaction, and the walk over a text that reads one. `Ts.TxBuilder` and
`Go.TxBuilder` are the code; here nothing overflows, rounds or panics.

The walk notes every length the text gives, with its bytes and the
position behind them.
-/

namespace CardTable.Tx

open Basis

structure TxInput where
  prevTxid : List UInt8
  prevVout : UInt32
  unlockingScript : List UInt8
  sequence : UInt32
  deriving DecidableEq, Repr

structure TxOutput where
  value : UInt64
  lockingScript : List UInt8
  deriving DecidableEq, Repr

structure BsvTransaction where
  version : Int32
  inputs : List TxInput
  outputs : List TxOutput
  lockTime : UInt32
  deriving DecidableEq, Repr

/-- Double SHA-256. -/
def sha256d (b : List UInt8) : List UInt8 := Sha256.sha256 (Sha256.sha256 b)

/-! ## Canonical bytes -/

/-- A length, in the shortest of four forms. -/
def varintBytes (n : Nat) : List UInt8 :=
  if n < 0xfd then [UInt8.ofNat n]
  else if n ≤ 0xffff then 0xfd :: putUintLE n 2
  else if n ≤ 0xffffffff then 0xfe :: putUintLE n 4
  else 0xff :: putUintLE n 8

def scriptBytes (script : List UInt8) : List UInt8 := varintBytes script.length ++ script

def inputBytes (i : TxInput) : List UInt8 :=
  i.prevTxid ++ (putUintLE i.prevVout.toNat 4 ++
    (scriptBytes i.unlockingScript ++ putUintLE i.sequence.toNat 4))

def outputBytes (o : TxOutput) : List UInt8 :=
  putUintLE o.value.toNat 8 ++ scriptBytes o.lockingScript

def txBytes (tx : BsvTransaction) : List UInt8 :=
  putUintLE tx.version.toUInt32.toNat 4 ++
    (varintBytes tx.inputs.length ++ (tx.inputs.flatMap inputBytes ++
      (varintBytes tx.outputs.length ++ (tx.outputs.flatMap outputBytes ++
        putUintLE tx.lockTime.toNat 4))))

/-- A transaction with hashes of 32 bytes, no length of it beyond `n`. -/
structure Bounded (n : Nat) (tx : BsvTransaction) : Prop where
  prevTxids : ∀ i ∈ tx.inputs, i.prevTxid.length = 32
  inputs : tx.inputs.length ≤ n
  unlocking : ∀ i ∈ tx.inputs, i.unlockingScript.length ≤ n
  outputs : tx.outputs.length ≤ n
  locking : ∀ o ∈ tx.outputs, o.lockingScript.length ≤ n

/-- No length of a transaction is beyond the length of its bytes. -/
theorem bounded_txBytes {tx : BsvTransaction} (h : ∀ i ∈ tx.inputs, i.prevTxid.length = 32) :
    Bounded (txBytes tx).length tx := by
  have hinputs : (tx.inputs.flatMap inputBytes).length ≤ (txBytes tx).length := by
    simp only [txBytes, List.length_append]
    omega
  have houtputs : (tx.outputs.flatMap outputBytes).length ≤ (txBytes tx).length := by
    simp only [txBytes, List.length_append]
    omega
  have hpart : ∀ {α : Type} (code : α → List UInt8) (as : List α), ∀ a ∈ as,
      (code a).length ≤ (as.flatMap code).length := by
    intro α code as a ha
    rw [List.flatMap_def]
    exact (List.sublist_flatten_of_mem (List.mem_map_of_mem ha)).length_le
  constructor
  case prevTxids => exact h
  case inputs =>
      refine Nat.le_trans (Reader.length_le_flatMap fun i hi => ?_) hinputs
      exact List.ne_nil_of_length_pos (by simp [inputBytes, h i hi])
  case unlocking =>
      intro i hi
      have := hpart inputBytes tx.inputs i hi
      simp only [inputBytes, scriptBytes, List.length_append] at this
      omega
  case outputs =>
      refine Nat.le_trans (Reader.length_le_flatMap fun o _ => ?_) houtputs
      exact List.ne_nil_of_length_pos (by simp [outputBytes])
  case locking =>
      intro o ho
      have := hpart outputBytes tx.outputs o ho
      simp only [outputBytes, scriptBytes, List.length_append] at this
      omega

/-! ## The walk -/

/-- Where a length stands. -/
inductive Site where
  | inputCount
  | script
  | outputCount
  deriving DecidableEq, Repr

/-- A length of a text: its bytes, what they say, and where they end. -/
structure LengthField where
  site : Site
  raw : List UInt8
  value : Nat
  position : Nat
  deriving DecidableEq, Repr

/-- How many bytes follow the first of a varint. -/
def varintWidth (first : UInt8) : Nat :=
  if first < 0xfd then 0
  else if first = 0xfd then 2
  else if first = 0xfe then 4
  else 8

def varintValue : List UInt8 → Nat
  | [] => 0
  | [first] => first.toNat
  | _ :: more => uintLE more

section Format

variable (text : List UInt8)

/-- The bytes of a varint. -/
def varint : Walk LengthField (List UInt8) := do
  let first ← Walk.take text 1
  let more ← Walk.take text (varintWidth (first.getD 0 0))
  pure (first ++ more)

/-- A length, noted. -/
def lengthField (site : Site) : Walk LengthField Nat := do
  let raw ← varint text
  let p ← Walk.position
  Walk.note ⟨site, raw, varintValue raw, p⟩
  pure (varintValue raw)

def u32 : Walk LengthField UInt32 := do
  let w ← Walk.take text 4
  pure (UInt32.ofNat (uintLE w))

def i32 : Walk LengthField Int32 := do
  let v ← u32 text
  pure v.toInt32

def u64 : Walk LengthField UInt64 := do
  let w ← Walk.take text 8
  pure (UInt64.ofNat (uintLE w))

def script : Walk LengthField (List UInt8) := do
  let n ← lengthField text .script
  Walk.take text n

def input : Walk LengthField TxInput := do
  let prevTxid ← Walk.take text 32
  let prevVout ← u32 text
  let unlockingScript ← script text
  let sequence ← u32 text
  pure ⟨prevTxid, prevVout, unlockingScript, sequence⟩

def output : Walk LengthField TxOutput := do
  let value ← u64 text
  let lockingScript ← script text
  pure ⟨value, lockingScript⟩

def transaction : Walk LengthField BsvTransaction := do
  let version ← i32 text
  let inputs ← lengthField text .inputCount >>= Walk.times (input text)
  let outputs ← lengthField text .outputCount >>= Walk.times (output text)
  let lockTime ← u32 text
  Walk.done text
  pure ⟨version, inputs, outputs, lockTime⟩

/-- The lengths in a text, as far as it goes. -/
def lengthFields : List LengthField := (transaction text 0).1

end Format

/-- The `switch` of `readVarint` on the first byte, in both languages. -/
def switchVarint {M : Type → Type} [Monad M] {δ : Type} (readU8 : M UInt8) (small : UInt8 → M δ)
    (two four eight : M δ) : M δ := do
  let first ← readU8
  if first < 0xfd then small first
  else if first = 0xfd then two
  else if first = 0xfe then four
  else eight

/-- Written in the shortest form. -/
def LengthField.Shortest (f : LengthField) : Prop := f.raw = varintBytes f.value

instance (f : LengthField) : Decidable f.Shortest :=
  inferInstanceAs (Decidable (f.raw = varintBytes f.value))

/-! ## What each step reads -/

variable {text : List UInt8} {p q : Nat} {notes : List LengthField} {P : LengthField → Prop}

open Walk (At Finds Restores bind_inv bind_some take_at take_inv)

theorem u32_inv {n : UInt32} (h : u32 text p = (notes, some (n, q))) :
    At text p (putUintLE n.toNat 4) ∧ q = p + 4 ∧ notes = [] := by
  obtain ⟨front, w, r, back, hw, hlast, rfl⟩ := bind_inv h
  cases hlast
  obtain ⟨hat, hlen, rfl, rfl⟩ := take_inv hw
  have hlt := uintLE_lt w
  rw [hlen] at hlt
  rw [UInt32.toNat_ofNat_of_lt' hlt, putUintLE_uintLE hlen]
  exact ⟨hat, rfl, rfl⟩

theorem i32_inv {n : Int32} (h : i32 text p = (notes, some (n, q))) :
    At text p (putUintLE n.toUInt32.toNat 4) ∧ q = p + 4 ∧ notes = [] := by
  obtain ⟨front, v, r, back, hv, hlast, rfl⟩ := bind_inv h
  cases hlast
  obtain ⟨hat, rfl, rfl⟩ := u32_inv hv
  exact ⟨hat, rfl, rfl⟩

theorem u64_inv {n : UInt64} (h : u64 text p = (notes, some (n, q))) :
    At text p (putUintLE n.toNat 8) ∧ q = p + 8 ∧ notes = [] := by
  obtain ⟨front, w, r, back, hw, hlast, rfl⟩ := bind_inv h
  cases hlast
  obtain ⟨hat, hlen, rfl, rfl⟩ := take_inv hw
  have hlt := uintLE_lt w
  rw [hlen] at hlt
  rw [UInt64.toNat_ofNat_of_lt' hlt, putUintLE_uintLE hlen]
  exact ⟨hat, rfl, rfl⟩

/-- A number in `k` bytes is found. -/
theorem finds_uint {α : Type} (n k : Nat) (f : Nat → α) (hn : n < 256 ^ k) :
    Finds text P (do let w ← Walk.take text k; pure (f (uintLE w))) (putUintLE n k) (f n) := by
  have htake : Finds text P (Walk.take text k) (putUintLE n k) (putUintLE n k) := by
    have h : Finds text P (Walk.take text (putUintLE n k).length) (putUintLE n k) (putUintLE n k) :=
      Finds.take text (putUintLE n k)
    rwa [length_putUintLE] at h
  have hmap := htake.map (f := fun w => f (uintLE w))
  rwa [uintLE_putUintLE, Nat.mod_eq_of_lt hn] at hmap

theorem finds_u32 (n : UInt32) : Finds text P (u32 text) (putUintLE n.toNat 4) n := by
  have h : Finds text P (u32 text) _ _ := finds_uint n.toNat 4 UInt32.ofNat n.toNat_lt
  rwa [UInt32.ofNat_toNat] at h

theorem finds_i32 (n : Int32) : Finds text P (i32 text) (putUintLE n.toUInt32.toNat 4) n := by
  have h := (show Finds text P (u32 text) _ n.toUInt32 from finds_u32 _).map (f := UInt32.toInt32)
  rwa [Int32.toInt32_toUInt32] at h

theorem finds_u64 (n : UInt64) : Finds text P (u64 text) (putUintLE n.toNat 8) n := by
  have h : Finds text P (u64 text) _ _ := finds_uint n.toNat 8 UInt64.ofNat n.toNat_lt
  rwa [UInt64.ofNat_toNat] at h

/-- The four forms: a first byte that tells the width of the rest. -/
theorem varintBytes_form {n : Nat} (h : n < 256 ^ 8) : ∃ first more,
    varintBytes n = [first] ++ more ∧ varintWidth first = more.length ∧
      varintValue ([first] ++ more) = n := by
  have hword : ∀ k, 0 < k → n < 256 ^ k → ∀ first : UInt8,
      varintValue ([first] ++ putUintLE n k) = n := by
    intro k hk hn first
    have hne : putUintLE n k ≠ [] := List.ne_nil_of_length_pos (by simpa using hk)
    obtain ⟨b, more, hmore⟩ := List.exists_cons_of_ne_nil hne
    rw [hmore]
    show uintLE (b :: more) = n
    rw [← hmore, uintLE_putUintLE, Nat.mod_eq_of_lt hn]
  unfold varintBytes
  by_cases h1 : n < 0xfd
  · have hval : (UInt8.ofNat n).toNat = n := UInt8.toNat_ofNat_of_lt' (show n < 256 by omega)
    refine ⟨UInt8.ofNat n, [], by rw [if_pos h1]; rfl, ?_, hval⟩
    rw [varintWidth, if_pos (UInt8.lt_iff_toNat_lt.mpr (by rw [hval]; exact h1))]
    rfl
  · rw [if_neg h1]
    by_cases h2 : n ≤ 0xffff
    · rw [if_pos h2]
      refine ⟨0xfd, putUintLE n 2, rfl, ?_, hword 2 (by decide) (by omega) _⟩
      rw [length_putUintLE]
      rfl
    · rw [if_neg h2]
      by_cases h3 : n ≤ 0xffffffff
      · rw [if_pos h3]
        refine ⟨0xfe, putUintLE n 4, rfl, ?_, hword 4 (by decide) (by omega) _⟩
        rw [length_putUintLE]
        rfl
      · rw [if_neg h3]
        refine ⟨0xff, putUintLE n 8, rfl, ?_, hword 8 (by decide) h _⟩
        rw [length_putUintLE]
        rfl

/-- Behind the first byte the number is read as it was written. -/
theorem varintValue_cons {first : UInt8} {more : List UInt8} (h : 0 < more.length) :
    varintValue (first :: more) = uintLE more := by
  cases more with
  | nil => cases h
  | cons b more => rfl

/-- A varint, by its first byte. -/
theorem varint_eq (text : List UInt8) (p : Nat) : varint text p = match text[p]? with
    | none => ([], none)
    | some first =>
        if p + 1 + varintWidth first ≤ text.length then
          ([], some (first :: (text.drop (p + 1)).take (varintWidth first),
            p + 1 + varintWidth first))
        else ([], none) := by
  by_cases hp : p < text.length
  · have hfirst : Walk.take text 1 p = (([] : List LengthField), some ([text[p]], p + 1)) := by
      rw [Walk.take, if_pos (by omega), List.drop_eq_getElem_cons hp]
      rfl
    rw [List.getElem?_eq_getElem hp]
    dsimp only
    split
    · rename_i hmore
      have hrest : Walk.take text (varintWidth text[p]) (p + 1) = (([] : List LengthField),
          some ((text.drop (p + 1)).take (varintWidth text[p]), p + 1 + varintWidth text[p])) :=
        if_pos hmore
      rw [varint, bind_some hfirst]
      show ([] ++ ((Walk.take text (varintWidth text[p]) >>= fun more =>
        pure ([text[p]] ++ more)) (p + 1)).1, ((Walk.take text (varintWidth text[p]) >>=
          fun more => pure ([text[p]] ++ more)) (p + 1)).2) = _
      rw [bind_some hrest]
      rfl
    · rename_i hmore
      exact Walk.bind_then hfirst (Walk.bind_none (if_neg hmore))
  · rw [List.getElem?_eq_none (by omega)]
    exact Walk.bind_none (if_neg (by omega))

section Switch

variable {κ ε δ : Type}

/-- Reading `k` bytes as a number that `g` makes of it, or stopping as
`fails` says. -/
def ReadsUint (text : List UInt8) (fails : ε ⊕ κ → Prop) (g : Nat → δ) (k : Nat)
    (d : StateT Nat (Outcome κ ε) δ) : Prop :=
  ∀ p ≤ text.length, if p + k ≤ text.length then
    d p = .ok (g (uintLE ((text.drop p).take k)), p + k)
  else ∃ s, (d p).stop? = some s ∧ fails s

/-- A number that is converted after it was read. -/
theorem ReadsUint.map {δ' : Type} {fails : ε ⊕ κ → Prop} {g : Nat → δ} {g' : Nat → δ'} {k : Nat}
    {d : StateT Nat (Outcome κ ε) δ} {f : δ → δ'} (h : ReadsUint text fails g k d)
    (hf : ∀ n < 256 ^ k, f (g n) = g' n) : ReadsUint text fails g' k (d >>= fun v => pure (f v)) := by
  intro p hp
  have hread := h p hp
  split
  · rename_i hle
    rw [if_pos hle] at hread
    have hlt := uintLE_lt ((text.drop p).take k)
    rw [List.length_take, List.length_drop, Nat.min_eq_left (by omega)] at hlt
    rw [← hf _ hlt]
    exact cursor_bind_ok hread
  · rename_i hgt
    rw [if_neg hgt] at hread
    obtain ⟨s, hstop, hfails⟩ := hread
    exact ⟨s, cursor_bind_stop hstop _, hfails⟩

/-- **The switch reads varints**, given what its parts read. -/
theorem switchVarint_eq {fails : ε ⊕ κ → Prop} {g : Nat → δ}
    {readU8 : StateT Nat (Outcome κ ε) UInt8} {small : UInt8 → StateT Nat (Outcome κ ε) δ}
    {two four eight : StateT Nat (Outcome κ ε) δ}
    (hfirst : ∀ p (hp : p < text.length), readU8 p = .ok (text[p], p + 1))
    (hlast : ∃ s, (readU8 text.length).stop? = some s ∧ fails s)
    (hsmall : ∀ b p, small b p = .ok (g b.toNat, p)) (htwo : ReadsUint text fails g 2 two)
    (hfour : ReadsUint text fails g 4 four) (height : ReadsUint text fails g 8 eight)
    {p : Nat} (hp : p ≤ text.length) :
    match (varint text p).2 with
    | some (raw, q) => switchVarint readU8 small two four eight p = .ok (g (varintValue raw), q)
    | none => ∃ s, (switchVarint readU8 small two four eight p).stop? = some s ∧ fails s := by
  rw [varint_eq]
  rcases Nat.lt_or_ge p text.length with hlt | hge
  · rw [List.getElem?_eq_getElem hlt]
    -- the branch taken, as a reader of the bytes behind the first
    have hbranch : ∀ d, ReadsUint text fails g (varintWidth text[p]) d →
        0 < varintWidth text[p] → switchVarint readU8 small two four eight p = d (p + 1) →
        match (if p + 1 + varintWidth text[p] ≤ text.length then
          ([], some (text[p] :: (text.drop (p + 1)).take (varintWidth text[p]),
            p + 1 + varintWidth text[p])) else (([] : List LengthField), none)).2 with
        | some (raw, q) => switchVarint readU8 small two four eight p = .ok (g (varintValue raw), q)
        | none => ∃ s, (switchVarint readU8 small two four eight p).stop? = some s ∧ fails s := by
      intro d hd hpos heq
      have hread := hd (p + 1) hlt
      rw [heq]
      split at hread
      · rename_i hle
        have hlen : ((text.drop (p + 1)).take (varintWidth text[p])).length =
            varintWidth text[p] := by
          rw [List.length_take, List.length_drop]
          omega
        rw [if_pos hle]
        dsimp only
        rw [varintValue_cons (by omega), hread]
      · rename_i hgt
        rw [if_neg hgt]
        exact hread
    have hswitch : switchVarint readU8 small two four eight p =
        (if text[p] < 0xfd then small text[p] else if text[p] = 0xfd then two
          else if text[p] = 0xfe then four else eight) (p + 1) := by
      rw [switchVarint, cursor_bind_ok (hfirst p hlt)]
    by_cases h1 : text[p] < 0xfd
    · have hwidth : varintWidth text[p] = 0 := by rw [varintWidth, if_pos h1]
      dsimp only
      rw [hwidth, if_pos (by omega), hswitch, if_pos h1, hsmall]
      rfl
    · rw [if_neg h1] at hswitch
      by_cases h2 : text[p] = 0xfd
      · have hwidth : varintWidth text[p] = 2 := by rw [varintWidth, if_neg h1, if_pos h2]
        rw [if_pos h2] at hswitch
        exact hbranch two (hwidth ▸ htwo) (by omega) hswitch
      · rw [if_neg h2] at hswitch
        by_cases h3 : text[p] = 0xfe
        · have hwidth : varintWidth text[p] = 4 := by
            rw [varintWidth, if_neg h1, if_neg h2, if_pos h3]
          rw [if_pos h3] at hswitch
          exact hbranch four (hwidth ▸ hfour) (by omega) hswitch
        · have hwidth : varintWidth text[p] = 8 := by
            rw [varintWidth, if_neg h1, if_neg h2, if_neg h3]
          rw [if_neg h3] at hswitch
          exact hbranch eight (hwidth ▸ height) (by omega) hswitch
  · obtain rfl : p = text.length := Nat.le_antisymm hp hge
    obtain ⟨s, hstop, hfails⟩ := hlast
    rw [List.getElem?_eq_none (Nat.le_refl _)]
    exact ⟨s, cursor_bind_stop hstop _, hfails⟩

end Switch

theorem varint_at {raw more : List UInt8} {first : UInt8} (hraw : raw = [first] ++ more)
    (hwidth : varintWidth first = more.length) (hat : At text p raw) :
    varint text p = ([], some (raw, p + raw.length)) := by
  subst hraw
  have hfirst : Walk.take text 1 p = (([] : List LengthField), some ([first], p + 1)) :=
    take_at hat.left
  have hmore : Walk.take text (varintWidth first) (p + 1) =
      (([] : List LengthField), some (more, p + 1 + more.length)) := by
    rw [hwidth]
    exact take_at hat.right
  rw [List.length_append, List.length_singleton, ← Nat.add_assoc]
  exact Walk.bind_then hfirst (Walk.bind_then hmore rfl)

/-- A varint says nothing of lengths. -/
theorem varint_notes {result : Option (List UInt8 × Nat)} (h : varint text p = (notes, result)) :
    notes = [] := by
  rw [varint_eq] at h
  split at h
  · cases h
    rfl
  · split at h <;> cases h <;> rfl

/-- What a varint says fits 64 bits. -/
theorem varintValue_lt {raw : List UInt8} (h : varint text p = (notes, some (raw, q))) :
    varintValue raw < 256 ^ 8 := by
  rw [varint_eq] at h
  split at h
  · cases h
  · split at h
    · cases h
      rename_i first _ _
      have hwidth : varintWidth first ≤ 8 := by
        unfold varintWidth
        split
        · omega
        · split
          · omega
          · split <;> omega
      have hlt := uintLE_lt ((text.drop (p + 1)).take (varintWidth first))
      have hpow : 256 ^ ((text.drop (p + 1)).take (varintWidth first)).length ≤ 256 ^ 8 :=
        Nat.pow_le_pow_right (by decide) (by rw [List.length_take]; omega)
      generalize (text.drop (p + 1)).take (varintWidth first) = more at hlt hpow
      cases more with
      | nil =>
          have := first.toNat_lt
          show first.toNat < _
          omega
      | cons b more => exact Nat.lt_of_lt_of_le hlt hpow
    · cases h

theorem varint_inv {raw : List UInt8} (h : varint text p = (notes, some (raw, q))) :
    At text p raw ∧ q = p + raw.length ∧ 0 < raw.length ∧ notes = [] := by
  obtain ⟨front, first, r, rest, hfirst, hrest, rfl⟩ := bind_inv h
  obtain ⟨mid, more, r', back, hmore, hlast, rfl⟩ := bind_inv hrest
  cases hlast
  obtain ⟨hat, hlen, rfl, rfl⟩ := take_inv hfirst
  obtain ⟨hat', hlen', rfl, rfl⟩ := take_inv hmore
  rw [← hlen] at hat'
  refine ⟨hat.append hat', ?_, ?_, rfl⟩
  · rw [List.length_append, hlen', hlen, Nat.add_assoc]
  · rw [List.length_append]
    omega

theorem lengthField_at {n : Nat} (site : Site) (hn : n < 256 ^ 8) (hat : At text p (varintBytes n)) :
    lengthField text site p =
      ([⟨site, varintBytes n, n, p + (varintBytes n).length⟩],
        some (n, p + (varintBytes n).length)) := by
  obtain ⟨first, more, hraw, hwidth, hvalue⟩ := varintBytes_form hn
  rw [← hraw] at hvalue
  have hfield := Walk.bind_then (k := fun raw => do
    let p ← Walk.position
    Walk.note ⟨site, raw, varintValue raw, p⟩
    pure (varintValue raw)) (varint_at hraw hwidth hat) rfl
  rwa [hvalue] at hfield

theorem lengthField_inv {site : Site} {n : Nat}
    (h : lengthField text site p = (notes, some (n, q))) :
    ∃ raw, At text p raw ∧ q = p + raw.length ∧ 0 < raw.length ∧
      notes = [⟨site, raw, n, q⟩] := by
  obtain ⟨front, raw, r, rest, hraw, hrest, rfl⟩ := bind_inv h
  cases hrest
  obtain ⟨hat, rfl, hpos, rfl⟩ := varint_inv hraw
  exact ⟨raw, hat, rfl, hpos, rfl⟩

/-! ## Scripts, inputs and outputs -/

/-- A script is found, with its length in the shortest form. -/
theorem finds_script {s : List UInt8} (hs : s.length < 256 ^ 8)
    (hP : ∀ r, r + s.length ≤ text.length → P ⟨.script, varintBytes s.length, s.length, r⟩) :
    Finds text P (script text) (scriptBytes s) s := by
  intro p hat
  have hle := hat.le
  rw [scriptBytes, List.length_append] at hle
  rw [script, bind_some (lengthField_at .script hs hat.left)]
  dsimp only
  rw [take_at hat.right]
  refine ⟨?_, ?_⟩
  · rw [scriptBytes, List.length_append, Nat.add_assoc]
  · intro x hx
    rw [List.append_nil, List.mem_singleton] at hx
    subst hx
    exact hP _ (by omega)

theorem script_inv {s : List UInt8} (h : script text p = (notes, some (s, q))) :
    ∃ raw r, notes = [⟨.script, raw, s.length, r⟩] ∧ At text p (raw ++ s) ∧
      q = p + (raw ++ s).length := by
  obtain ⟨front, n, r, back, hlen, htake, rfl⟩ := bind_inv h
  obtain ⟨raw, hat, rfl, -, rfl⟩ := lengthField_inv hlen
  obtain ⟨hat', rfl, rfl, rfl⟩ := take_inv htake
  exact ⟨raw, _, rfl, hat.append hat', by rw [List.length_append, Nat.add_assoc]⟩

theorem finds_input {i : TxInput} (htxid : i.prevTxid.length = 32)
    (hs : i.unlockingScript.length < 256 ^ 8)
    (hP : ∀ r, r + i.unlockingScript.length ≤ text.length →
      P ⟨.script, varintBytes i.unlockingScript.length, i.unlockingScript.length, r⟩) :
    Finds text P (input text) (inputBytes i) i := by
  have htake : Finds text P (Walk.take text 32) i.prevTxid i.prevTxid := by
    rw [← htxid]
    exact Finds.take text i.prevTxid
  exact htake.bind ((finds_u32 i.prevVout).bind ((finds_script hs hP).bind
    (finds_u32 i.sequence).map))

theorem finds_output {o : TxOutput} (hs : o.lockingScript.length < 256 ^ 8)
    (hP : ∀ r, r + o.lockingScript.length ≤ text.length →
      P ⟨.script, varintBytes o.lockingScript.length, o.lockingScript.length, r⟩) :
    Finds text P (output text) (outputBytes o) o :=
  (finds_u64 o.value).bind (finds_script hs hP).map

/-- What an input was read from: its canonical bytes, but for the length of
the script. -/
theorem input_inv {i : TxInput} (h : input text p = (notes, some (i, q))) :
    i.prevTxid.length = 32 ∧ ∃ raw r,
      notes = [⟨.script, raw, i.unlockingScript.length, r⟩] ∧
      At text p (i.prevTxid ++ (putUintLE i.prevVout.toNat 4 ++
        ((raw ++ i.unlockingScript) ++ putUintLE i.sequence.toNat 4))) ∧
      q = p + (i.prevTxid ++ (putUintLE i.prevVout.toNat 4 ++
        ((raw ++ i.unlockingScript) ++ putUintLE i.sequence.toNat 4))).length := by
  obtain ⟨n1, txid, p1, rest1, htxid, h1, rfl⟩ := bind_inv h
  obtain ⟨n2, vout, p2, rest2, hvout, h2, rfl⟩ := bind_inv h1
  obtain ⟨n3, unlocking, p3, rest3, hscript, h3, rfl⟩ := bind_inv h2
  obtain ⟨n4, sequence, p4, rest4, hseq, hlast, rfl⟩ := bind_inv h3
  cases hlast
  obtain ⟨hat1, hlen, rfl, rfl⟩ := take_inv htxid
  obtain ⟨hat2, rfl, rfl⟩ := u32_inv hvout
  obtain ⟨raw, r, rfl, hat3, rfl⟩ := script_inv hscript
  obtain ⟨hat4, rfl, rfl⟩ := u32_inv hseq
  refine ⟨hlen, raw, r, rfl, ?_, ?_⟩
  · rw [← hlen] at hat2 hat3 hat4
    have hvoutLen := length_putUintLE vout.toNat 4
    exact hat1.append (hat2.append (by
      rw [hvoutLen]
      exact hat3.append hat4))
  · simp only [List.length_append, length_putUintLE, hlen]
    omega

theorem output_inv {o : TxOutput} (h : output text p = (notes, some (o, q))) : ∃ raw r,
    notes = [⟨.script, raw, o.lockingScript.length, r⟩] ∧
      At text p (putUintLE o.value.toNat 8 ++ (raw ++ o.lockingScript)) ∧
      q = p + (putUintLE o.value.toNat 8 ++ (raw ++ o.lockingScript)).length := by
  obtain ⟨n1, value, p1, rest1, hvalue, h1, rfl⟩ := bind_inv h
  obtain ⟨n2, locking, p2, rest2, hscript, hlast, rfl⟩ := bind_inv h1
  cases hlast
  obtain ⟨hat1, rfl, rfl⟩ := u64_inv hvalue
  obtain ⟨raw, r, rfl, hat2, rfl⟩ := script_inv hscript
  refine ⟨raw, r, rfl, ?_, ?_⟩
  · have hvalueLen := length_putUintLE value.toNat 8
    exact hat1.append (by rwa [hvalueLen])
  · simp only [List.length_append, length_putUintLE]
    omega

/-- An input takes bytes of the text. -/
theorem input_takes ⦃p q : Nat⦄ ⦃notes : List LengthField⦄ ⦃i : TxInput⦄
    (h : input text p = (notes, some (i, q))) : p < q ∧ q ≤ text.length := by
  obtain ⟨hlen, raw, r, -, hat, rfl⟩ := input_inv h
  refine ⟨?_, hat.le⟩
  rw [List.length_append]
  omega

theorem output_takes ⦃p q : Nat⦄ ⦃notes : List LengthField⦄ ⦃o : TxOutput⦄
    (h : output text p = (notes, some (o, q))) : p < q ∧ q ≤ text.length := by
  obtain ⟨raw, r, -, hat, rfl⟩ := output_inv h
  refine ⟨?_, hat.le⟩
  rw [List.length_append, length_putUintLE]
  omega

theorem restores_input : Restores text LengthField.Shortest (input text) inputBytes := by
  intro p q notes i h hnotes
  obtain ⟨-, raw, r, rfl, hat, rfl⟩ := input_inv h
  obtain rfl : raw = varintBytes i.unlockingScript.length := hnotes _ (List.mem_singleton_self _)
  exact ⟨hat, rfl⟩

theorem restores_output : Restores text LengthField.Shortest (output text) outputBytes := by
  intro p q notes o h hnotes
  obtain ⟨raw, r, rfl, hat, rfl⟩ := output_inv h
  obtain rfl : raw = varintBytes o.lockingScript.length := hnotes _ (List.mem_singleton_self _)
  exact ⟨hat, rfl⟩

/-! ## Counted lists -/

theorem finds_counted {α : Type} {m : Walk LengthField α} {code : α → List UInt8} {as : List α}
    {site : Site} (hcount : as.length < 256 ^ 8) (h : ∀ a ∈ as, Finds text P m (code a) a)
    (hP : ∀ r, P ⟨site, varintBytes as.length, as.length, r⟩) :
    Finds text P (lengthField text site >>= Walk.times m)
      (varintBytes as.length ++ as.flatMap code) as := by
  intro p hat
  rw [bind_some (lengthField_at site hcount hat.left)]
  obtain ⟨hvalue, hnotes⟩ := Finds.times h _ hat.right
  dsimp only
  rw [hvalue, List.length_append, Nat.add_assoc]
  exact ⟨rfl, List.forall_mem_append.mpr ⟨List.forall_mem_singleton.mpr (hP _), hnotes⟩⟩

theorem restores_counted {α : Type} {m : Walk LengthField α} {E : α → List UInt8} {site : Site}
    {as : List α} (hm : Restores text LengthField.Shortest m E)
    (htakes : ∀ ⦃p q : Nat⦄ ⦃notes : List LengthField⦄ ⦃a : α⦄,
      m p = (notes, some (a, q)) → p < q ∧ q ≤ text.length)
    (h : (lengthField text site >>= Walk.times m) p = (notes, some (as, q)))
    (hnotes : ∀ f ∈ notes, f.Shortest) :
    At text p (varintBytes as.length ++ as.flatMap E) ∧
      q = p + (varintBytes as.length ++ as.flatMap E).length := by
  obtain ⟨front, n, r, back, hlen, htimes, rfl⟩ := bind_inv h
  obtain ⟨raw, hat, rfl, -, rfl⟩ := lengthField_inv hlen
  obtain ⟨hfront, hback⟩ := List.forall_mem_append.mp hnotes
  obtain rfl : raw = varintBytes n := hfront _ (List.mem_singleton_self _)
  obtain ⟨rfl, hat', rfl⟩ := hm.times (fun p q notes a ha => (htakes ha).2) n hat.le htimes hback
  exact ⟨hat.append hat', by rw [List.length_append, Nat.add_assoc]⟩

/-! ## Transactions -/

/-- What a note may say of a transaction's lengths. -/
structure Admits (P : LengthField → Prop) (size : Nat) (tx : BsvTransaction) : Prop where
  inputs : ∀ r, P ⟨.inputCount, varintBytes tx.inputs.length, tx.inputs.length, r⟩
  script : ∀ (s : List UInt8) (r : Nat), r + s.length ≤ size →
    P ⟨.script, varintBytes s.length, s.length, r⟩
  outputs : ∀ r, P ⟨.outputCount, varintBytes tx.outputs.length, tx.outputs.length, r⟩

/-- **A transaction is found** in its canonical bytes. -/
theorem transaction_txBytes {tx : BsvTransaction} {n : Nat} (h : Bounded n tx) (hn : n < 256 ^ 8)
    (hP : Admits P (txBytes tx).length tx) :
    (transaction (txBytes tx) 0).2 = some (tx, (txBytes tx).length) ∧
      ∀ f ∈ lengthFields (txBytes tx), P f := by
  have hinputs : Finds (txBytes tx) P (lengthField (txBytes tx) .inputCount >>=
      Walk.times (input (txBytes tx))) (varintBytes tx.inputs.length ++
        tx.inputs.flatMap inputBytes) tx.inputs := by
    refine finds_counted (Nat.lt_of_le_of_lt h.inputs hn) (fun i hi => ?_) hP.inputs
    exact finds_input (h.prevTxids i hi) (Nat.lt_of_le_of_lt (h.unlocking i hi) hn) (hP.script _)
  have houtputs : Finds (txBytes tx) P (lengthField (txBytes tx) .outputCount >>=
      Walk.times (output (txBytes tx))) (varintBytes tx.outputs.length ++
        tx.outputs.flatMap outputBytes) tx.outputs := by
    refine finds_counted (Nat.lt_of_le_of_lt h.outputs hn) (fun o ho => ?_) hP.outputs
    exact finds_output (Nat.lt_of_le_of_lt (h.locking o ho) hn) (hP.script _)
  have hall : Walk.FindsEnd (txBytes tx) P (transaction (txBytes tx))
      (putUintLE tx.version.toUInt32.toNat 4 ++ ((varintBytes tx.inputs.length ++
        tx.inputs.flatMap inputBytes) ++ ((varintBytes tx.outputs.length ++
          tx.outputs.flatMap outputBytes) ++ (putUintLE tx.lockTime.toNat 4 ++ [])))) tx := by
    unfold transaction
    exact (finds_i32 tx.version).bindEnd (hinputs.bindEnd (houtputs.bindEnd
      ((finds_u32 tx.lockTime).bindEnd (Walk.FindsEnd.done tx))))
  have hbytes : putUintLE tx.version.toUInt32.toNat 4 ++ ((varintBytes tx.inputs.length ++
      tx.inputs.flatMap inputBytes) ++ ((varintBytes tx.outputs.length ++
        tx.outputs.flatMap outputBytes) ++ (putUintLE tx.lockTime.toNat 4 ++ []))) = txBytes tx := by
    simp only [txBytes, List.append_assoc, List.append_nil]
  rw [hbytes] at hall
  exact hall 0 (Walk.at_self _) (Nat.zero_add _)

theorem inputs_inv {inputs : List TxInput}
    (h : (lengthField text .inputCount >>= Walk.times (input text)) p =
      (notes, some (inputs, q))) :
    inputs.length ≤ text.length ∧ ∀ i ∈ inputs,
      i.prevTxid.length = 32 ∧ i.unlockingScript.length ≤ text.length := by
  obtain ⟨front, n, r, back, hlen, htimes, -⟩ := bind_inv h
  obtain ⟨raw, hat, rfl, -, -⟩ := lengthField_inv hlen
  have hcount := Walk.times_length_le input_takes hat.le htimes
  refine ⟨by omega, Walk.times_forall (fun p q notes i hi => ?_) htimes⟩
  obtain ⟨htxid, raw', r', -, hat', -⟩ := input_inv hi
  have hle := hat'.le
  simp only [List.length_append] at hle
  exact ⟨htxid, by omega⟩

theorem outputs_inv {outputs : List TxOutput}
    (h : (lengthField text .outputCount >>= Walk.times (output text)) p =
      (notes, some (outputs, q))) :
    outputs.length ≤ text.length ∧ ∀ o ∈ outputs, o.lockingScript.length ≤ text.length := by
  obtain ⟨front, n, r, back, hlen, htimes, -⟩ := bind_inv h
  obtain ⟨raw, hat, rfl, -, -⟩ := lengthField_inv hlen
  have hcount := Walk.times_length_le output_takes hat.le htimes
  refine ⟨by omega, Walk.times_forall (fun p q notes o ho => ?_) htimes⟩
  obtain ⟨raw', r', -, hat', -⟩ := output_inv ho
  have hle := hat'.le
  simp only [List.length_append] at hle
  omega

/-- **A text with its lengths in the shortest form** is the canonical bytes
of the transaction read off it. -/
theorem transaction_inv {tx : BsvTransaction} (h : transaction text 0 = (notes, some (tx, q))) :
    Bounded text.length tx ∧ ((∀ f ∈ notes, f.Shortest) → text = txBytes tx) := by
  obtain ⟨n1, version, p1, rest1, hversion, h1, rfl⟩ := bind_inv h
  obtain ⟨n2, inputs, p2, rest2, hinputs, h2, rfl⟩ := bind_inv h1
  obtain ⟨n3, outputs, p3, rest3, houtputs, h3, rfl⟩ := bind_inv h2
  obtain ⟨n4, lockTime, p4, rest4, hlock, h4, rfl⟩ := bind_inv h3
  obtain ⟨n5, u, p5, rest5, hdone, hlast, rfl⟩ := bind_inv h4
  cases hlast
  obtain ⟨hat1, rfl, rfl⟩ := i32_inv hversion
  obtain ⟨hat4, rfl, rfl⟩ := u32_inv hlock
  obtain ⟨hend, rfl, rfl⟩ := Walk.done_inv hdone
  constructor
  · obtain ⟨hcountIn, hin⟩ := inputs_inv hinputs
    obtain ⟨hcountOut, hout⟩ := outputs_inv houtputs
    exact ⟨fun i hi => (hin i hi).1, hcountIn, fun i hi => (hin i hi).2, hcountOut, hout⟩
  · intro hnotes
    obtain ⟨hnotes2, hnotes3⟩ := List.forall_mem_append.mp (List.forall_mem_append.mp hnotes).2
    obtain ⟨hat2, rfl⟩ := restores_counted restores_input input_takes hinputs hnotes2
    obtain ⟨hat3, rfl⟩ := restores_counted restores_output output_takes houtputs
      (List.forall_mem_append.mp hnotes3).1
    have hwhole : At text 0 (putUintLE version.toUInt32.toNat 4 ++
        ((varintBytes inputs.length ++ inputs.flatMap inputBytes) ++
          ((varintBytes outputs.length ++ outputs.flatMap outputBytes) ++
            putUintLE lockTime.toNat 4))) :=
      hat1.append (by
        rw [length_putUintLE]
        exact hat2.append (hat3.append hat4))
    have hbytes := hwhole.whole (by
      rw [← hend]
      simp only [List.length_append, length_putUintLE]
      omega)
    rw [txBytes]
    simpa only [List.append_assoc] using hbytes

end CardTable.Tx
