import CardTable.Basis.ScriptNum
import CardTable.Ts.ScriptWriter

/-!
# Pushes — what the script writer writes is read back

A script is read by its bytes alone, so what `pushData` appends has to be
one item that pushes the very data, whatever the data look like and
whatever comes behind. `Call` is a call of the writer; reading the bytes
of a list of calls gives the calls back. A number goes through
`encodeScriptNum` first, whose loop keeps 32 bits of it: a larger number
comes back as what is left of it.
-/

namespace CardTable.Ts

open Basis Basis.Script

/-! ## The shortest push -/

/-- The item data are pushed by pushes the data. -/
theorem pushes_pushed (data : List UInt8) : (pushed data).pushes? = some data := by
  match data with
  | [] => rfl
  | [b] =>
      by_cases hsmall : 1 ≤ b.toNat ∧ b.toNat ≤ 16
      · have hrange : 0x51 ≤ UInt8.ofNat (0x50 + b.toNat) ∧
            UInt8.ofNat (0x50 + b.toNat) ≤ 0x60 := by
          rw [UInt8.le_iff_toNat_le, UInt8.le_iff_toNat_le, toNat_numberCode hsmall.2,
            show (0x51 : UInt8).toNat = 81 from rfl, show (0x60 : UInt8).toNat = 96 from rfl]
          omega
        rw [pushed, if_pos hsmall, Item.pushes?, if_neg (numberCode_ne hsmall.2),
          if_pos hrange, numberCode_sub hsmall.2]
      · by_cases hminus : b = 0x81
        · rw [pushed, if_neg hsmall, if_pos hminus, hminus]
          rfl
        · rw [pushed, if_neg hsmall, if_neg hminus]
          rfl
  | b :: c :: rest => rfl

/-- How many bytes `pushData` appends. -/
def pushedLength (data : List UInt8) : Nat :=
  match pushed data with
  | .op _ => 1
  | .push _ => pushLength data.length

theorem length_pushData (w : ScriptWriter) (data : List UInt8) :
    (w.pushData data).bytes.length = w.bytes.length + pushedLength data := by
  match data with
  | [] =>
      rw [ScriptWriter.pushData, ScriptWriter.bytes_put, List.length_append]
      rfl
  | [b] =>
      rw [ScriptWriter.pushData, pushedLength, pushed]
      by_cases hsmall : 1 ≤ b.toNat ∧ b.toNat ≤ 16
      · rw [if_pos hsmall, if_pos hsmall, ScriptWriter.bytes_put, List.length_append]
        rfl
      · rw [if_neg hsmall, if_neg hsmall]
        by_cases hminus : b = 0x81
        · rw [if_pos hminus, if_pos hminus, ScriptWriter.bytes_put, List.length_append]
          rfl
        · rw [if_neg hminus, if_neg hminus, ScriptWriter.bytes_put, List.length_append]
          rfl
  | b :: c :: rest =>
      have hpushed : pushedLength (b :: c :: rest) = pushLength (b :: c :: rest).length := rfl
      rw [hpushed, ScriptWriter.pushData, pushLength]
      · generalize b :: c :: rest = data
        split
        · simp only [ScriptWriter.bytes_put, List.length_append, List.length_cons]
          omega
        · split
          · simp only [ScriptWriter.bytes_put, List.length_append, List.length_cons]
            omega
          · split
            · simp only [ScriptWriter.bytes_put, List.length_append, List.length_cons]
              omega
            · simp only [ScriptWriter.bytes_put, List.length_append, List.length_cons]
              omega
      · intro h
        cases h
      · intro b' h
        cases h

/-- An opcode pushes one byte, and `pushData` pushes that byte by an
opcode. -/
theorem pushed_of_op {code : UInt8} {data : List UInt8} (h : (Item.op code).pushes? = some data) :
    ∃ code', pushed data = .op code' := by
  rw [Item.pushes?] at h
  split at h
  · cases h
    exact ⟨0x4f, rfl⟩
  · split at h
    · rename_i hrange
      rw [UInt8.le_iff_toNat_le, UInt8.le_iff_toNat_le, show (0x51 : UInt8).toNat = 81 from rfl,
        show (0x60 : UInt8).toNat = 96 from rfl] at hrange
      obtain rfl := Option.some.inj h
      have hvalue : (code - 0x50).toNat = code.toNat - 80 := by
        rw [UInt8.toNat_sub, show (0x50 : UInt8).toNat = 80 from rfl]
        omega
      have hsmall : 1 ≤ (code - 0x50).toNat ∧ (code - 0x50).toNat ≤ 16 := by omega
      exact ⟨UInt8.ofNat (0x50 + (code - 0x50).toNat), by rw [pushed, if_pos hsmall]⟩
    · cases h

/-- **No shorter script pushes the data.** -/
theorem pushedLength_le {bytes data : List UInt8} {item : Item} (h : parse bytes = some [item])
    (hvalue : item.pushes? = some data) : pushedLength data ≤ bytes.length := by
  obtain ⟨code, rest, hbytes, _⟩ := nextItem_of_parse h
  have hpos : 1 ≤ bytes.length := by
    rw [hbytes, List.length_cons]
    omega
  unfold pushedLength
  cases hpushed : pushed data with
  | op c => exact hpos
  | push d =>
      cases item with
      | op c =>
          obtain ⟨c', hop⟩ := pushed_of_op hvalue
          rw [hpushed] at hop
          cases hop
      | push d' =>
          obtain rfl := Option.some.inj hvalue
          exact pushLength_le h

/-! ## Calls -/

/-- A call of the writer. -/
inductive ScriptCall where
  | pushData (data : List UInt8)
  | op (code : Nat)
  deriving DecidableEq, Repr

namespace ScriptCall

/-- Data a length of four bytes counts, and opcodes that push nothing. -/
def Plain : ScriptCall → Prop
  | pushData data => data.length < 2 ^ 32
  | op code => code = 0x50 ∨ 0x60 < code ∧ code ≤ 0xff

/-- What the writer does. -/
def run (w : ScriptWriter) : List ScriptCall → Js ScriptWriter
  | [] => .ok w
  | pushData data :: rest => run (w.pushData data) rest
  | op code :: rest => do
      let w ← w.op code
      run w rest

/-- The item a call writes. -/
def item : ScriptCall → Item
  | pushData data => pushed data
  | op code => .op (UInt8.ofNat code)

/-- The call an item was written by. -/
def ofItem (item : Item) : ScriptCall :=
  match item.pushes?, item with
  | some data, _ => pushData data
  | none, .op code => op code.toNat
  | none, .push data => pushData data

/-- **An item says which call wrote it**: no opcode is taken for data. -/
theorem ofItem_item {call : ScriptCall} (h : call.Plain) : ofItem call.item = call := by
  cases call with
  | pushData data => simp only [item, ofItem, pushes_pushed]
  | op code =>
      have hcode : (UInt8.ofNat code).toNat = code := by
        rw [UInt8.toNat_ofNat']
        rcases h with rfl | ⟨_, h⟩
        · rfl
        · omega
      have hne : UInt8.ofNat code ≠ 0x4f := by
        intro heq
        have := congrArg UInt8.toNat heq
        rw [hcode, show (0x4f : UInt8).toNat = 79 from rfl] at this
        rcases h with h | h
        · omega
        · omega
      have hrange : ¬(0x51 ≤ UInt8.ofNat code ∧ UInt8.ofNat code ≤ 0x60) := by
        rw [UInt8.le_iff_toNat_le, UInt8.le_iff_toNat_le, hcode,
          show (0x51 : UInt8).toNat = 81 from rfl, show (0x60 : UInt8).toNat = 96 from rfl]
        rcases h with h | h
        · omega
        · omega
      have hvalue : (Item.op (UInt8.ofNat code)).pushes? = none := by
        rw [Item.pushes?, if_neg hne, if_neg hrange]
      simp only [item, ofItem, hvalue, hcode]

/-- A call appends the bytes of its item. -/
theorem run_cons {call : ScriptCall} (h : call.Plain) (w : ScriptWriter)
    (rest : List ScriptCall) :
    ∃ bytes, run w (call :: rest) = run (w.put bytes) rest ∧ Codes bytes [call.item] := by
  cases call with
  | pushData data =>
      have hsize : data.length < 256 ^ 4 := h
      obtain ⟨bytes, hput, hcodes⟩ := pushData_codes w hsize
      exact ⟨bytes, by rw [run, hput], hcodes⟩
  | op code =>
      have hbyte : ¬0xff < code := by
        rcases h with rfl | ⟨_, h⟩
        · decide
        · omega
      have hhigh : 78 < UInt8.ofNat code := by
        rw [UInt8.lt_iff_toNat_lt, UInt8.toNat_ofNat', show (78 : UInt8).toNat = 78 from rfl]
        rcases h with h | h
        · omega
        · omega
      refine ⟨[UInt8.ofNat code], ?_, Codes.opcode hhigh⟩
      rw [run, ScriptWriter.op, if_neg hbyte, Outcome.ok_bind]

/-- What a list of calls appends. -/
theorem run_codes {calls : List ScriptCall} (h : ∀ call ∈ calls, call.Plain)
    (w : ScriptWriter) :
    ∃ bytes, run w calls = .ok (w.put bytes) ∧ Codes bytes (calls.map item) := by
  induction calls generalizing w with
  | nil =>
      refine ⟨[], ?_, .nil⟩
      rw [run, ScriptWriter.put, List.append_nil]
  | cons call rest ih =>
      obtain ⟨hcall, hrest⟩ := List.forall_mem_cons.mp h
      obtain ⟨first, hrun, hfirst⟩ := run_cons hcall w rest
      obtain ⟨more, hmore, hcodes⟩ := ih hrest (w.put first)
      refine ⟨first ++ more, ?_, hfirst.append hcodes⟩
      rw [hrun, hmore, ScriptWriter.put, ScriptWriter.put, ScriptWriter.put, List.append_assoc]

end ScriptCall

/-- **Pushes are read back, and no form of them is shorter.** What
`pushData` appends parses to one item that pushes the data, every script
that does so is at least as long, and the bytes of a list of calls parse
back to the calls. -/
theorem pushes_read_back :
    (∀ (w : ScriptWriter) (data : List UInt8), data.length < 2 ^ 32 →
      ∃ bytes item, w.pushData data = w.put bytes ∧ parse bytes = some [item] ∧
        item.pushes? = some data ∧
        ∀ other item', parse other = some [item'] → item'.pushes? = some data →
          bytes.length ≤ other.length) ∧
    (∀ calls : List ScriptCall, (∀ call ∈ calls, call.Plain) →
      ∃ w items, ScriptCall.run .new calls = .ok w ∧ parse w.bytes = some items ∧
        items.map ScriptCall.ofItem = calls) := by
  refine ⟨?_, ?_⟩
  · intro w data hsize
    have hfour : data.length < 256 ^ 4 := hsize
    obtain ⟨bytes, hput, hcodes⟩ := pushData_codes w hfour
    have hlen := length_pushData w data
    rw [hput, ScriptWriter.bytes_put, List.length_append] at hlen
    refine ⟨bytes, pushed data, hput, hcodes.parse_eq, pushes_pushed data, ?_⟩
    intro other item' hparse hvalue
    have := pushedLength_le hparse hvalue
    omega
  · intro calls hplain
    obtain ⟨bytes, hrun, hcodes⟩ := ScriptCall.run_codes hplain .new
    refine ⟨_, _, hrun, hcodes.parse_eq, ?_⟩
    rw [List.map_map]
    have hback : ∀ call ∈ calls, (ScriptCall.ofItem ∘ ScriptCall.item) call = call :=
      fun call hcall => ScriptCall.ofItem_item (hplain call hcall)
    rw [List.map_congr_left hback, List.map_id']

/-! ## Numbers -/

/-- **The loop keeps 32 bits.** -/
theorem uintLE_scriptNumBytes (v : Nat) : uintLE (scriptNumBytes v) = v % 2 ^ 32 := by
  induction v using Nat.strong_induction_on with
  | _ v ih =>
      rw [scriptNumBytes]
      split
      · rename_i hzero
        rw [hzero]
        rfl
      · have hrest := ih (v % 4294967296 / 256) (by omega)
        rw [uintLE_cons, hrest, UInt8.toNat_ofNat']
        omega

/-- A magnitude the loop does not cut ends in a byte it needs. -/
theorem scriptNumBytes_last {v : Nat} (h : v < 2 ^ 32) :
    ∀ last ∈ (scriptNumBytes v).getLast?, last ≠ 0 := by
  induction v using Nat.strong_induction_on with
  | _ v ih =>
      rw [scriptNumBytes]
      split
      · intro last hlast
        cases hlast
      · intro last hlast
        cases hrest : scriptNumBytes (v % 4294967296 / 256) with
        | nil =>
            -- the last byte is the number itself
            have hval := uintLE_scriptNumBytes (v % 4294967296 / 256)
            rw [hrest, show uintLE [] = 0 from rfl] at hval
            rw [hrest] at hlast
            obtain rfl : UInt8.ofNat v = last := Option.some.inj hlast
            intro hzero
            have := congrArg UInt8.toNat hzero
            rw [UInt8.toNat_ofNat', show (0 : UInt8).toNat = 0 from rfl] at this
            omega
        | cons b bs =>
            rw [hrest, List.getLast?_cons_cons] at hlast
            exact ih (v % 4294967296 / 256) (by omega) (by omega) last (hrest ▸ hlast)

/-- `encodeScriptNum` puts the sign on what the loop gives. -/
theorem encodeScriptNum_eq {n : Int} (h : n ≠ 0) :
    encodeScriptNum n = .ok (ScriptNum.signed (decide (n < 0)) (scriptNumBytes n.natAbs)) := by
  have hpos : n.natAbs ≠ 0 := Int.natAbs_ne_zero.mpr h
  have hne : scriptNumBytes n.natAbs ≠ [] := by
    rw [scriptNumBytes, if_neg hpos]
    simp
  obtain ⟨rest, last, hout⟩ : ∃ rest last, scriptNumBytes n.natAbs = rest ++ [last] :=
    ⟨_, _, (List.dropLast_append_getLast hne).symm⟩
  rw [encodeScriptNum, if_neg h, hout, ScriptNum.signed, List.reverse_append,
    List.reverse_singleton, List.singleton_append, ScriptNum.withSign]
  simp only [List.getLast?_append, List.getLast?_singleton, Option.some_or,
    List.dropLast_concat]
  by_cases htop : 128 ≤ last.toNat
  · rw [if_pos htop, if_pos htop]
    by_cases hneg : n < 0
    · simp [hneg]
    · simp [hneg]
  · rw [if_neg htop, if_neg htop]
    have hsign : UInt8.ofNat (last.toNat + 128) = last + 128 := by
      apply UInt8.toNat_inj.mp
      rw [ScriptNum.toNat_add_sign (by omega), UInt8.toNat_ofNat']
      omega
    by_cases hneg : n < 0
    · simp [hneg, hsign]
    · simp [hneg]

/-- **The number comes back modulo `2 ^ 32`**, with its sign. -/
theorem decode_encodeScriptNum (n : Int) :
    ∃ bytes, encodeScriptNum n = .ok bytes ∧
      ScriptNum.decode bytes =
        if n < 0 then -((n.natAbs % 2 ^ 32 : Nat) : Int) else ((n.natAbs % 2 ^ 32 : Nat) : Int) := by
  by_cases hzero : n = 0
  · subst hzero
    exact ⟨[], rfl, rfl⟩
  · refine ⟨_, encodeScriptNum_eq hzero, ?_⟩
    have hne : scriptNumBytes n.natAbs ≠ [] := by
      rw [scriptNumBytes, if_neg (Int.natAbs_ne_zero.mpr hzero)]
      simp
    rw [ScriptNum.decode_signed hne, uintLE_scriptNumBytes]
    by_cases hneg : n < 0
    · simp [hneg]
    · simp [hneg]

/-- The number comes back from the bytes `encodeScriptNum` gives, and none
of these is too many. -/
def ScriptNumRoundTrips (n : Int) : Prop :=
  ∃ bytes, encodeScriptNum n = .ok bytes ∧ ScriptNum.decode bytes = n ∧
    ScriptNum.Minimal bytes ∧ (n = 0 → bytes = [])

/-- What the loop does not cut round-trips. -/
theorem scriptNumRoundTrips {n : Int} (h : n.natAbs < 2 ^ 32) : ScriptNumRoundTrips n := by
  obtain ⟨bytes, hbytes, hdecode⟩ := decode_encodeScriptNum n
  refine ⟨bytes, hbytes, ?_, ?_, ?_⟩
  · rw [hdecode, Nat.mod_eq_of_lt h]
    split
    · omega
    · omega
  · by_cases hzero : n = 0
    · subst hzero
      obtain rfl : [] = bytes := Outcome.ok.inj hbytes
      trivial
    · rw [encodeScriptNum_eq hzero] at hbytes
      obtain rfl := Outcome.ok.inj hbytes
      exact ScriptNum.minimal_signed (scriptNumBytes_last h) _
  · rintro rfl
    exact (Outcome.ok.inj hbytes).symm

/-- What the loop cuts is another number. -/
theorem not_scriptNumRoundTrips {n : Int} (h : 2 ^ 32 ≤ n.natAbs) : ¬ScriptNumRoundTrips n := by
  intro htrip
  obtain ⟨bytes, hbytes, hback, _, _⟩ := htrip
  obtain ⟨bytes', hbytes', hdecode⟩ := decode_encodeScriptNum n
  obtain rfl := Outcome.ok.inj (hbytes.symm.trans hbytes')
  rw [hback] at hdecode
  split at hdecode
  · omega
  · omega

/-- **Script numbers round-trip below `2 ^ 32`, and nowhere else.** -/
theorem scriptNum_round_trip_iff (n : Int) : ScriptNumRoundTrips n ↔ n.natAbs < 2 ^ 32 := by
  constructor
  · intro h
    apply Nat.lt_of_not_ge
    intro hlarge
    exact not_scriptNumRoundTrips hlarge h
  · exact scriptNumRoundTrips

/-- The first number that is cut comes back as zero. -/
theorem scriptNum_cut :
    ¬∀ n : Int, isSafeInteger n = true → ScriptNumRoundTrips n := by
  intro h
  exact not_scriptNumRoundTrips (n := 4294967296) (by decide) (h 4294967296 (by decide))

/-! ## Numbers, pushed -/

theorem length_scriptNumBytes_le {v k : Nat} (h : v < 256 ^ k) :
    (scriptNumBytes v).length ≤ k := by
  induction k generalizing v with
  | zero =>
      obtain rfl : v = 0 := by omega
      rw [scriptNumBytes, if_pos rfl]
      exact Nat.le_refl 0
  | succ k ih =>
      rw [scriptNumBytes]
      split
      · exact Nat.zero_le _
      · rw [Nat.pow_succ] at h
        have := ih (v := v % 4294967296 / 256) (by omega)
        rw [List.length_cons]
        omega

/-- The bytes of a number fit one push. -/
theorem length_encodeScriptNum {n : Int} (h : n.natAbs < 2 ^ 32) {bytes : List UInt8}
    (hbytes : encodeScriptNum n = .ok bytes) : bytes.length ≤ 5 := by
  by_cases hzero : n = 0
  · subst hzero
    obtain rfl : [] = bytes := Outcome.ok.inj hbytes
    exact Nat.zero_le 5
  · rw [encodeScriptNum_eq hzero] at hbytes
    obtain rfl := Outcome.ok.inj hbytes
    have hmagnitude : n.natAbs < 256 ^ 4 := h
    have := length_scriptNumBytes_le hmagnitude
    have hsigned := ScriptNum.length_signed_le (decide (n < 0)) (scriptNumBytes n.natAbs)
    omega

/-- The opcodes of the small numbers. -/
theorem pushes_number {n : Nat} (h : n ≤ 16) :
    ∃ data, (number n).pushes? = some data ∧ ScriptNum.decode data = (n : Int) := by
  have hall : ∀ n ≤ 16, (number n).pushes?.map ScriptNum.decode = some (n : Int) := by decide
  exact Option.map_eq_some_iff.mp (hall n h)

/-- **A number `pushNumber` pushes is read back**: one item, whose data
stand for the number. -/
theorem pushNumber_value (w : ScriptWriter) {n : Int} (h : n.natAbs < 2 ^ 32) :
    ∃ bytes item data, w.pushNumber n = .ok (w.put bytes) ∧ Codes bytes [item] ∧
      item.pushes? = some data ∧ ScriptNum.decode data = n := by
  by_cases hsmall : 0 ≤ n ∧ n ≤ 16
  · obtain ⟨m, rfl⟩ := Int.eq_ofNat_of_zero_le hsmall.1
    have hm : m ≤ 16 := by omega
    obtain ⟨data, hvalue, hdecode⟩ := pushes_number hm
    refine ⟨(number m).bytes, number m, data, ScriptWriter.pushNumber_eq hm, ?_,
      hvalue, hdecode⟩
    apply Item.codes
    rw [number]
    split
    · exact Nat.zero_le 75
    · exact numberCode_gt hm
  · obtain ⟨data, hdata, hback, _⟩ := scriptNumRoundTrips h
    have hlen := length_encodeScriptNum h hdata
    have hfour : data.length < 256 ^ 4 := by omega
    obtain ⟨bytes, hput, hcodes⟩ := pushData_codes w hfour
    refine ⟨bytes, pushed data, data, ?_, hcodes, pushes_pushed data, hback⟩
    rw [ScriptWriter.pushNumber, if_neg hsmall, hdata, Outcome.ok_bind, hput]
    rfl

end CardTable.Ts
