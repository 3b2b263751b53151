import CardTable.Basis.FisherYates
import CardTable.Go.Shuffle
import CardTable.Ts.CryptoCards
import CardTable.Ts.Shuffle

/-!
# Shuffle — one unbiased shuffle in two languages

Both loops are the same loop over the words of a stream (`FairShuffle`),
although one puts its words together with signed operators and divides
doubles and the other has `uint32` and `uint64`: the same draws are
accepted, the same bytes are used up, and the deck is the arrangement of
the draws. A position that does not fit 32 bits stops the TypeScript loop
and is cut by the Go one; no deck of `2 ^ 32` cards or fewer has one.
-/

namespace CardTable

open Basis Basis.Sampling

namespace FairShuffle

/-! ## The loop over a stream -/

section Source

variable {σ : Type} (bytes : σ → Option (UInt8 × σ))

/-- The word of the next four bytes. -/
def word (s : σ) : Option (Nat × σ) :=
  (bytes s).bind fun (b0, s) => (bytes s).bind fun (b1, s) => (bytes s).bind fun (b2, s) =>
    (bytes s).map fun (b3, s) => (uintLE [b0, b1, b2, b3], s)

/-- A draw from 0 to `max`. -/
def draw (rounds max : Nat) (s : σ) : Option (Nat × σ) :=
  if max = 0 then some (0, s)
  else
    (drawUntil (word bytes) (fun w => (drawOf (2 ^ 32) max w).isSome) rounds s).map
      fun r => (r.1 % (max + 1), r.2)

variable {bytes}

theorem draw_le {rounds max j : Nat} {s s' : σ} (h : draw bytes rounds max s = some (j, s')) :
    j ≤ max := by
  rw [draw] at h
  split at h
  · cases h
    exact Nat.zero_le max
  · obtain ⟨r, _, heq⟩ := Option.map_eq_some_iff.mp h
    cases heq
    exact Nat.le_of_lt_succ (Nat.mod_lt _ (Nat.succ_pos max))

end Source

end FairShuffle

open FairShuffle

/-! ## TypeScript -/

namespace Ts.Shuffle

variable {σ : Type} (next : σ → Js (UInt8 × σ))

/-- The bytes of a source that can throw. -/
def bytes (s : σ) : Option (UInt8 × σ) := (next s).value?

/-- **The signed operators make the word.** -/
theorem nextWord_value (s : σ) :
    (nextWord next s).value? = (word (bytes next) s).map fun r => ((r.1 : Int), r.2) := by
  rw [nextWord, word, Outcome.value?_bind, Option.map_bind]
  congr 1
  funext ⟨b0, s⟩
  simp only [Function.comp_apply]
  rw [Outcome.value?_bind, Option.map_bind]
  congr 1
  funext ⟨b1, s⟩
  simp only [Function.comp_apply]
  rw [Outcome.value?_bind, Option.map_bind]
  congr 1
  funext ⟨b2, s⟩
  simp only [Function.comp_apply]
  rw [Outcome.value?_bind, Option.map_map, bytes, Option.map_eq_bind]
  congr 1
  funext ⟨b3, s⟩
  simp only [Function.comp_apply]
  rw [Bits32.combine_four]
  rfl

/-- The limit is the last whole multiple below `2 ^ 32`. -/
theorem limit_eq (max : Nat) :
    limit ((max : Int) + 1) = ((2 ^ 32 / (max + 1) * (max + 1) : Nat) : Int) := by
  have hfloor := floor_nearestDouble_div (a := 2 ^ 32) (b := max + 1) (Nat.succ_pos max) (by decide)
  have hcast : ((2 ^ 32 : Nat) : ℚ) / ((max + 1 : Nat) : ℚ) =
      0x100000000 / (((max : Int) + 1 : Int) : ℚ) := by
    push_cast
    norm_num
  rw [hcast] at hfloor
  rw [limit, hfloor]
  push_cast
  rfl

theorem accept_eq (max w : Nat) :
    accept ((max : Int) + 1) w = (drawOf (2 ^ 32) max w).map Nat.cast := by
  rw [accept, limit_eq, drawOf]
  by_cases h : w < 2 ^ 32 / (max + 1) * (max + 1)
  · rw [if_pos (by exact_mod_cast h), if_pos h]
    rfl
  · rw [if_neg (by exact_mod_cast h), if_neg h]
    rfl

theorem drawLoop_value (max rounds : Nat) (s : σ) :
    (drawLoop next ((max : Int) + 1) rounds s).value? =
      (drawUntil (word (bytes next)) (fun w => (drawOf (2 ^ 32) max w).isSome) rounds s).map
        fun r => (((r.1 % (max + 1) : Nat) : Int), r.2) := by
  induction rounds generalizing s with
  | zero => rfl
  | succ rounds ih =>
      rw [drawLoop, Outcome.value?_bind, nextWord_value, drawUntil]
      cases word (bytes next) s with
      | none => rfl
      | some r =>
          obtain ⟨w, s⟩ := r
          simp only [Option.map_some, Option.bind_some, accept_eq]
          cases hv : drawOf (2 ^ 32) max w with
          | none =>
              simp only [Option.map_none, Option.isSome_none, Bool.false_eq_true, if_false]
              exact ih s
          | some j =>
              rw [drawOf] at hv
              split at hv
              · cases hv
                rfl
              · cases hv

theorem drawUniform_value (rounds max : Nat) (s : σ) :
    (drawUniform next rounds max s).value? =
      if max < 2 ^ 32 then (draw (bytes next) rounds max s).map fun r => ((r.1 : Int), r.2)
      else none := by
  rw [drawUniform]
  by_cases hmax : max < 2 ^ 32
  · rw [if_neg (by omega), if_pos hmax, draw]
    by_cases hzero : max = 0
    · rw [if_pos (by omega), if_pos hzero]
      rfl
    · rw [if_neg (by omega), if_neg hzero, drawLoop_value, Option.map_map]
      rfl
  · rw [if_pos (by omega), if_neg hmax]
    rfl

/-- What the loop draws for a position. -/
def pick (rounds i : Nat) (s : σ) : Option (Nat × σ) :=
  (drawUniform next rounds i s).value?.map fun r => (r.1.toNat, r.2)

theorem pick_eq (rounds i : Nat) (s : σ) :
    pick next rounds i s = if i < 2 ^ 32 then draw (bytes next) rounds i s else none := by
  rw [pick, drawUniform_value]
  split
  · rw [Option.map_map]
    exact Option.map_id'
  · rfl

theorem pick_le {rounds i j : Nat} {s s' : σ} (h : pick next rounds i s = some (j, s')) :
    j ≤ i := by
  rw [pick_eq] at h
  split at h
  · exact draw_le h
  · cases h

theorem exchange_eq {deck : List Nat} {i j : Nat} (hi : i < deck.length) (hj : j < deck.length) :
    exchange deck i j = .ok (swap deck i j) := by
  rw [exchange, List.getElem?_eq_getElem hi, List.getElem?_eq_getElem hj, swap_eq hi hj]

/-- **The loop is its draws and their exchanges.** -/
theorem shuffle_value (rounds n : Nat) (s : σ) :
    (shuffle next rounds n s).value? = (draws (pick next rounds) (n - 1) s).map
      fun r => (exchangeAll (n - 1) (List.range n) r.1, r.2) := by
  refine loop_eq (fun h => pick_le next h) (fun xs i j => (exchange xs i j).value?) ?_
    (fun i xs s => (shuffleLoop next rounds i xs s).value?) ?_ ?_ ?_ s
  · intro xs i j hi hj
    rw [exchange_eq hi hj]
    rfl
  · intro xs s
    rfl
  · intro i xs s
    rw [shuffleLoop, Outcome.value?_bind, pick, Option.bind_map]
    congr 1
    funext ⟨j, s⟩
    rw [Outcome.value?_bind]
    rfl
  · rw [List.length_range]

end Ts.Shuffle

/-! ## Go -/

namespace Go.Shuffle

variable {σ : Type} (next : σ → UInt8 × σ)

/-- The bytes of a source that always has one. -/
def bytes (s : σ) : Option (UInt8 × σ) := some (next s)

/-- **The machine words make the word.** -/
theorem nextWord_eq (s : σ) :
    word (bytes next) s = some ((nextWord next s).1.toNat, (nextWord next s).2) := by
  have hshift : ∀ (b : UInt8) {k : Nat}, k ≤ 24 → b.toNat <<< k % 2 ^ 32 = b.toNat <<< k :=
    fun b {k} hk => Nat.mod_eq_of_lt (Bits32.byte_shiftLeft_lt b hk)
  have h8 : UInt32.toNat 8 % 32 = 8 := rfl
  have h16 : UInt32.toNat 16 % 32 = 16 := rfl
  have h24 : UInt32.toNat 24 % 32 = 24 := rfl
  have hword : ∀ b0 b1 b2 b3 : UInt8, uintLE [b0, b1, b2, b3] =
      (b0.toUInt32 ||| (b1.toUInt32 <<< 8) ||| (b2.toUInt32 <<< 16) |||
        (b3.toUInt32 <<< 24)).toNat := by
    intro b0 b1 b2 b3
    rw [UInt32.toNat_or, UInt32.toNat_or, UInt32.toNat_or, UInt32.toNat_shiftLeft,
      UInt32.toNat_shiftLeft, UInt32.toNat_shiftLeft, UInt8.toNat_toUInt32, UInt8.toNat_toUInt32,
      UInt8.toNat_toUInt32, UInt8.toNat_toUInt32, h8, h16, h24, hshift b1 (by omega),
      hshift b2 (by omega), hshift b3 (by omega), Bits32.or_bytes_four]
  simp only [word, bytes, Option.bind_some, Option.map_some, hword]
  rfl

theorem toNat_bound (max : UInt32) : (max.toUInt64 + 1).toNat = max.toNat + 1 := by
  have hmax := max.toNat_lt
  rw [UInt64.toNat_add, UInt32.toNat_toUInt64]
  exact Nat.mod_eq_of_lt (by simp; omega)

theorem toNat_limit (max : UInt32) :
    (limit (max.toUInt64 + 1)).toNat = 2 ^ 32 / (max.toNat + 1) * (max.toNat + 1) := by
  have hsize : ((1 : UInt64) <<< 32).toNat = 2 ^ 32 := by decide
  have hle := Nat.div_mul_le_self (2 ^ 32) (max.toNat + 1)
  rw [limit, UInt64.toNat_mul, UInt64.toNat_div, toNat_bound, hsize]
  exact Nat.mod_eq_of_lt (by omega)

theorem accept_eq (max w : UInt32) :
    accept (max.toUInt64 + 1) w = (drawOf (2 ^ 32) max.toNat w.toNat).map UInt32.ofNat := by
  have hiff : w.toUInt64 < limit (max.toUInt64 + 1) ↔
      w.toNat < 2 ^ 32 / (max.toNat + 1) * (max.toNat + 1) := by
    rw [UInt64.lt_iff_toNat_lt, toNat_limit, UInt32.toNat_toUInt64]
  have hmod : (w.toUInt64 % (max.toUInt64 + 1)).toUInt32 =
      UInt32.ofNat (w.toNat % (max.toNat + 1)) := by
    rw [← UInt32.toNat_inj, UInt64.toNat_toUInt32, UInt64.toNat_mod, toNat_bound,
      UInt32.toNat_toUInt64]
    rfl
  rw [accept, drawOf, hmod]
  by_cases h : w.toNat < 2 ^ 32 / (max.toNat + 1) * (max.toNat + 1)
  · rw [if_pos (hiff.mpr h), if_pos h]
    rfl
  · rw [if_neg (mt hiff.mp h), if_neg h]
    rfl

theorem drawLoop_value (max : UInt32) (rounds : Nat) (s : σ) :
    (drawLoop next (max.toUInt64 + 1) rounds s).value? =
      (drawUntil (word (bytes next)) (fun w => (drawOf (2 ^ 32) max.toNat w).isSome) rounds s).map
        fun r => (UInt32.ofNat (r.1 % (max.toNat + 1)), r.2) := by
  induction rounds generalizing s with
  | zero => rfl
  | succ rounds ih =>
      rw [drawLoop, drawUntil, nextWord_eq]
      simp only [accept_eq]
      cases hv : drawOf (2 ^ 32) max.toNat (nextWord next s).1.toNat with
      | none =>
          simp only [Option.map_none, Option.isSome_none, Bool.false_eq_true, if_false]
          exact ih (nextWord next s).2
      | some j =>
          rw [drawOf] at hv
          split at hv
          · cases hv
            rfl
          · cases hv

theorem drawUniform_value (rounds : Nat) (max : UInt32) (s : σ) :
    ((drawUniform next rounds max s).value?.map fun r => (r.1.toNat, r.2)) =
      draw (bytes next) rounds max.toNat s := by
  rw [drawUniform, draw]
  by_cases hzero : max = 0
  · rw [if_pos hzero, if_pos (by rw [hzero]; rfl)]
    rfl
  · rw [if_neg hzero, if_neg (by rwa [← UInt32.toNat_inj] at hzero), drawLoop_value,
      Option.map_map]
    congr 1
    funext r
    have hmod : r.1 % (max.toNat + 1) < 2 ^ 32 :=
      Nat.lt_of_lt_of_le (Nat.mod_lt r.1 (Nat.succ_pos _)) max.toNat_lt
    rw [Function.comp_apply, UInt32.toNat_ofNat_of_lt' hmod]

/-- What the loop draws for a position. -/
def pick (rounds i : Nat) (s : σ) : Option (Nat × σ) :=
  (drawUniform next rounds (UInt32.ofNat i) s).value?.map fun r => (r.1.toNat, r.2)

theorem pick_eq (rounds i : Nat) (s : σ) :
    pick next rounds i s = draw (bytes next) rounds (i % 2 ^ 32) s := by
  rw [pick, drawUniform_value, UInt32.toNat_ofNat']

theorem pick_le {rounds i j : Nat} {s s' : σ} (h : pick next rounds i s = some (j, s')) :
    j ≤ i := by
  rw [pick_eq] at h
  exact (draw_le h).trans (Nat.mod_le i _)

theorem exchange_eq {deck : List Nat} {i j : Nat} (hi : i < deck.length) (hj : j < deck.length) :
    exchange deck i j = .ok (swap deck i j) := by
  rw [exchange, List.getElem?_eq_getElem hi, List.getElem?_eq_getElem hj, swap_eq hi hj]

/-- **The loop is its draws and their exchanges.** -/
theorem shuffle_value (rounds n : Nat) (s : σ) :
    (shuffle next rounds n s).value? = (draws (pick next rounds) (n - 1) s).map
      fun r => (exchangeAll (n - 1) (List.range n) r.1, r.2) := by
  refine loop_eq (fun h => pick_le next h) (fun xs i j => (exchange xs i j).value?) ?_
    (fun i xs s => (shuffleLoop next rounds i xs s).value?) ?_ ?_ ?_ s
  · intro xs i j hi hj
    rw [exchange_eq hi hj]
    rfl
  · intro xs s
    rfl
  · intro i xs s
    rw [shuffleLoop, Outcome.value?_bind, pick, Option.bind_map]
    congr 1
    funext ⟨j, s⟩
    rw [Outcome.value?_bind]
    rfl
  · rw [List.length_range]

end Go.Shuffle

/-! ## The generators -/

/-- What the shuffles of the two packages draw. -/
theorem FairShuffle.shuffleDeck_eq (nextByte : Cards.Prg → Option (UInt8 × Cards.Prg))
    (combined : List UInt8) (n : Nat) :
    Cards.shuffleDeck nextByte combined n =
      (draws (draw nextByte Cards.streamValues) (n - 1) (Cards.newPrg combined)).map
        fun r => exchangeAll (n - 1) (List.range n) r.1 := by
  have hword : Cards.nextValue nextByte = word nextByte := by
    funext p
    simp only [Cards.nextValue, word, Bits32.or_bytes_four, Option.bind_eq_bind,
      Option.map_eq_bind]
    rfl
  have hdraw : Cards.drawUniform nextByte = draw nextByte Cards.streamValues := by
    funext max p
    have haccept : (fun w => (drawOf (2 ^ 32) max w).isSome) =
        fun w => decide (w < 4294967296 / (max + 1) * (max + 1)) := by
      funext w
      rw [drawOf]
      by_cases h : w < 2 ^ 32 / (max + 1) * (max + 1)
      · rw [if_pos h]
        exact (decide_eq_true h).symm
      · rw [if_neg h]
        exact (decide_eq_false h).symm
    rw [Cards.drawUniform, draw, hword, haccept]
  rw [Cards.shuffleDeck, shuffleWith_eq, hdraw]

/-- Picks that draw so shuffle so. -/
theorem FairShuffle.shuffleDeck_of_picks {nextByte : Cards.Prg → Option (UInt8 × Cards.Prg)}
    {pick : Nat → Cards.Prg → Option (Nat × Cards.Prg)} {combined : List UInt8} {n : Nat}
    (hpick : ∀ k, k < n → ∀ p, pick k p = draw nextByte Cards.streamValues k p) :
    ((draws pick (n - 1) (Cards.newPrg combined)).map
        fun r => (exchangeAll (n - 1) (List.range n) r.1, r.2)).map Prod.fst =
      Cards.shuffleDeck nextByte combined n := by
  have hdraws : ∀ s, draws pick (n - 1) s =
      draws (draw nextByte Cards.streamValues) (n - 1) s :=
    draws_congr fun k hpos hk => hpick k (by omega)
  rw [FairShuffle.shuffleDeck_eq, hdraws, Option.map_map]
  rfl

/-- **The loop of `Ts.CryptoCards`** is this one on the blocks of the
generator. -/
theorem Ts.Shuffle.shuffle_prg {next : Cards.Prg → Js (UInt8 × Cards.Prg)}
    (hnext : ∀ p, (next p).value? = Ts.nextByte p) (combined : List UInt8) {n : Nat}
    (hn : n ≤ 2 ^ 32) :
    ((shuffle next Cards.streamValues n (Cards.newPrg combined)).value?.map Prod.fst) =
      Cards.shuffleDeck Ts.nextByte combined n := by
  have hbytes : bytes next = Ts.nextByte := funext hnext
  rw [shuffle_value]
  apply FairShuffle.shuffleDeck_of_picks
  intro k hk p
  rw [pick_eq, if_pos (by omega), hbytes]

/-- **The loop of `Go.CryptoCards`** is this one on the blocks of the
generator. -/
theorem Go.Shuffle.shuffle_prg {next : Cards.Prg → UInt8 × Cards.Prg}
    (hnext : ∀ p, some (next p) = Go.nextByte p) (combined : List UInt8) {n : Nat}
    (hn : n ≤ 2 ^ 32) :
    ((shuffle next Cards.streamValues n (Cards.newPrg combined)).value?.map Prod.fst) =
      Cards.shuffleDeck Go.nextByte combined n := by
  have hbytes : bytes next = Go.nextByte := funext hnext
  rw [shuffle_value]
  apply FairShuffle.shuffleDeck_of_picks
  intro k hk p
  rw [pick_eq, Nat.mod_eq_of_lt (by omega), hbytes]

/-! ## One stream, two languages -/

namespace FairShuffle

variable (stream : Nat → UInt8) (rounds : Nat)

end FairShuffle

end CardTable
