import Mathlib.Data.List.Basic

/-!
# Sampling — rejection sampling and the shuffle it drives

A source `next` answers with a value and its next state, or with nothing
when it cannot go on. `drawUntil` asks it until a value is accepted, and
`shuffleWith` exchanges every position of a list, from the last down,
with one a source picks at or below it.

Two programs that differ only in their source give the same answers
wherever the more careful source answers at all: `Below` is carried
through both loops.
-/

namespace Basis.Sampling

variable {σ α β : Type}

/-- Every answer of `f` is also the answer of `g`. -/
def Below (f g : σ → Option β) : Prop := ∀ {s b}, f s = some b → g s = some b

/-- Ask until a value is accepted, at most `fuel` times. -/
def drawUntil (next : σ → Option (α × σ)) (accept : α → Bool) : Nat → σ → Option (α × σ)
  | 0, _ => none
  | fuel + 1, s =>
      match next s with
      | none => none
      | some (a, s') => if accept a then some (a, s') else drawUntil next accept fuel s'

theorem Below.drawUntil {next next' : σ → Option (α × σ)} (h : Below next next')
    (accept : α → Bool) (fuel : Nat) :
    Below (drawUntil next accept fuel) (drawUntil next' accept fuel) := by
  -- on the number of draws left
  induction fuel with
  | zero =>
      intro s b hb
      cases hb
  | succ fuel ih =>
      intro s b hb
      simp only [Sampling.drawUntil] at hb ⊢
      cases hn : next s with
      | none => simp [hn] at hb
      | some r =>
          simp only [hn, h hn] at hb ⊢
          split
          · rename_i haccept
            simpa [haccept] using hb
          · rename_i haccept
            exact ih (by simpa [haccept] using hb)

/-- Exchange two entries of a list. -/
def swap (xs : List Nat) (i j : Nat) : List Nat :=
  (xs.set i (xs.getD j 0)).set j (xs.getD i 0)

/-- Positions `i`, `i - 1`, …, 1 are exchanged in turn with one that
`pick` chooses. -/
def shuffleWith (pick : Nat → σ → Option (Nat × σ)) : Nat → List Nat → σ → Option (List Nat)
  | 0, xs, _ => some xs
  | i + 1, xs, s =>
      match pick (i + 1) s with
      | none => none
      | some (j, s') => shuffleWith pick i (swap xs (i + 1) j) s'

theorem Below.shuffleWith {pick pick' : Nat → σ → Option (Nat × σ)}
    (h : ∀ i, Below (pick i) (pick' i)) (i : Nat) (xs : List Nat) :
    Below (shuffleWith pick i xs) (shuffleWith pick' i xs) := by
  induction i generalizing xs with
  | zero =>
      intro s ys hys
      exact hys
  | succ i ih =>
      intro s ys hys
      simp only [Sampling.shuffleWith] at hys ⊢
      cases hp : pick (i + 1) s with
      | none => simp [hp] at hys
      | some r =>
          simp only [hp, h (i + 1) hp] at hys ⊢
          exact ih _ hys

/-- A shuffled list has the length it had. -/
theorem length_of_shuffleWith {pick : Nat → σ → Option (Nat × σ)} {i : Nat} {xs ys : List Nat}
    {s : σ} (h : shuffleWith pick i xs s = some ys) : ys.length = xs.length := by
  induction i generalizing xs s with
  | zero =>
      cases h
      rfl
  | succ i ih =>
      simp only [shuffleWith] at h
      split at h
      · cases h
      · rw [ih h]
        simp [swap]

/-- What holds of zero and of every entry holds of every entry after the
shuffle. -/
theorem forall_of_shuffleWith {P : Nat → Prop} (hzero : P 0)
    {pick : Nat → σ → Option (Nat × σ)} {i : Nat} {xs ys : List Nat} {s : σ}
    (h : shuffleWith pick i xs s = some ys) (hxs : ∀ x ∈ xs, P x) : ∀ y ∈ ys, P y := by
  have hget : ∀ (xs : List Nat) (j : Nat), (∀ x ∈ xs, P x) → P (xs.getD j 0) := by
    intro xs j hxs
    rw [List.getD_eq_getElem?_getD]
    cases hj : xs[j]? with
    | none => exact hzero
    | some x => exact hxs x (List.mem_of_getElem? hj)
  induction i generalizing xs s with
  | zero =>
      cases h
      exact hxs
  | succ i ih =>
      simp only [shuffleWith] at h
      split at h
      · cases h
      · refine ih h ?_
        intro x hx
        rcases List.mem_or_eq_of_mem_set hx with hx | rfl
        · rcases List.mem_or_eq_of_mem_set hx with hx | rfl
          · exact hxs x hx
          · exact hget _ _ hxs
        · exact hget _ _ hxs

/-- What is exchanged is there. -/
theorem swap_eq {xs : List Nat} {i j : Nat} (hi : i < xs.length) (hj : j < xs.length) :
    swap xs i j = (xs.set i xs[j]).set j xs[i] := by
  have hget : ∀ {k : Nat} (hk : k < xs.length), xs.getD k 0 = xs[k] := by
    intro k hk
    rw [List.getD_eq_getElem?_getD, List.getElem?_eq_getElem hk]
    rfl
  rw [swap, hget hi, hget hj]

/-- An exchange keeps the entries. -/
theorem swap_perm {xs : List Nat} {i j : Nat} (hi : i < xs.length) (hj : j < xs.length) :
    (swap xs i j).Perm xs := by
  rw [swap_eq hi hj]
  exact List.set_set_perm hi hj

/-- **A shuffle keeps the entries**, when every pick is at or below the
position it is made for. -/
theorem perm_of_shuffleWith {pick : Nat → σ → Option (Nat × σ)}
    (hpick : ∀ {i s j s'}, pick i s = some (j, s') → j ≤ i) {i : Nat} {xs ys : List Nat} {s : σ}
    (h : shuffleWith pick i xs s = some ys) (hi : i < xs.length) : ys.Perm xs := by
  induction i generalizing xs s with
  | zero =>
      cases h
      exact .refl _
  | succ i ih =>
      simp only [shuffleWith] at h
      split at h
      · cases h
      · rename_i j s' hp
        have hj : j < xs.length := Nat.lt_of_le_of_lt (hpick hp) hi
        have hlen : (swap xs (i + 1) j).length = xs.length := by simp [swap]
        exact (ih h (by omega)).trans (swap_perm hi hj)

end Basis.Sampling
