/-!
# Rotation — turns around a ring

A ring is a list without repetitions, walked from left to right.
`nextOnRing ring a` is the element after `a`, and `none` after the last
one. A program that walks the ring by index wraps round instead;
`wrap_eq` says what its index arithmetic computes. Positions are
`idxOf`, so that a walk of `n` steps from `a` is an equation between
numbers (`idxOf_next`).
-/

namespace Basis

variable {α : Type} [DecidableEq α] {ring : List α} {a b : α}

/-- The element after `a`, if `a` is not the last. -/
def nextOnRing (ring : List α) (a : α) : Option α := ring[ring.idxOf a + 1]?

theorem getElem?_idxOf (ha : a ∈ ring) : ring[ring.idxOf a]? = some a := by
  rw [List.getElem?_eq_getElem (List.idxOf_lt_length_of_mem ha), List.getElem_idxOf]

theorem idxOf?_of_mem (ha : a ∈ ring) : ring.idxOf? a = some (ring.idxOf a) := by
  induction ring with
  | nil => cases ha
  | cons x rest ih =>
      rw [List.idxOf?_cons, List.idxOf_cons]
      by_cases hx : x = a
      · simp [hx]
      · rcases List.mem_cons.mp ha with rfl | ha
        · exact absurd rfl hx
        · rw [beq_false_of_ne hx, ih ha]
          rfl

theorem idxOf?_map {β : Type} [DecidableEq β] {f : α → β} (hf : ∀ x y, f x = f y → x = y)
    (ring : List α) (a : α) : (ring.map f).idxOf? (f a) = ring.idxOf? a := by
  induction ring with
  | nil => rfl
  | cons x rest ih =>
      rw [List.map_cons, List.idxOf?_cons, List.idxOf?_cons, ih]
      by_cases hx : x = a
      · simp [hx]
      · have hfx : (f x == f a) = false := beq_false_of_ne fun h => hx (hf x a h)
        rw [hfx, beq_false_of_ne hx]

theorem idxOf_inj (ha : a ∈ ring) (h : ring.idxOf a = ring.idxOf b) (hb : b ∈ ring) :
    a = b := by
  have h₁ := getElem?_idxOf ha
  have h₂ := getElem?_idxOf hb
  rw [h, h₂] at h₁
  exact (Option.some.inj h₁).symm

/-- On a ring the position of what stands at index `i` is `i`. -/
theorem idxOf_of_getElem? (hnd : ring.Nodup) {i : Nat} (h : ring[i]? = some a) :
    ring.idxOf a = i := by
  have ha : a ∈ ring := List.mem_of_getElem? h
  have hlt : ring.idxOf a < ring.length := List.idxOf_lt_length_of_mem ha
  exact (List.getElem?_inj hlt hnd).mp (by rw [getElem?_idxOf ha, h])

/-- One step of the walk moves one position on. -/
theorem idxOf_next (hnd : ring.Nodup) (h : nextOnRing ring a = some b) :
    ring.idxOf b = ring.idxOf a + 1 :=
  idxOf_of_getElem? hnd h

theorem mem_of_nextOnRing (h : nextOnRing ring a = some b) : b ∈ ring :=
  List.mem_of_getElem? h

/-- The walk ends at the last position. -/
theorem nextOnRing_eq_none (ha : a ∈ ring) :
    nextOnRing ring a = none ↔ ring.idxOf a + 1 = ring.length := by
  have hlt : ring.idxOf a < ring.length := List.idxOf_lt_length_of_mem ha
  simp only [nextOnRing, List.getElem?_eq_none_iff]
  omega

/-- Where the index of a program that walks the ring modulo its length
lands: on the next element, and past the last one on the first. -/
theorem wrap_eq {first : α} {rest : List α} (ha : a ∈ first :: rest) :
    (first :: rest).getD (((first :: rest).idxOf a + 1) % (first :: rest).length) first =
      (nextOnRing (first :: rest) a).getD first := by
  have hlt : (first :: rest).idxOf a < (first :: rest).length := List.idxOf_lt_length_of_mem ha
  rw [nextOnRing, List.getD_eq_getElem?_getD]
  by_cases hlast : (first :: rest).idxOf a + 1 = (first :: rest).length
  · rw [hlast, Nat.mod_self]
    simp
  · rw [Nat.mod_eq_of_lt (by omega)]

/-- The index comes back to the first element exactly when the walk has
ended. -/
theorem wrap_eq_first {first : α} {rest : List α} (hnd : (first :: rest).Nodup) :
    (nextOnRing (first :: rest) a).getD first = first ↔
      nextOnRing (first :: rest) a = none := by
  cases h : nextOnRing (first :: rest) a with
  | none => simp
  | some b =>
      have hb := idxOf_next hnd h
      simp only [Option.getD_some, reduceCtorEq, iff_false]
      intro hfirst
      rw [hfirst] at hb
      simp at hb

/-- Renaming the elements of a ring renames the walk. -/
theorem nextOnRing_map {β : Type} [DecidableEq β] {f : α → β}
    (hf : ∀ x y, f x = f y → x = y) (ring : List α) (a : α) :
    nextOnRing (ring.map f) (f a) = (nextOnRing ring a).map f := by
  have hidx : (ring.map f).idxOf (f a) = ring.idxOf a := by
    induction ring with
    | nil => rfl
    | cons x rest ih =>
        simp only [List.map_cons, List.idxOf_cons]
        by_cases hx : x = a
        · simp [hx]
        · have hfx : (f x == f a) = false := beq_false_of_ne fun h => hx (hf x a h)
          rw [hfx, beq_false_of_ne hx, ih]
  simp only [nextOnRing, hidx, List.getElem?_map]

/-! ## Sorted rings -/

/-- Two sorted arrangements of the same elements are equal, so a ring
does not depend on the algorithm that sorted it. -/
theorem sorted_perm_unique {l₁ l₂ : List Int} (h₁ : l₁.Pairwise (· ≤ ·))
    (h₂ : l₂.Pairwise (· ≤ ·)) (hp : l₁.Perm l₂) : l₁ = l₂ :=
  hp.eq_of_pairwise (fun _ _ _ _ hab hba => Int.le_antisymm hab hba) h₁ h₂

/-- On a sorted ring the first position belongs to the least element. -/
theorem idxOf_eq_zero_iff {ring : List Int} {a : Int} (hs : ring.Pairwise (· ≤ ·))
    (hnd : ring.Nodup) (ha : a ∈ ring) : ring.idxOf a = 0 ↔ ∀ b ∈ ring, a ≤ b := by
  cases ring with
  | nil => cases ha
  | cons first rest =>
      obtain ⟨hfirst, _⟩ := List.pairwise_cons.mp hs
      constructor
      · intro h b hb
        have : a = first := by
          have hget := getElem?_idxOf ha
          rw [h] at hget
          simpa using hget.symm
        subst this
        rcases List.mem_cons.mp hb with rfl | hb
        · exact Int.le_refl _
        · exact hfirst b hb
      · intro h
        have hle : a ≤ first := h first (List.mem_cons_self ..)
        rcases List.mem_cons.mp ha with rfl | ha
        · simp
        · have : a = first := Int.le_antisymm hle (hfirst a ha)
          subst this
          simp

/-! ## A record of a list replaced in place -/

/-- Replacing an entry by one with the same key keeps the list of keys. -/
theorem map_set_of_eq {β γ : Type} {f : β → γ} {l : List β} {i : Nat} {x y : β}
    (hx : l[i]? = some x) (hf : f y = f x) : (l.set i y).map f = l.map f := by
  rw [List.map_set, hf]
  apply List.ext_getElem?
  intro j
  rw [List.getElem?_set]
  by_cases hij : i = j
  · subst hij
    obtain ⟨hlt, hget⟩ := List.getElem?_eq_some_iff.mp hx
    simp [hlt, hget]
  · simp [hij]

/-- Replacing an entry of a kind by one not of the kind leaves one fewer
of the kind. -/
theorem countP_set_of_false {β : Type} {p : β → Bool} {l : List β} {i : Nat} {x y : β}
    (hx : l[i]? = some x) (hpx : p x = true) (hpy : p y = false) :
    (l.set i y).countP p + 1 = l.countP p := by
  obtain ⟨hlt, rfl⟩ := List.getElem?_eq_some_iff.mp hx
  have hpos : 0 < l.countP p := List.countP_pos_iff.mpr ⟨_, List.getElem_mem hlt, hpx⟩
  rw [List.countP_set hlt, if_pos hpx, hpy, if_neg Bool.false_ne_true]
  omega

end Basis
