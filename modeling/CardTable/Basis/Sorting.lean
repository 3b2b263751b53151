import Mathlib.Data.List.Sort

/-!
# Sorting — one list in two orders

Two programs that sort the same entries, each in an order of its own,
write the same list exactly when the two orders agree on the entries of
that list. The orders need not tell all entries apart, as long as they
have the same ties.
-/

namespace Basis

variable {α : Type} {r s : α → α → Prop}

/-- A list that is sorted in two orders is one they agree on. -/
theorem same_order_of_pairwise {xs : List α} (hrefl : ∀ a, r a a) (hrefl' : ∀ a, s a a)
    (hties : ∀ a b, r a b ∧ r b a ↔ s a b ∧ s b a) (hr : xs.Pairwise r) (hs : xs.Pairwise s) :
    ∀ a ∈ xs, ∀ b ∈ xs, r a b ↔ s a b := by
  -- of a pair in order only a tie can be turned around
  have hback : ∀ {a b}, r a b ∧ s a b → (r b a ↔ s b a) := by
    intro a b hab
    constructor
    · intro h
      exact ((hties a b).mp ⟨hab.1, h⟩).2
    · intro h
      exact ((hties a b).mpr ⟨hab.2, h⟩).2
  refine List.Pairwise.forall_of_forall_of_flip ?_ ?_ ?_
  · exact fun a _ => iff_of_true (hrefl a) (hrefl' a)
  · exact (hr.and hs).imp fun h => iff_of_true h.1 h.2
  · exact (hr.and hs).imp hback

/-- **Two orders sort a list alike exactly when they agree on it.** -/
theorem insertionSort_eq_iff [DecidableRel r] [DecidableRel s] [Std.Total r] [IsTrans α r]
    [Std.Total s] [IsTrans α s] (hties : ∀ a b, r a b ∧ r b a ↔ s a b ∧ s b a) {xs : List α} :
    xs.insertionSort r = xs.insertionSort s ↔ ∀ a ∈ xs, ∀ b ∈ xs, r a b ↔ s a b := by
  constructor
  · intro heq
    have hr := List.pairwise_insertionSort r xs
    have hs := List.pairwise_insertionSort s xs
    rw [← heq] at hs
    have hsame := same_order_of_pairwise (Std.Refl.refl (r := r)) (Std.Refl.refl (r := s))
      hties hr hs
    intro a ha b hb
    exact hsame a ((List.mem_insertionSort r).mpr ha) b ((List.mem_insertionSort r).mpr hb)
  · intro horder
    simpa only [List.map_id] using List.map_insertionSort r s id xs horder

end Basis
