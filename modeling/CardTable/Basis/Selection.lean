import Mathlib.Order.Lattice

/-!
# Selection — folding a binary choice

A binary function that returns one of its arguments, and one of least
key, chooses a least entry however a list is fed to it. `Bracketing` is
the shape of such a feeding: a binary tree whose leaves are the entries.
When the keys tell the entries apart the winner depends on nothing but
the entries there are.
-/

namespace Basis

variable {α κ : Type}

/-- An order of feeding a binary function. -/
inductive Bracketing (α : Type) where
  | leaf (a : α)
  | node (left right : Bracketing α)

namespace Bracketing

/-- The entries, from left to right. -/
def leaves : Bracketing α → List α
  | leaf a => [a]
  | node left right => left.leaves ++ right.leaves

/-- Feed the entries to `op` in this order. -/
def fold (op : α → α → α) : Bracketing α → α
  | leaf a => a
  | node left right => op (left.fold op) (right.fold op)

/-- The left-to-right order of a list. -/
def ofList (a : α) (as : List α) : Bracketing α := as.foldl (fun t b => node t (leaf b)) (leaf a)

theorem leaves_foldl (t : Bracketing α) (as : List α) :
    (as.foldl (fun t b => node t (leaf b)) t).leaves = t.leaves ++ as := by
  induction as generalizing t with
  | nil => simp
  | cons a as ih => simp [ih, leaves]

theorem fold_foldl (op : α → α → α) (t : Bracketing α) (as : List α) :
    (as.foldl (fun t b => node t (leaf b)) t).fold op = as.foldl op (t.fold op) := by
  induction as generalizing t with
  | nil => rfl
  | cons a as ih => rw [List.foldl_cons, List.foldl_cons, ih, fold, fold]

theorem leaves_ofList (a : α) (as : List α) : (ofList a as).leaves = a :: as :=
  leaves_foldl (leaf a) as

/-- Folding a list is one of the orders. -/
theorem fold_ofList (op : α → α → α) (a : α) (as : List α) :
    (ofList a as).fold op = as.foldl op a :=
  fold_foldl op (leaf a) as

end Bracketing

/-- `op` returns one of its arguments, one whose key is least. -/
structure Selects [LE κ] (op : α → α → α) (key : α → κ) : Prop where
  either : ∀ a b, op a b = a ∨ op a b = b
  le_left : ∀ a b, key (op a b) ≤ key a
  le_right : ∀ a b, key (op a b) ≤ key b

namespace Selects

variable {op op' : α → α → α} {key : α → κ}

theorem mem_leaves [LE κ] (h : Selects op key) (t : Bracketing α) : t.fold op ∈ t.leaves := by
  induction t with
  | leaf a => exact List.mem_singleton_self a
  | node left right ihl ihr =>
      rw [Bracketing.fold, Bracketing.leaves, List.mem_append]
      rcases h.either (left.fold op) (right.fold op) with heq | heq
      · rw [heq]
        exact .inl ihl
      · rw [heq]
        exact .inr ihr

theorem le_of_mem [Preorder κ] (h : Selects op key) (t : Bracketing α) :
    ∀ a ∈ t.leaves, key (t.fold op) ≤ key a := by
  induction t with
  | leaf a =>
      intro b hb
      rw [List.mem_singleton.mp hb]
      exact le_refl _
  | node left right ihl ihr =>
      intro a ha
      rw [Bracketing.fold]
      rcases List.mem_append.mp ha with ha | ha
      · exact (h.le_left _ _).trans (ihl a ha)
      · exact (h.le_right _ _).trans (ihr a ha)

/-- Two functions that agree on the entries of an order agree on its
winner: a selection never leaves the entries. -/
theorem fold_congr [LE κ] (h : Selects op key) (t : Bracketing α)
    (heq : ∀ a ∈ t.leaves, ∀ b ∈ t.leaves, op' a b = op a b) : t.fold op' = t.fold op := by
  induction t with
  | leaf a => rfl
  | node left right ihl ihr =>
      simp only [Bracketing.leaves, List.mem_append] at heq
      have hleft : left.fold op' = left.fold op :=
        ihl fun a ha b hb => heq a (.inl ha) b (.inl hb)
      have hright : right.fold op' = right.fold op :=
        ihr fun a ha b hb => heq a (.inr ha) b (.inr hb)
      rw [Bracketing.fold, Bracketing.fold, hleft, hright]
      exact heq _ (.inl (h.mem_leaves left)) _ (.inr (h.mem_leaves right))

/-- **The winner is the least entry**: an entry of least key is what
every order of feeding chooses, when the keys tell the entries apart. -/
theorem fold_eq [PartialOrder κ] (h : Selects op key) {t : Bracketing α} {w : α}
    (hw : w ∈ t.leaves) (hleast : ∀ a ∈ t.leaves, key w ≤ key a)
    (hinj : ∀ a ∈ t.leaves, ∀ b ∈ t.leaves, key a = key b → a = b) : t.fold op = w := by
  have hmem := h.mem_leaves t
  refine hinj _ hmem _ hw (le_antisymm ?_ ?_)
  · exact h.le_of_mem t w hw
  · exact hleast _ hmem

end Selects

end Basis
