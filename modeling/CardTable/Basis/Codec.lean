import CardTable.Basis.Outcome
import Mathlib.Data.Option.Defs

/-!
# Codec — codes that say where they end

A code is a relation: `E a x` says that the symbols `x` are written for
the value `a`. It *delimits* when a reader who is handed a code followed
by anything at all finds the end of the code without help: two codes with
arbitrary continuations that are the same text are the same value, up to
what the code forgets, and have the same continuation.

Codes of records are read field by field with `Delimits`; the rules below
cover the shapes fields have.
-/

namespace Basis.Codec

variable {α β : Type} {E F : α → List β → Prop} {R S : α → α → Prop} {C : Nat → List β → Prop}

/-- `E` delimits its codes and keeps of a value what `R` compares. -/
def Delimits (E : α → List β → Prop) (R : α → α → Prop) : Prop :=
  ∀ ⦃a b : α⦄ ⦃x y r s : List β⦄, E a x → E b y → x ++ r = y ++ s → R a b ∧ r = s

/-- A code that delimits is injective. -/
theorem Delimits.injective (h : Delimits E R) {a b : α} {x : List β} (ha : E a x) (hb : E b x) :
    R a b :=
  (h ha hb (rfl : x ++ [] = x ++ [])).1

/-- A stricter code keeps as much. -/
theorem Delimits.mono (h : Delimits E R) (hF : ∀ a x, F a x → E a x)
    (hS : ∀ a b, R a b → S a b) : Delimits F S := by
  intro a b x y r s hx hy heq
  obtain ⟨hab, hrest⟩ := h (hF a x hx) (hF b y hy) heq
  exact ⟨hS a b hab, hrest⟩

/-- Codes of one length. -/
theorem Delimits.ofLength (n : Nat) (hlen : ∀ a x, E a x → x.length = n)
    (hread : ∀ a b x, E a x → E b x → R a b) : Delimits E R := by
  intro a b x y r s hx hy heq
  have hxy : x.length = y.length := (hlen a x hx).trans (hlen b y hy).symm
  obtain ⟨rfl, hrest⟩ := List.append_inj heq hxy
  exact ⟨hread a b x hx hy, hrest⟩

/-! ## Optional values -/

/-- The number of entries, then the entries one after another. -/
def Counted (C : Nat → List β → Prop) (E : α → List β → Prop) (xs : List α) (w : List β) : Prop :=
  ∃ c parts, C xs.length c ∧ List.Forall₂ E xs parts ∧ w = c ++ parts.flatten

theorem exists_of_mem_forall₂ {γ : Type} {T : α → γ → Prop} {xs : List α} {ys : List γ}
    (h : List.Forall₂ T xs ys) {a : α} (ha : a ∈ xs) : ∃ b, T a b := by
  induction h with
  | nil => cases ha
  | cons hab _ ih =>
      rcases List.mem_cons.mp ha with rfl | ha
      · exact ⟨_, hab⟩
      · exact ih ha

theorem exists_forall₂ {γ : Type} {T : α → γ → Prop} {xs : List α} (h : ∀ a ∈ xs, ∃ b, T a b) :
    ∃ ys, List.Forall₂ T xs ys := by
  induction xs with
  | nil => exact ⟨[], .nil⟩
  | cons a xs ih =>
      obtain ⟨b, hb⟩ := h a List.mem_cons_self
      obtain ⟨ys, hys⟩ := ih (fun c hc => h c (List.mem_cons_of_mem _ hc))
      exact ⟨b :: ys, .cons hb hys⟩

/-- A list is written by a loop that stops at the first entry without a
code. -/
theorem counted_mapM {ε : Type} {enc : α → Except ε (List β)} {count : Nat → List β}
    {items : List α} {w : List β} :
    (items.mapM enc >>= fun parts => pure (count items.length ++ parts.flatten)) = .ok w ↔
      Counted (fun n c => c = count n) (fun a x => enc a = .ok x) items w := by
  simp only [except_bind_eq_ok, except_mapM_eq_ok, Counted]
  constructor
  · intro hx
    obtain ⟨parts, hparts, h⟩ := hx
    cases h
    exact ⟨_, parts, rfl, hparts, rfl⟩
  · intro hx
    obtain ⟨_, parts, rfl, hparts, rfl⟩ := hx
    exact ⟨parts, hparts, rfl⟩

/-- A list has a code when its entries have. -/
theorem exists_counted_iff {count : Nat → List β} {items : List α} :
    (∃ w, Counted (fun n c => c = count n) E items w) ↔ ∀ a ∈ items, ∃ x, E a x := by
  constructor
  · intro h a ha
    obtain ⟨_, _, parts, _, hparts, _⟩ := h
    exact exists_of_mem_forall₂ hparts ha
  · intro hall
    obtain ⟨parts, hparts⟩ := exists_forall₂ hall
    exact ⟨_, _, parts, rfl, hparts, rfl⟩

/-- As many entries on both sides are read in step. -/
theorem Delimits.entries (h : Delimits E R) {xs ys : List α} {parts parts' : List (List β)}
    {r s : List β} (hlen : xs.length = ys.length) (hx : List.Forall₂ E xs parts)
    (hy : List.Forall₂ E ys parts') (heq : parts.flatten ++ r = parts'.flatten ++ s) :
    List.Forall₂ R xs ys ∧ r = s := by
  -- along the first list; the equal lengths keep the second in step
  induction hx generalizing ys parts' with
  | nil =>
      cases hy with
      | nil => exact ⟨.nil, heq⟩
      | cons _ _ => cases hlen
  | cons ha _ ih =>
      cases hy with
      | nil => cases hlen
      | cons hb hrest =>
          simp only [List.flatten_cons, List.append_assoc] at heq
          obtain ⟨hab, heq⟩ := h ha hb heq
          obtain ⟨hall, hend⟩ := ih (Nat.succ.inj hlen) hrest heq
          exact ⟨.cons hab hall, hend⟩

theorem Delimits.counted (hC : Delimits C Eq) (h : Delimits E R) :
    Delimits (Counted C E) (List.Forall₂ R) := by
  intro xs ys _ _ r s hxs hys heq
  obtain ⟨c, parts, hc, hx, rfl⟩ := hxs
  obtain ⟨d, parts', hd, hy, rfl⟩ := hys
  simp only [List.append_assoc] at heq
  obtain ⟨hlen, heq⟩ := hC hc hd heq
  exact h.entries hlen hx hy heq

theorem Delimits.counted_eq (hC : Delimits C Eq) (h : Delimits E Eq) :
    Delimits (Counted C E) Eq := by
  refine (hC.counted h).mono (fun _ _ hx => hx) ?_
  intro xs ys hrel
  rwa [List.forall₂_eq_eq_eq] at hrel

/-- Codes that are not empty need no count before the end of a text. -/
theorem Delimits.concat (h : Delimits E R) (hne : ∀ a x, E a x → x ≠ []) {xs ys : List α}
    {parts parts' : List (List β)} (hx : List.Forall₂ E xs parts)
    (hy : List.Forall₂ E ys parts') (heq : parts.flatten = parts'.flatten) :
    List.Forall₂ R xs ys := by
  induction hx generalizing ys parts' with
  | nil =>
      cases hy with
      | nil => exact .nil
      | cons hb _ => simp [hne _ _ hb] at heq
  | cons ha _ ih =>
      cases hy with
      | nil => simp [hne _ _ ha] at heq
      | cons hb hrest =>
          simp only [List.flatten_cons] at heq
          obtain ⟨hab, heq⟩ := h ha hb heq
          exact .cons hab (ih hrest heq)

/-- A list of such codes without a count is read back. -/
theorem Delimits.flatMap_inj {P : α → Prop} {code : α → List β}
    (h : Delimits (fun a x => P a ∧ x = code a) Eq) (hne : ∀ a, P a → code a ≠ []) {xs ys : List α}
    (hxs : ∀ a ∈ xs, P a) (hys : ∀ a ∈ ys, P a) (heq : xs.flatMap code = ys.flatMap code) :
    xs = ys := by
  have hcoded : ∀ as : List α, (∀ a ∈ as, P a) →
      List.Forall₂ (fun a x => P a ∧ x = code a) as (as.map code) := by
    intro as has
    induction as with
    | nil => exact .nil
    | cons a as ih =>
        obtain ⟨ha, hrest⟩ := List.forall_mem_cons.mp has
        exact .cons ⟨ha, rfl⟩ (ih hrest)
  have hnonempty : ∀ a x, P a ∧ x = code a → x ≠ [] := by
    rintro a _ ⟨ha, rfl⟩
    exact hne a ha
  rw [List.flatMap_def, List.flatMap_def] at heq
  have hrel := h.concat hnonempty (hcoded xs hxs) (hcoded ys hys) heq
  rwa [List.forall₂_eq_eq_eq] at hrel

end Basis.Codec
