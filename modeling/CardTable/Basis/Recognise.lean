import CardTable.Basis.Codec
import Mathlib.Algebra.Order.BigOperators.Group.List
import Mathlib.Algebra.Order.Group.Nat

/-!
# Recognise — all the codes a decoder accepts

A decoder takes what is left of a text to a value and what is left
behind it. It *recognises* a code relation when it accepts the codes of
the relation and no others, whatever comes behind them. More than one
code may stand for a value; the relation says which.

What a decoder recognises is put together from what its steps recognise,
and says where a code ends.
-/

namespace Basis

variable {κ ε α β γ : Type}

/-- `d` accepts exactly the codes of `C`. -/
def Recognises (d : StateT (List β) (Outcome κ ε) α) (C : α → List β → Prop) : Prop :=
  ∀ xs a rest, d xs = .ok (a, rest) ↔ ∃ w, C a w ∧ xs = w ++ rest

namespace Recognises

variable {d : StateT (List β) (Outcome κ ε) α} {C D : α → List β → Prop}

/-- A code that is accepted is read. -/
theorem run (h : Recognises d C) {a : α} {w : List β} (hw : C a w) (rest : List β) :
    d (w ++ rest) = .ok (a, rest) :=
  (h _ _ _).mpr ⟨w, hw, rfl⟩

theorem congr (h : Recognises d C) (hCD : ∀ a w, C a w ↔ D a w) : Recognises d D := by
  intro xs a rest
  rw [h]
  constructor
  · rintro ⟨w, hw, rfl⟩
    exact ⟨w, (hCD a w).mp hw, rfl⟩
  · rintro ⟨w, hw, rfl⟩
    exact ⟨w, (hCD a w).mpr hw, rfl⟩

/-- Nothing is read for a value that is there. -/
theorem pure (a : α) :
    Recognises (pure a : StateT (List β) (Outcome κ ε) α) fun b w => b = a ∧ w = [] := by
  intro xs b rest
  constructor
  · intro h
    cases h
    exact ⟨[], ⟨rfl, rfl⟩, rfl⟩
  · rintro ⟨w, ⟨rfl, rfl⟩, rfl⟩
    rfl

/-- A code behind a code; what comes second need only be known behind
what can come first. -/
theorem bind_of {k : α → StateT (List β) (Outcome κ ε) γ} {E : α → γ → List β → Prop}
    (hd : Recognises d C) (hk : ∀ a u, C a u → Recognises (k a) (E a)) :
    Recognises (d >>= k) fun c w => ∃ a u v, C a u ∧ E a c v ∧ w = u ++ v := by
  intro xs c rest
  have hstep : (d >>= k) xs = .ok (c, rest) ↔
      ∃ r : α × List β, d xs = .ok r ∧ k r.1 r.2 = .ok (c, rest) := Outcome.bind_eq_ok
  rw [hstep]
  constructor
  · rintro ⟨⟨a, mid⟩, hfirst, hsecond⟩
    obtain ⟨u, hu, rfl⟩ := (hd _ _ _).mp hfirst
    obtain ⟨v, hv, rfl⟩ := (hk a u hu _ _ _).mp hsecond
    exact ⟨u ++ v, ⟨a, u, v, hu, hv, rfl⟩, (List.append_assoc u v rest).symm⟩
  · rintro ⟨w, ⟨a, u, v, hu, hv, rfl⟩, rfl⟩
    rw [List.append_assoc]
    exact ⟨(a, v ++ rest), hd.run hu _, (hk a u hu).run hv rest⟩

theorem bind {k : α → StateT (List β) (Outcome κ ε) γ} {E : α → γ → List β → Prop}
    (hd : Recognises d C) (hk : ∀ a, Recognises (k a) (E a)) :
    Recognises (d >>= k) fun c w => ∃ a u v, C a u ∧ E a c v ∧ w = u ++ v :=
  hd.bind_of fun a _ _ => hk a

/-- Behind a value with one code. -/
theorem bind_code {P : α → Prop} {code : α → List β} {k : α → StateT (List β) (Outcome κ ε) γ}
    {E : α → γ → List β → Prop} (hd : Recognises d fun a w => P a ∧ w = code a)
    (hk : ∀ a, Recognises (k a) (E a)) :
    Recognises (d >>= k) fun c w => ∃ a v, (P a ∧ E a c v) ∧ w = code a ++ v := by
  refine (hd.bind hk).congr fun c w => ?_
  constructor
  · rintro ⟨a, _, v, ⟨ha, rfl⟩, hv, rfl⟩
    exact ⟨a, v, ⟨ha, hv⟩, rfl⟩
  · rintro ⟨a, v, ⟨ha, hv⟩, rfl⟩
    exact ⟨a, _, v, ⟨ha, rfl⟩, hv, rfl⟩

/-- A last step that only computes. -/
theorem map {f : α → γ} (hd : Recognises d C) :
    Recognises (d >>= fun a => Pure.pure (f a)) fun c w => ∃ a, C a w ∧ c = f a := by
  refine (hd.bind fun a => Recognises.pure (f a)).congr fun c w => ?_
  constructor
  · rintro ⟨a, u, v, hu, ⟨rfl, rfl⟩, rfl⟩
    exact ⟨a, by rwa [List.append_nil], rfl⟩
  · rintro ⟨a, hw, rfl⟩
    exact ⟨a, w, [], hw, ⟨rfl, rfl⟩, (List.append_nil w).symm⟩

/-- A check that stops the decoder. -/
theorem guard {p : Prop} [Decidable p] {stop : StateT (List β) (Outcome κ ε) α}
    (hstop : ∀ xs r, stop xs ≠ .ok r) (hd : Recognises d C) :
    Recognises (if p then stop else d) fun a w => ¬p ∧ C a w := by
  intro xs a rest
  by_cases hp : p
  · rw [if_pos hp]
    refine iff_of_false (hstop _ _) ?_
    rintro ⟨w, ⟨hnot, -⟩, -⟩
    exact hnot hp
  · rw [if_neg hp, hd]
    simp [hp]

/-- **A decoder says where a code ends.** -/
theorem delimits (h : Recognises d C) : Codec.Delimits C Eq := by
  intro a b x y r s hx hy heq
  have hfirst := h.run hx r
  rw [heq, h.run hy s] at hfirst
  cases hfirst
  exact ⟨rfl, rfl⟩

end Recognises

/-! ## Lists that come back -/

/-- **A map that permutes a list fixes it**, when it lowers a measure
wherever it moves something. -/
theorem fixed_of_perm {f : α → α} {weight : α → Nat} (hmove : ∀ a, f a ≠ a → weight (f a) < weight a)
    {xs : List α} (hperm : (xs.map f).Perm xs) : ∀ a ∈ xs, f a = a := by
  intro a ha
  by_contra hne
  have hle : ∀ b ∈ xs, weight (f b) ≤ weight b := by
    intro b _
    by_cases hb : f b = b
    · rw [hb]
    · exact (hmove b hb).le
  have hlt : (xs.map fun b => weight (f b)).sum < (xs.map weight).sum :=
    List.sum_lt_sum _ _ hle ⟨a, ha, hmove a hne⟩
  have hsum := (hperm.map weight).sum_eq
  rw [List.map_map] at hsum
  exact absurd hsum hlt.ne

end Basis
