import Mathlib.Data.List.Forall2

/-!
# Outcome — how a fallible call ends

A call can return a value, return an error its caller is meant to look
at, or not return at all: it throws out of the caller, or it loops for
ever. `Outcome κ ε α` keeps the three apart. `ε` is the error the call
reports and `κ` says what happened when it did not report anything.
-/

namespace Basis

/-- How a call ends: with a value, with a reported error, or with
neither (`halt`: an uncaught exception, or no return). -/
inductive Outcome (κ ε α : Type) where
  | ok (a : α)
  | err (e : ε)
  | halt (k : κ)
  deriving DecidableEq, Repr

namespace Outcome

variable {κ ε α β : Type}

/-- Sequencing: only a value reaches the rest of the caller. -/
def bind : Outcome κ ε α → (α → Outcome κ ε β) → Outcome κ ε β
  | .ok a, f => f a
  | .err e, _ => .err e
  | .halt k, _ => .halt k

instance : Monad (Outcome κ ε) where
  pure := .ok
  bind := bind

@[simp] theorem pure_eq (a : α) : (pure a : Outcome κ ε α) = .ok a := rfl

@[simp] theorem ok_bind (a : α) (f : α → Outcome κ ε β) :
    (Outcome.ok a >>= f) = f a := rfl

@[simp] theorem err_bind (e : ε) (f : α → Outcome κ ε β) :
    (Outcome.err e >>= f) = .err e := rfl

@[simp] theorem halt_bind (k : κ) (f : α → Outcome κ ε β) :
    (Outcome.halt k >>= f) = .halt k := rfl

@[simp] theorem map_ok (f : α → β) (a : α) :
    f <$> (Outcome.ok a : Outcome κ ε α) = .ok (f a) := rfl

/-- Loops over calls can be cut into pieces with the library's lemmas. -/
instance : LawfulMonad (Outcome κ ε) :=
  LawfulMonad.mk' (Outcome κ ε)
    (by
      intro α x
      cases x with
      | _ => rfl)
    (fun _ _ => rfl)
    (by
      intro α β γ x f g
      cases x with
      | _ => rfl)

/-- Peel one computation off a chain that ended with a value. -/
theorem bind_eq_ok {x : Outcome κ ε α} {f : α → Outcome κ ε β} {b : β} :
    (x >>= f) = .ok b ↔ ∃ a, x = .ok a ∧ f a = .ok b := by
  cases x with
  | ok a => simp
  | err e => simp
  | halt k => simp

/-- Apply a function to the value, when there is one. -/
def map (f : α → β) : Outcome κ ε α → Outcome κ ε β
  | .ok a => .ok (f a)
  | .err e => .err e
  | .halt k => .halt k

/-- The value, when there is one. -/
def value? : Outcome κ ε α → Option α
  | .ok a => some a
  | _ => none

/-- The value of a sequence is that of its parts. -/
theorem value?_bind (x : Outcome κ ε α) (f : α → Outcome κ ε β) :
    (x >>= f).value? = x.value?.bind fun a => (f a).value? := by
  cases x with
  | ok a => rfl
  | err e => rfl
  | halt k => rfl

@[simp] theorem value?_eq_some {x : Outcome κ ε α} {a : α} :
    x.value? = some a ↔ x = .ok a := by
  cases x with
  | ok b => simp [value?]
  | err e => simp [value?]
  | halt k => simp [value?]

/-- A call that always reports its errors, run inside one that may not
return. -/
def ofExcept : Except ε α → Outcome κ ε α
  | .ok a => .ok a
  | .error e => .err e

@[simp] theorem ofExcept_ok (a : α) :
    (ofExcept (.ok a : Except ε α) : Outcome κ ε α) = .ok a := rfl

@[simp] theorem ofExcept_error (e : ε) :
    (ofExcept (.error e : Except ε α) : Outcome κ ε α) = .err e := rfl

theorem ofExcept_eq_ok {x : Except ε α} {a : α} :
    (ofExcept x : Outcome κ ε α) = .ok a ↔ x = .ok a := by
  cases x with
  | ok b => simp
  | error e => simp

end Outcome

/-! ## Except -/

section Except

variable {ε α β : Type}

/-- Peel one computation off a chain that ended with a value. -/
theorem except_bind_eq_ok {x : Except ε α} {f : α → Except ε β} {b : β} :
    (x >>= f) = .ok b ↔ ∃ a, x = .ok a ∧ f a = .ok b := by
  cases x with
  | ok a =>
      constructor
      · exact fun h => ⟨a, rfl, h⟩
      · intro hx
        obtain ⟨_, ⟨⟩, h⟩ := hx
        exact h
  | error e =>
      constructor
      · intro h
        cases h
      · intro hx
        obtain ⟨_, ⟨⟩, _⟩ := hx

theorem except_toOption_eq_some {x : Except ε α} {a : α} : x.toOption = some a ↔ x = .ok a := by
  cases x with
  | ok b => simp [Except.toOption]
  | error e => simp [Except.toOption]

/-- A call that is seen to succeed has a value. -/
theorem except_exists_of_isOk {x : Except ε α} (h : x.isOk = true) : ∃ a, x = .ok a := by
  cases x with
  | ok a => exact ⟨a, rfl⟩
  | error e => cases h

/-- A last step that cannot fail. -/
theorem except_bind_pure_isOk {x : Except ε α} {f : α → β} :
    (∃ b, (x >>= fun a => pure (f a)) = .ok b) ↔ ∃ a, x = .ok a := by
  cases x with
  | ok a => exact iff_of_true ⟨f a, rfl⟩ ⟨a, rfl⟩
  | error e =>
      constructor
      · intro h
        obtain ⟨_, h⟩ := h
        cases h
      · intro h
        obtain ⟨_, h⟩ := h
        cases h

/-- A loop that stops at the first error gives one value for each
entry. -/
theorem except_mapM_eq_ok {f : α → Except ε β} {xs : List α} {ys : List β} :
    xs.mapM f = .ok ys ↔ List.Forall₂ (fun a b => f a = .ok b) xs ys := by
  induction xs generalizing ys with
  | nil =>
      simp only [List.mapM_nil, List.forall₂_nil_left_iff]
      constructor
      · intro h
        cases h
        rfl
      · intro heq
        subst heq
        rfl
  | cons a xs ih =>
      simp only [List.mapM_cons, except_bind_eq_ok, ih, List.forall₂_cons_left_iff]
      constructor
      · intro hx
        obtain ⟨b, hb, bs, hbs, h⟩ := hx
        cases h
        exact ⟨b, bs, hb, hbs, rfl⟩
      · intro hx
        obtain ⟨b, bs, hb, hbs, rfl⟩ := hx
        exact ⟨b, hb, bs, hbs, rfl⟩

end Except

end Basis
