import CardTable.Basis.Codec

/-!
# Walk — reading a text by position

A walk over a text starts at a position and ends at another with a value,
or fails where the text does not go on as it should. On its way it may
note what it met; the notes stay when it fails later.

A walk says what a format is. Three things are said of it here: what it
*finds* in a text that holds a code, what it *restores* of a text when its
notes are as they should be, and when a decoder that keeps its position in
a state *follows* it. All three are proved step by step.
-/

namespace Basis

variable {β φ α γ κ ε : Type}

/-- The notes, and the value with the position after it. -/
def Walk (φ α : Type) : Type := Nat → List φ × Option (α × Nat)

namespace Walk

/-- Walk on with what was read. -/
protected def bind (m : Walk φ α) (k : α → Walk φ γ) : Walk φ γ := fun p =>
  match m p with
  | (notes, none) => (notes, none)
  | (notes, some (a, q)) => (notes ++ (k a q).1, (k a q).2)

instance : Monad (Walk φ) where
  pure a := fun p => ([], some (a, p))
  bind := Walk.bind

/-- Make a note. -/
def note (x : φ) : Walk φ Unit := fun p => ([x], some ((), p))

/-- The position. -/
def position : Walk φ Nat := fun p => ([], some (p, p))

/-- The next `n` symbols. -/
def take (text : List β) (n : Nat) : Walk φ (List β) := fun p =>
  if p + n ≤ text.length then ([], some ((text.drop p).take n, p + n)) else ([], none)

/-- The end of the text. -/
def done (text : List β) : Walk φ Unit := fun p =>
  if p = text.length then ([], some ((), p)) else ([], none)

/-- The same walk `n` times. -/
def times (m : Walk φ α) : Nat → Walk φ (List α)
  | 0 => pure []
  | n + 1 => do
      let a ← m
      let as ← times m n
      pure (a :: as)

theorem bind_none {m : Walk φ α} {k : α → Walk φ γ} {p : Nat} {notes : List φ}
    (h : m p = (notes, none)) : (m >>= k) p = (notes, none) := by
  show Walk.bind m k p = _
  rw [Walk.bind, h]

theorem bind_some {m : Walk φ α} {k : α → Walk φ γ} {p q : Nat} {notes : List φ} {a : α}
    (h : m p = (notes, some (a, q))) :
    (m >>= k) p = (notes ++ (k a q).1, (k a q).2) := by
  show Walk.bind m k p = _
  rw [Walk.bind, h]

/-- Two steps, one after the other. -/
theorem bind_then {m : Walk φ α} {k : α → Walk φ γ} {p q : Nat} {notes notes' : List φ} {a : α}
    {result : Option (γ × Nat)} (h : m p = (notes, some (a, q))) (h' : k a q = (notes', result)) :
    (m >>= k) p = (notes ++ notes', result) := by
  rw [bind_some h, h']

/-- Peel one step off a walk that ended with a value. -/
theorem bind_inv {m : Walk φ α} {k : α → Walk φ γ} {p r : Nat} {notes : List φ} {c : γ}
    (h : (m >>= k) p = (notes, some (c, r))) :
    ∃ front a q back, m p = (front, some (a, q)) ∧ k a q = (back, some (c, r)) ∧
      notes = front ++ back := by
  cases hm : m p with
  | mk front result =>
      cases result with
      | none => cases (bind_none hm).symm.trans h
      | some aq =>
          obtain ⟨hnotes, hvalue⟩ := Prod.mk.inj ((bind_some hm).symm.trans h)
          exact ⟨front, aq.1, aq.2, (k aq.1 aq.2).1, rfl, Prod.ext rfl hvalue, hnotes.symm⟩

/-! ## Where a code stands -/

/-- The code `w` stands at `p`. -/
def At (text : List β) (p : Nat) (w : List β) : Prop :=
  ∃ front back, text = front ++ (w ++ back) ∧ front.length = p

variable {text : List β} {p q : Nat} {w v : List β}

theorem At.le (h : At text p w) : p + w.length ≤ text.length := by
  obtain ⟨front, back, rfl, rfl⟩ := h
  simp only [List.length_append]
  omega

theorem At.left (h : At text p (w ++ v)) : At text p w := by
  obtain ⟨front, back, rfl, hp⟩ := h
  exact ⟨front, v ++ back, by rw [List.append_assoc], hp⟩

theorem At.right (h : At text p (w ++ v)) : At text (p + w.length) v := by
  obtain ⟨front, back, rfl, rfl⟩ := h
  exact ⟨front ++ w, back, by simp only [List.append_assoc], List.length_append⟩

/-- Codes next to each other are one code. -/
theorem At.append (hw : At text p w) (hv : At text (p + w.length) v) : At text p (w ++ v) := by
  obtain ⟨front, back, rfl, rfl⟩ := hw
  obtain ⟨front', back', htext, hlen⟩ := hv
  rw [← List.append_assoc] at htext
  obtain ⟨rfl, rfl⟩ := List.append_inj htext (by rw [hlen, List.length_append])
  exact ⟨front, back', by simp only [List.append_assoc], rfl⟩

theorem At.nil (h : p ≤ text.length) : At text p [] :=
  ⟨text.take p, text.drop p, (List.take_append_drop p text).symm, List.length_take_of_le h⟩

/-- A code as long as the text is the text. -/
theorem At.whole (h : At text 0 w) (hlen : w.length = text.length) : text = w := by
  obtain ⟨front, back, rfl, hfront⟩ := h
  obtain rfl := List.length_eq_zero_iff.mp hfront
  simp only [List.nil_append, List.length_append] at hlen
  obtain rfl := List.length_eq_zero_iff.mp (show back.length = 0 by omega)
  simp

theorem at_self (text : List β) : At text 0 text := ⟨[], [], by simp, rfl⟩

theorem take_at (h : At text p w) :
    (take text w.length : Walk φ (List β)) p = ([], some (w, p + w.length)) := by
  have hle := h.le
  obtain ⟨front, back, rfl, rfl⟩ := h
  rw [take, if_pos hle, List.drop_left, List.take_left]

/-- What a walk takes stands there. -/
theorem take_inv {n : Nat} {notes : List φ} (h : take text n p = (notes, some (w, q))) :
    At text p w ∧ w.length = n ∧ q = p + n ∧ notes = [] := by
  simp only [take] at h
  split at h
  · rename_i hle
    cases h
    have hlen : ((text.drop p).take n).length = n := by
      rw [List.length_take, List.length_drop]
      omega
    refine ⟨⟨text.take p, text.drop (p + n), ?_, List.length_take_of_le (by omega)⟩, hlen, rfl, rfl⟩
    rw [← List.drop_drop, List.take_append_drop, List.take_append_drop]
  · cases h

theorem done_inv {notes : List φ} {u : Unit} (h : done text p = (notes, some (u, q))) :
    p = text.length ∧ q = p ∧ notes = [] := by
  simp only [done] at h
  split at h
  · cases h
    exact ⟨‹_›, rfl, rfl⟩
  · cases h

/-! ## Finding a code -/

/-- Where `w` stands `m` reads `a` off it, with notes that are as `P`
says. -/
def Finds (text : List β) (P : φ → Prop) (m : Walk φ α) (w : List β) (a : α) : Prop :=
  ∀ p, At text p w → (m p).2 = some (a, p + w.length) ∧ ∀ x ∈ (m p).1, P x

variable {P : φ → Prop} {m : Walk φ α} {a : α} {c : γ} {k : α → Walk φ γ}

theorem Finds.pure (a : α) : Finds text P (pure a : Walk φ α) [] a :=
  fun _ _ => ⟨rfl, fun _ hx => nomatch hx⟩

theorem Finds.bind (hm : Finds text P m w a) (hk : Finds text P (k a) v c) :
    Finds text P (m >>= k) (w ++ v) c := by
  intro p hat
  obtain ⟨hvalue, hnotes⟩ := hm p hat.left
  obtain ⟨hvalue', hnotes'⟩ := hk _ hat.right
  have hboth : (m >>= k) p = ((m p).1 ++ (k a (p + w.length)).1, (k a (p + w.length)).2) :=
    bind_some (Prod.ext rfl hvalue)
  rw [hboth]
  refine ⟨by rw [hvalue', List.length_append, Nat.add_assoc], ?_⟩
  exact List.forall_mem_append.mpr ⟨hnotes, hnotes'⟩

/-- A last step that reads nothing. -/
theorem Finds.map {f : α → γ} (hm : Finds text P m w a) :
    Finds text P (m >>= fun a => Pure.pure (f a)) w (f a) := by
  have h := hm.bind (k := fun a => (Pure.pure (f a) : Walk φ γ)) (Finds.pure (f a))
  rwa [List.append_nil] at h

theorem Finds.take (text w : List β) : Finds text P (take text w.length : Walk φ (List β)) w w := by
  intro p hat
  rw [take_at hat]
  exact ⟨rfl, fun _ hx => nomatch hx⟩

theorem Finds.times {code : α → List β} {as : List α} (h : ∀ a ∈ as, Finds text P m (code a) a) :
    Finds text P (times m as.length) (as.flatMap code) as := by
  induction as with
  | nil => exact Finds.pure []
  | cons a as ih =>
      obtain ⟨ha, has⟩ := List.forall_mem_cons.mp h
      exact ha.bind ((ih has).map (f := fun as => a :: as))

/-- Codes that one walk finds say where they end. -/
theorem Finds.delimits {E : α → List β → Prop} {m : List β → Walk φ α}
    (h : ∀ text a x, E a x → Finds text (fun _ => True) (m text) x a) : Codec.Delimits E Eq := by
  intro a b x y r s hx hy heq
  have hatx : At (x ++ r) 0 x := ⟨[], r, rfl, rfl⟩
  have haty : At (x ++ r) 0 y := ⟨[], s, heq, rfl⟩
  -- the walk over the common text comes to one value and one end
  have hfound := (h _ a x hx 0 hatx).1
  rw [(h _ b y hy 0 haty).1] at hfound
  simp only [Option.some.injEq, Prod.mk.injEq, Nat.zero_add] at hfound
  obtain ⟨rfl, hlen⟩ := hfound
  exact ⟨rfl, (List.append_inj heq hlen.symm).2⟩

/-- The same for a code that ends the text. -/
def FindsEnd (text : List β) (P : φ → Prop) (m : Walk φ α) (w : List β) (a : α) : Prop :=
  ∀ p, At text p w → p + w.length = text.length →
    (m p).2 = some (a, text.length) ∧ ∀ x ∈ (m p).1, P x

theorem FindsEnd.done (c : γ) :
    FindsEnd text P (Walk.done text >>= fun _ => (Pure.pure c : Walk φ γ)) [] c := by
  intro p _ hend
  have hp : p = text.length := by simpa using hend
  have hdone : Walk.done text p = (([] : List φ), some ((), p)) := if_pos hp
  rw [bind_then hdone rfl, hp]
  exact ⟨rfl, fun _ hx => nomatch hx⟩

theorem Finds.bindEnd (hm : Finds text P m w a) (hk : FindsEnd text P (k a) v c) :
    FindsEnd text P (m >>= k) (w ++ v) c := by
  intro p hat hend
  rw [List.length_append, ← Nat.add_assoc] at hend
  obtain ⟨hvalue, hnotes⟩ := hm p hat.left
  obtain ⟨hvalue', hnotes'⟩ := hk _ hat.right hend
  have hboth : (m >>= k) p = ((m p).1 ++ (k a (p + w.length)).1, (k a (p + w.length)).2) :=
    bind_some (Prod.ext rfl hvalue)
  rw [hboth]
  exact ⟨hvalue', List.forall_mem_append.mpr ⟨hnotes, hnotes'⟩⟩

/-! ## Restoring a text -/

/-- When `m` read `a` and its notes are as `P` says, the code `E a` stands
where it read. -/
def Restores (text : List β) (P : φ → Prop) (m : Walk φ α) (E : α → List β) : Prop :=
  ∀ ⦃p q : Nat⦄ ⦃notes : List φ⦄ ⦃a : α⦄, m p = (notes, some (a, q)) → (∀ x ∈ notes, P x) →
    At text p (E a) ∧ q = p + (E a).length

/-- What each of the values is. -/
theorem times_forall {Q : α → Prop} (h : ∀ ⦃p q : Nat⦄ ⦃notes : List φ⦄ ⦃a : α⦄,
    m p = (notes, some (a, q)) → Q a) {n p q : Nat} {notes : List φ} {as : List α}
    (hread : times m n p = (notes, some (as, q))) : ∀ a ∈ as, Q a := by
  induction n generalizing p q notes as with
  | zero =>
      cases hread
      exact fun _ ha => nomatch ha
  | succ n ih =>
      obtain ⟨front, a, r, rest, ha, hrest, rfl⟩ := bind_inv hread
      obtain ⟨mid, as', s, back, has, hlast, rfl⟩ := bind_inv hrest
      cases hlast
      exact List.forall_mem_cons.mpr ⟨h ha, ih has⟩

/-- What takes bytes is not repeated more often than there are bytes. -/
theorem times_length_le {limit : Nat} (htakes : ∀ ⦃p q : Nat⦄ ⦃notes : List φ⦄ ⦃a : α⦄,
    m p = (notes, some (a, q)) → p < q ∧ q ≤ limit) {n p q : Nat} (hp : p ≤ limit)
    {notes : List φ} {as : List α} (hread : times m n p = (notes, some (as, q))) :
    p + as.length ≤ limit := by
  induction n generalizing p q notes as with
  | zero =>
      cases hread
      exact hp
  | succ n ih =>
      obtain ⟨front, a, r, rest, ha, hrest, rfl⟩ := bind_inv hread
      obtain ⟨mid, as', s, back, has, hlast, rfl⟩ := bind_inv hrest
      cases hlast
      obtain ⟨hlt, hle⟩ := htakes ha
      have hshort := ih hle has
      rw [List.length_cons]
      omega

theorem Restores.times {E : α → List β} (h : Restores text P m E)
    (hend : ∀ ⦃p q : Nat⦄ ⦃notes : List φ⦄ ⦃a : α⦄, m p = (notes, some (a, q)) → q ≤ text.length)
    (n : Nat) ⦃p q : Nat⦄ ⦃notes : List φ⦄ ⦃as : List α⦄ (hp : p ≤ text.length)
    (hread : times m n p = (notes, some (as, q))) (hnotes : ∀ x ∈ notes, P x) :
    as.length = n ∧ At text p (as.flatMap E) ∧ q = p + (as.flatMap E).length := by
  induction n generalizing p q notes as with
  | zero =>
      cases hread
      exact ⟨rfl, At.nil hp, rfl⟩
  | succ n ih =>
      obtain ⟨front, a, r, rest, ha, hrest, rfl⟩ := bind_inv hread
      obtain ⟨mid, as', s, back, has, hlast, rfl⟩ := bind_inv hrest
      cases hlast
      obtain ⟨hfront, hback⟩ := List.forall_mem_append.mp hnotes
      obtain ⟨hat, rfl⟩ := h ha hfront
      obtain ⟨hlen, hats, hq⟩ := ih (hend ha) has
        (List.forall_mem_append.mp hback).1
      refine ⟨by rw [List.length_cons, hlen], hat.append hats, ?_⟩
      rw [hq, List.flatMap_cons, List.length_append, Nat.add_assoc]

end Walk

/-! ## Decoders that follow a walk -/

/-- Why a call ended without a value. -/
def Outcome.stop? : Outcome κ ε α → Option (ε ⊕ κ)
  | .ok _ => none
  | .err e => some (.inl e)
  | .halt k => some (.inr k)

theorem Outcome.stop?_bind {x : Outcome κ ε α} {s : ε ⊕ κ} (h : x.stop? = some s)
    (f : α → Outcome κ ε γ) : (x >>= f).stop? = some s := by
  cases x with
  | ok a => cases h
  | err e => exact h
  | halt k => exact h

/-- A first step that gave a value. -/
theorem cursor_bind_ok {d : StateT Nat (Outcome κ ε) α} {l : α → StateT Nat (Outcome κ ε) γ}
    {p q : Nat} {a : α} (h : d p = .ok (a, q)) : (d >>= l) p = l a q := by
  show (d p >>= fun r => l r.1 r.2) = _
  rw [h, Outcome.ok_bind]

/-- A first step that stopped. -/
theorem cursor_bind_stop {d : StateT Nat (Outcome κ ε) α} {p : Nat} {s : ε ⊕ κ}
    (h : (d p).stop? = some s) (l : α → StateT Nat (Outcome κ ε) γ) :
    ((d >>= l) p).stop? = some s :=
  Outcome.stop?_bind h _

/-- How a decoder that keeps its position below `limit` may end when the
walk ends as it does: with the value; failed, when the walk has; or broken
off, when a note of the walk is not allowed. -/
inductive Outcome.Agrees (limit : Nat) (allowed : φ → Prop) (fails breaks : ε ⊕ κ → Prop) :
    List φ × Option (α × Nat) → Outcome κ ε (α × Nat) → Prop where
  | value {notes : List φ} {a : α} {q : Nat} : (∀ x ∈ notes, allowed x) → q ≤ limit →
      Agrees limit allowed fails breaks (notes, some (a, q)) (.ok (a, q))
  | failed {notes : List φ} {o : Outcome κ ε (α × Nat)} {s : ε ⊕ κ} :
      (∀ x ∈ notes, allowed x) → o.stop? = some s → fails s →
      Agrees limit allowed fails breaks (notes, none) o
  | broken {notes : List φ} {result : Option (α × Nat)} {o : Outcome κ ε (α × Nat)} {s : ε ⊕ κ}
      {x : φ} : x ∈ notes → ¬allowed x → o.stop? = some s → breaks s →
      Agrees limit allowed fails breaks (notes, result) o

/-- Notes made before, all of them allowed, change nothing. -/
theorem Outcome.Agrees.notes {limit : Nat} {allowed : φ → Prop} {fails breaks : ε ⊕ κ → Prop}
    {front back : List φ} {result : Option (α × Nat)} {o : Outcome κ ε (α × Nat)}
    (hfront : ∀ x ∈ front, allowed x) (h : Agrees limit allowed fails breaks (back, result) o) :
    Agrees limit allowed fails breaks (front ++ back, result) o := by
  cases h with
  | value hback hq => exact .value (List.forall_mem_append.mpr ⟨hfront, hback⟩) hq
  | failed hback hstop hfails =>
      exact .failed (List.forall_mem_append.mpr ⟨hfront, hback⟩) hstop hfails
  | broken hx hbad hstop hbreaks => exact .broken (List.mem_append_right _ hx) hbad hstop hbreaks

/-- It gives a value just when the walk does, with its notes allowed. -/
theorem Outcome.Agrees.eq_ok_iff {limit : Nat} {allowed : φ → Prop} {fails breaks : ε ⊕ κ → Prop}
    {walked : List φ × Option (α × Nat)} {o : Outcome κ ε (α × Nat)}
    (h : Agrees limit allowed fails breaks walked o) {r : α × Nat} :
    o = .ok r ↔ walked.2 = some r ∧ ∀ x ∈ walked.1, allowed x := by
  cases h with
  | value hnotes _ =>
      constructor
      · intro h
        cases h
        exact ⟨rfl, hnotes⟩
      · intro h
        cases h.1
        rfl
  | failed _ hstop _ =>
      constructor
      · rintro rfl
        cases hstop
      · intro h
        cases h.1
  | broken hx hbad hstop _ =>
      constructor
      · rintro rfl
        cases hstop
      · intro h
        exact absurd (h.2 _ hx) hbad

/-- From every position the decoder ends as the walk allows. -/
def Walk.Follows (limit : Nat) (allowed : φ → Prop) (fails breaks : ε ⊕ κ → Prop)
    (m : Walk φ α) (d : StateT Nat (Outcome κ ε) α) : Prop :=
  ∀ p ≤ limit, Outcome.Agrees limit allowed fails breaks (m p) (d p)

namespace Walk

variable {limit : Nat} {allowed : φ → Prop} {fails breaks : ε ⊕ κ → Prop} {m : Walk φ α}
  {k : α → Walk φ γ} {d : StateT Nat (Outcome κ ε) α} {l : α → StateT Nat (Outcome κ ε) γ}

theorem Follows.pure (a : α) :
    Follows limit allowed fails breaks (pure a) (pure a : StateT Nat (Outcome κ ε) α) :=
  fun _ hp => .value (fun _ hx => nomatch hx) hp

theorem Follows.bind (hm : Follows limit allowed fails breaks m d)
    (hk : ∀ a, Follows limit allowed fails breaks (k a) (l a)) :
    Follows limit allowed fails breaks (m >>= k) (d >>= l) := by
  intro p hp
  have hfirst := hm p hp
  show Outcome.Agrees limit allowed fails breaks (Walk.bind m k p) (d p >>= fun r => l r.1 r.2)
  rw [Walk.bind]
  generalize m p = walked at hfirst
  generalize d p = ended at hfirst
  cases hfirst with
  | value hnotes hq => exact (hk _ _ hq).notes hnotes
  | failed hnotes hstop hfails => exact .failed hnotes (Outcome.stop?_bind hstop _) hfails
  | broken hx hbad hstop hbreaks =>
      rename_i notes result s x
      cases result with
      | none => exact .broken hx hbad (Outcome.stop?_bind hstop _) hbreaks
      | some r =>
          exact .broken (List.mem_append_left _ hx) hbad (Outcome.stop?_bind hstop _) hbreaks

end Walk

/-- The body of a counted loop, from index `i` on, and what it gave. -/
def countedLoop {M : Type → Type} [Monad M] (body : Nat → M α) (i : Nat) : Nat → M (List α)
  | 0 => pure []
  | n + 1 => do
      let a ← body i
      let as ← countedLoop body (i + 1) n
      pure (a :: as)

namespace Walk

variable {limit : Nat} {allowed : φ → Prop} {fails breaks : ε ⊕ κ → Prop} {m : Walk φ α}

theorem Follows.times {body : Nat → StateT Nat (Outcome κ ε) α}
    (h : ∀ i, Follows limit allowed fails breaks m (body i)) (i n : Nat) :
    Follows limit allowed fails breaks (times m n) (countedLoop body i n) := by
  induction n generalizing i with
  | zero => exact Follows.pure []
  | succ n ih => exact (h i).bind fun a => (ih (i + 1)).bind fun as => Follows.pure (a :: as)

/-- More times than there are symbols is too many, when each time takes
one. -/
theorem times_none (htakes : ∀ ⦃p q : Nat⦄ ⦃notes : List φ⦄ ⦃a : α⦄,
    m p = (notes, some (a, q)) → p < q ∧ q ≤ limit) {n p : Nat} (hn : limit < n + p) (hpos : 0 < n) :
    (times m n p).2 = none := by
  induction n generalizing p with
  | zero => omega
  | succ n ih =>
      cases hm : m p with
      | mk notes result =>
          cases result with
          | none =>
              rw [times, bind_none hm]
          | some aq =>
              obtain ⟨hlt, hle⟩ := htakes hm
              have hrest : (times m n aq.2).2 = none := ih (by omega) (by omega)
              rw [times, bind_some hm]
              dsimp only
              rw [bind_none (Prod.ext rfl hrest)]

end Walk

end Basis
