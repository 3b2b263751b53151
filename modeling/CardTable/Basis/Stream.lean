import Mathlib.Data.List.Basic

/-!
# Stream — reading records off a stream

A reader is handed the symbols that have arrived. It returns a value with
the symbols after it, waits for more, or refuses. Readers are put
together from reads of a known number of symbols, and a reader so made is
*steady*: what it says of the symbols that have arrived, it says of them
whatever arrives next.

`readAll` reads records until one is not complete.
-/

namespace Basis

variable {α β γ : Type}

/-- What a reader says. -/
inductive Got (β α : Type) where
  | done (a : α) (rest : List β)
  | more
  | refused
  deriving DecidableEq, Repr

/-- A reader of values of `α` from symbols of `β`. -/
def Reader (β α : Type) : Type := List β → Got β α

namespace Reader

/-- Read on with what was read. -/
protected def bind (r : Reader β α) (k : α → Reader β γ) : Reader β γ := fun xs =>
  match r xs with
  | .done a rest => k a rest
  | .more => .more
  | .refused => .refused

instance : Monad (Reader β) where
  pure a := fun xs => .done a xs
  bind := Reader.bind

/-- Refuse what has arrived. -/
def refuse : Reader β α := fun _ => .refused

/-- The next symbol. -/
def next : Reader β β
  | [] => .more
  | b :: rest => .done b rest

/-- The next `n` symbols. -/
def exactly (n : Nat) : Reader β { w : List β // w.length = n } := fun xs =>
  if h : n ≤ xs.length then .done ⟨xs.take n, List.length_take_of_le h⟩ (xs.drop n) else .more

/-! ## Reading back -/

/-- `r` reads `a` off the symbols `w`, whatever follows. -/
def Reads (r : Reader β α) (w : List β) (a : α) : Prop :=
  ∀ rest, r (w ++ rest) = .done a rest

theorem Reads.pure (a : α) : Reads (pure a : Reader β α) [] a := fun _ => rfl

theorem Reads.bind {r : Reader β α} {k : α → Reader β γ} {w v : List β} {a : α} {c : γ}
    (hr : Reads r w a) (hk : Reads (k a) v c) : Reads (r >>= k) (w ++ v) c := by
  intro rest
  show Reader.bind r k (w ++ v ++ rest) = _
  rw [List.append_assoc, Reader.bind, hr]
  exact hk rest

theorem Reads.next (b : β) : Reads next [b] b := fun _ => rfl

theorem Reads.exactly (w : List β) {n : Nat} (h : w.length = n) : Reads (exactly n) w ⟨w, h⟩ := by
  intro rest
  subst h
  simp [Reader.exactly]

/-! ## Steady readers -/

/-- What `r` says of the symbols that have arrived stands when more
arrive. -/
structure Steady (r : Reader β α) : Prop where
  done : ∀ {xs : List β} {a : α} {rest : List β} (ext : List β),
    r xs = .done a rest → r (xs ++ ext) = .done a (rest ++ ext)
  refused : ∀ {xs : List β} (ext : List β), r xs = .refused → r (xs ++ ext) = .refused

theorem Steady.pure (a : α) : Steady (pure a : Reader β α) where
  done ext h := by
    cases h
    rfl
  refused _ h := nomatch h

theorem Steady.refuse : Steady (refuse : Reader β α) where
  done _ h := nomatch h
  refused _ _ := rfl

theorem Steady.next : Steady (next : Reader β β) where
  done {xs} _ _ ext h := by
    cases xs with
    | nil => cases h
    | cons b xs =>
        cases h
        rfl
  refused {xs} ext h := by
    cases xs with
    | nil => cases h
    | cons b xs => cases h

theorem Steady.exactly (n : Nat) : Steady (exactly n : Reader β _) where
  done {xs} a rest ext h := by
    simp only [Reader.exactly] at h
    split at h
    · rename_i hle
      cases h
      have hle' : n ≤ (xs ++ ext).length := by
        rw [List.length_append]
        omega
      simp only [Reader.exactly, dif_pos hle']
      congr 1
      · exact Subtype.ext (List.take_append_of_le_length hle)
      · exact List.drop_append_of_le_length hle
    · cases h
  refused ext h := by
    simp only [Reader.exactly] at h
    split at h
    · cases h
    · cases h

theorem Steady.bind {r : Reader β α} {k : α → Reader β γ} (hr : Steady r)
    (hk : ∀ a, Steady (k a)) : Steady (r >>= k) where
  done {xs} c rest ext h := by
    show Reader.bind r k (xs ++ ext) = _
    change Reader.bind r k xs = _ at h
    simp only [Reader.bind] at h ⊢
    cases hxs : r xs with
    | done a mid =>
        rw [hxs] at h
        rw [hr.done ext hxs]
        exact (hk a).done ext h
    | more =>
        rw [hxs] at h
        cases h
    | refused =>
        rw [hxs] at h
        cases h
  refused {xs} ext h := by
    show Reader.bind r k (xs ++ ext) = _
    change Reader.bind r k xs = _ at h
    simp only [Reader.bind] at h ⊢
    cases hxs : r xs with
    | done a mid =>
        rw [hxs] at h
        rw [hr.done ext hxs]
        exact (hk a).refused ext h
    | more =>
        rw [hxs] at h
        cases h
    | refused => rw [hr.refused ext hxs]

/-- **Part of a record**: a steady reader waits for the rest of it. -/
theorem Steady.more_of_part {r : Reader β α} (hr : Steady r) {w part : List β} {a : α}
    (hw : Reads r w a) (hpart : part <+: w) (hne : part ≠ w) : r part = .more := by
  obtain ⟨ext, rfl⟩ := hpart
  have hwhole : r (part ++ ext) = .done a [] := by simpa using hw []
  cases hgot : r part with
  | more => rfl
  | done b rest =>
      have heq := (hr.done ext hgot).symm.trans hwhole
      simp only [Got.done.injEq, List.append_eq_nil_iff] at heq
      obtain ⟨-, -, rfl⟩ := heq
      simp at hne
  | refused => cases (hr.refused ext hgot).symm.trans hwhole

/-! ## One record after another -/

/-- Read records, `n` at most. -/
def readUpTo (r : Reader β α) : Nat → List β → List α × Option (List β)
  | 0, xs => ([], some xs)
  | n + 1, xs =>
      match r xs with
      | .done a rest =>
          let (as, left) := readUpTo r n rest
          (a :: as, left)
      | .more => ([], some xs)
      | .refused => ([], none)

/-- The records of a text and the incomplete one at its end; `none` there
when the reader refuses one. -/
def readAll (r : Reader β α) (xs : List β) : List α × Option (List β) := readUpTo r xs.length xs

/-- Every record takes a symbol. -/
theorem length_le_flatMap {code : α → List β} {as : List α} (hne : ∀ a ∈ as, code a ≠ []) :
    as.length ≤ (as.flatMap code).length := by
  induction as with
  | nil => exact Nat.zero_le _
  | cons a as ih =>
      obtain ⟨ha, has⟩ := List.forall_mem_cons.mp hne
      have hpos := List.length_pos_iff.mpr ha
      have hrest := ih has
      rw [List.flatMap_cons, List.length_append, List.length_cons]
      omega

/-- **Records in a row**, the last one in part, are read back. -/
theorem readAll_eq {r : Reader β α} {code : α → List β} {as : List α}
    (hread : ∀ a ∈ as, Reads r (code a) a) (hne : ∀ a, code a ≠ []) {part : List β}
    (hpart : r part = .more) : readAll r (as.flatMap code ++ part) = (as, some part) := by
  have hlen : as.length ≤ (as.flatMap code).length := length_le_flatMap fun a _ => hne a
  have hfuel : ∀ n, as.length ≤ n → readUpTo r n (as.flatMap code ++ part) = (as, some part) := by
    clear hlen
    induction as with
    | nil =>
        intro n _
        cases n with
        | zero => rfl
        | succ n => simp [readUpTo, hpart]
    | cons a as ih =>
        intro n hn
        cases n with
        | zero => simp at hn
        | succ n =>
            obtain ⟨ha, has⟩ := List.forall_mem_cons.mp hread
            rw [List.flatMap_cons, List.append_assoc, readUpTo, ha]
            simp only [ih has n (Nat.le_of_succ_le_succ hn)]
  refine hfuel _ ?_
  rw [List.length_append]
  omega

end Reader

end Basis
