import Mathlib.Data.List.Sort
import Mathlib.Data.List.Nodup

/-!
# Record — a map that remembers its keys

A record holds a value under each of its keys, in the order the keys
came. Assigning to a key that is there replaces its value where it
stands. Two records are the same map when their entries are, in whatever
order.

Assigning a list of pairs to the empty record gives at most as many
entries, and all of them only when no pair was lost.
-/

namespace Basis

/-- Entries with distinct keys. -/
structure Record (κ ν : Type) where
  entries : List (κ × ν)
  nodup : (entries.map Prod.fst).Nodup
  deriving DecidableEq

namespace Record

variable {κ ν : Type}

def keys (r : Record κ ν) : List κ := r.entries.map Prod.fst

def empty : Record κ ν := ⟨[], List.nodup_nil⟩

/-- The same map. -/
def Same (r s : Record κ ν) : Prop := r.entries.Perm s.entries

theorem Same.refl (r : Record κ ν) : r.Same r := List.Perm.refl _

/-- Entries with one key are one entry. -/
theorem entry_unique (r : Record κ ν) {a b : κ × ν} (ha : a ∈ r.entries) (hb : b ∈ r.entries)
    (h : a.1 = b.1) : a = b :=
  List.inj_on_of_nodup_map r.nodup ha hb h

/-! ## Reading -/

variable [DecidableEq κ]

instance [DecidableEq ν] (r s : Record κ ν) : Decidable (r.Same s) :=
  inferInstanceAs (Decidable (List.Perm _ _))

/-- The value under a key. -/
def get? (r : Record κ ν) (k : κ) : Option ν :=
  (r.entries.find? fun e => decide (e.1 = k)).map Prod.snd

theorem get?_eq_some_iff {r : Record κ ν} {k : κ} {v : ν} :
    r.get? k = some v ↔ (k, v) ∈ r.entries := by
  constructor
  · intro h
    obtain ⟨e, he, rfl⟩ := Option.map_eq_some_iff.mp h
    obtain rfl : e.1 = k := by simpa using List.find?_some he
    exact List.mem_of_find?_eq_some he
  · intro h
    rw [get?]
    cases hfind : r.entries.find? fun e => decide (e.1 = k) with
    | none =>
        have hnone := List.find?_eq_none.mp hfind (k, v) h
        simp at hnone
    | some e =>
        have hkey : e.1 = k := by simpa using List.find?_some hfind
        rw [r.entry_unique (List.mem_of_find?_eq_some hfind) h hkey]
        rfl

/-- One map has one value under a key. -/
theorem Same.get?_eq {r s : Record κ ν} (h : r.Same s) (k : κ) : r.get? k = s.get? k := by
  apply Option.ext
  intro v
  rw [get?_eq_some_iff, get?_eq_some_iff]
  exact h.mem_iff

/-! ## Assigning -/

/-- Replace the value of a key where it stands, or append the entry. -/
def put (k : κ) (v : ν) : List (κ × ν) → List (κ × ν)
  | [] => [(k, v)]
  | e :: rest => if e.1 = k then (k, v) :: rest else e :: put k v rest

theorem keys_put (k : κ) (v : ν) (es : List (κ × ν)) : (put k v es).map Prod.fst =
    if k ∈ es.map Prod.fst then es.map Prod.fst else es.map Prod.fst ++ [k] := by
  induction es with
  | nil => rfl
  | cons e rest ih =>
      rw [put]
      by_cases he : e.1 = k
      · rw [if_pos he, if_pos (by simp [he])]
        simp [he]
      · rw [if_neg he, List.map_cons, ih, List.map_cons]
        by_cases hmem : k ∈ rest.map Prod.fst
        · rw [if_pos hmem, if_pos (List.mem_cons_of_mem _ hmem)]
        · have hnot : k ∉ e.1 :: rest.map Prod.fst := by
            rw [List.mem_cons]
            rintro (h | h)
            · exact he h.symm
            · exact hmem h
          rw [if_neg hmem, if_neg hnot, List.cons_append]

theorem put_of_not_mem {k : κ} {v : ν} {es : List (κ × ν)} (h : k ∉ es.map Prod.fst) :
    put k v es = es ++ [(k, v)] := by
  induction es with
  | nil => rfl
  | cons e rest ih =>
      rw [List.map_cons, List.mem_cons, not_or] at h
      rw [put, if_neg (Ne.symm h.1), ih h.2, List.cons_append]

theorem nodup_put {es : List (κ × ν)} (h : (es.map Prod.fst).Nodup) (k : κ) (v : ν) :
    ((put k v es).map Prod.fst).Nodup := by
  rw [keys_put]
  split
  · exact h
  · rename_i hnot
    exact h.append (List.nodup_singleton k) (List.disjoint_singleton.mpr hnot)

theorem length_put (k : κ) (v : ν) (es : List (κ × ν)) : (put k v es).length =
    if k ∈ es.map Prod.fst then es.length else es.length + 1 := by
  have hkeys := congrArg List.length (keys_put k v es)
  rw [List.length_map] at hkeys
  rw [hkeys]
  split
  · rw [List.length_map]
  · rw [List.length_append, List.length_map]
    rfl

/-- `r[k] = v`. -/
def set (r : Record κ ν) (k : κ) (v : ν) : Record κ ν := ⟨put k v r.entries, nodup_put r.nodup k v⟩

/-- Assignment where one key cannot be assigned to. -/
def assign (reserved : κ) (r : Record κ ν) (e : κ × ν) : Record κ ν :=
  if e.1 = reserved then r else r.set e.1 e.2

/-- Assign one pair after another. -/
def assignAll (reserved : κ) (r : Record κ ν) (es : List (κ × ν)) : Record κ ν :=
  es.foldl (assign reserved) r

/-- An assignment adds an entry or none. -/
theorem assign_cases (reserved : κ) (r : Record κ ν) (e : κ × ν) :
    e.1 ≠ reserved ∧ (r.assign reserved e).entries = r.entries ++ [e] ∨
      (r.assign reserved e).entries.length = r.entries.length := by
  rw [assign]
  by_cases he : e.1 = reserved
  · rw [if_pos he]
    exact .inr rfl
  · rw [if_neg he]
    by_cases hmem : e.1 ∈ r.entries.map Prod.fst
    · exact .inr ((length_put e.1 e.2 r.entries).trans (if_pos hmem))
    · exact .inl ⟨he, put_of_not_mem hmem⟩

theorem length_assignAll_le (reserved : κ) (r : Record κ ν) (es : List (κ × ν)) :
    (r.assignAll reserved es).entries.length ≤ r.entries.length + es.length := by
  induction es generalizing r with
  | nil => exact Nat.le_refl _
  | cons e es ih =>
      have hrest := ih (r.assign reserved e)
      have hstep : (r.assignAll reserved (e :: es)) = (r.assign reserved e).assignAll reserved es := rfl
      rw [hstep, List.length_cons]
      rcases assign_cases reserved r e with ⟨-, h⟩ | h
      · rw [h, List.length_append, List.length_singleton] at hrest
        omega
      · omega

variable {reserved : κ}

/-- **No pair is lost** when as many entries arrive as were assigned. -/
theorem assignAll_of_length {r : Record κ ν} {es : List (κ × ν)}
    (h : (r.assignAll reserved es).entries.length = r.entries.length + es.length) :
    (r.assignAll reserved es).entries = r.entries ++ es ∧ ∀ e ∈ es, e.1 ≠ reserved := by
  induction es generalizing r with
  | nil => exact ⟨(List.append_nil _).symm, nofun⟩
  | cons e es ih =>
      have hstep : (r.assignAll reserved (e :: es)) = (r.assign reserved e).assignAll reserved es := rfl
      have hle := length_assignAll_le reserved (r.assign reserved e) es
      rw [hstep, List.length_cons] at h
      rcases assign_cases reserved r e with ⟨he, hentries⟩ | hsame
      · obtain ⟨hall, hkeys⟩ := ih (r := r.assign reserved e) (by
          rw [h, hentries, List.length_append, List.length_singleton]
          omega)
        refine ⟨?_, List.forall_mem_cons.mpr ⟨he, hkeys⟩⟩
        rw [hstep, hall, hentries, List.append_assoc]
        rfl
      · omega

/-- Pairs with new and distinct keys are appended as they are. -/
theorem entries_assignAll {r : Record κ ν} {es : List (κ × ν)}
    (hkeys : ((r.entries ++ es).map Prod.fst).Nodup) (hne : ∀ e ∈ es, e.1 ≠ reserved) :
    (r.assignAll reserved es).entries = r.entries ++ es := by
  induction es generalizing r with
  | nil => exact (List.append_nil _).symm
  | cons e es ih =>
      obtain ⟨he, hrest⟩ := List.forall_mem_cons.mp hne
      have hnew : e.1 ∉ r.entries.map Prod.fst := by
        intro hmem
        rw [List.map_append] at hkeys
        exact (List.disjoint_of_nodup_append hkeys) hmem (by simp)
      have hfirst : (r.assign reserved e).entries = r.entries ++ [e] := by
        rw [assign, if_neg he]
        exact put_of_not_mem hnew
      have hall := ih (r := r.assign reserved e) (by
        rwa [hfirst, List.append_assoc]) hrest
      have hstep : (r.assignAll reserved (e :: es)) = (r.assign reserved e).assignAll reserved es := rfl
      rw [hstep, hall, hfirst, List.append_assoc]
      rfl

end Record

end Basis
