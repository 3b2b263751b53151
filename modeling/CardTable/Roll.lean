import CardTable.Basis.Run
import CardTable.Basis.Record
import Mathlib.Algebra.BigOperators.Group.List.Basic

/-!
# Roll — what the players' records tell

A player's record holds an id, a key, an entropy commitment, an entropy
and a stake, and each of them is written by other handlers. Seen from the
record they all do one of two things: put a new entry on the roll, or
write to the entry of one seat. `Step` says how, and `Told` what every run
keeps: an entry is what was said about its seat, no more and no less.

Stakes are the amounts of any commutative monoid: the integers of one
engine, the wrapping `uint64`s of the other.
-/

namespace CardTable

open Basis

/-- What is known of a player. -/
structure Entry (M : Type) where
  seat : Int
  player : String
  signingKey : String
  commitment : Option String
  entropy : Option String
  stake : M
  deriving DecidableEq, Repr

/-- What is written to an entry. -/
inductive Writing (M : Type) where
  | committed (hash : String)
  | revealed (entropy : String)
  | paid (amount : M)
  deriving DecidableEq, Repr

/-- What an accepted action says about a seat. -/
inductive Said (M : Type) where
  | joined (seat : Int) (key : String)
  | wrote (seat : Int) (w : Writing M)
  | nothing
  deriving DecidableEq, Repr

namespace Writing

variable {M : Type}

def hash? : Writing M → Option String
  | .committed hash => some hash
  | _ => none

def entropy? : Writing M → Option String
  | .revealed entropy => some entropy
  | _ => none

def amount? : Writing M → Option M
  | .paid amount => some amount
  | _ => none

/-- A commitment and an entropy are written once. -/
def Fresh : Writing M → Entry M → Prop
  | .committed _, e => e.commitment = none
  | .revealed _, e => e.entropy = none
  | .paid _, _ => True

/-- The entry after the writing. -/
def apply [Add M] : Writing M → Entry M → Entry M
  | .committed hash, e => { e with commitment := some hash }
  | .revealed entropy, e => { e with entropy := some entropy }
  | .paid amount, e => { e with stake := e.stake + amount }

@[simp] theorem apply_seat [Add M] (w : Writing M) (e : Entry M) : (w.apply e).seat = e.seat := by
  cases w with
  | _ => rfl

theorem apply_keys [Add M] (w : Writing M) (e : Entry M) :
    (w.apply e).player = e.player ∧ (w.apply e).signingKey = e.signingKey := by
  cases w with
  | _ => exact ⟨rfl, rfl⟩

end Writing

namespace Said

variable {M : Type}

/-- The seat and the key of a join. -/
def joined? : Said M → Option (Int × String)
  | .joined seat key => some (seat, key)
  | _ => none

/-- What is written to a seat. -/
def wroteTo (seat : Int) : Said M → Option (Writing M)
  | .wrote seat' w => if seat' = seat then some w else none
  | _ => none

end Said

namespace Roll

variable {M : Type}

/-- The seats of a roll. -/
def seats (roll : List (Entry M)) : List Int := roll.map (·.seat)

/-- Write to the entry of a seat. -/
def write [Add M] (seat : Int) (w : Writing M) (roll : List (Entry M)) : List (Entry M) :=
  roll.map fun e => if e.seat = seat then w.apply e else e

/-- **The moves of a roll**, when everybody brings the same stake. -/
inductive Step [Add M] (stake : M) : List (Entry M) → Said M → List (Entry M) → Prop where
  | joins {roll : List (Entry M)} {seat : Int} {key : String} :
      seat ∉ seats roll →
      Step stake roll (.joined seat key) (roll ++ [⟨seat, key, key, none, none, stake⟩])
  | writes {roll : List (Entry M)} {seat : Int} {w : Writing M} :
      seat ∈ seats roll → (∀ e ∈ roll, e.seat = seat → w.Fresh e) →
      Step stake roll (.wrote seat w) (write seat w roll)
  | rests {roll : List (Entry M)} : Step stake roll .nothing roll

/-! ## What a run keeps -/

/-- What was written to a seat, oldest first. -/
def writings (said : List (Said M)) (seat : Int) : List (Writing M) :=
  said.filterMap (Said.wroteTo seat)

/-- An entry is what was written to it: the one commitment, the one
entropy, and every payment. -/
structure Holds [AddCommMonoid M] (stake : M) (ws : List (Writing M)) (e : Entry M) : Prop where
  commitment : ws.filterMap Writing.hash? = e.commitment.toList
  entropy : ws.filterMap Writing.entropy? = e.entropy.toList
  stake : e.stake = stake + (ws.filterMap Writing.amount?).sum

/-- **The roll is what was said**: the entries are the joins, in their
order and on different seats; each holds what was written to its seat;
and nothing was written to any other seat. -/
structure Told [AddCommMonoid M] (stake : M) (said : List (Said M)) (roll : List (Entry M)) :
    Prop where
  joins : roll.map (fun e => (e.seat, e.player, e.signingKey)) =
    (said.filterMap Said.joined?).map (fun j => (j.1, j.2, j.2))
  nodup : (seats roll).Nodup
  holds : ∀ e ∈ roll, Holds stake (writings said e.seat) e
  silent : ∀ seat, seat ∉ seats roll → writings said seat = []

theorem mem_seats {roll : List (Entry M)} {seat : Int} :
    seat ∈ seats roll ↔ ∃ e ∈ roll, e.seat = seat := List.mem_map

theorem writings_snoc (said : List (Said M)) (event : Said M) (seat : Int) :
    writings (said ++ [event]) seat = writings said seat ++ (event.wroteTo seat).toList :=
  filterMap_snoc _ _ _

theorem wroteTo_wrote (seat seat' : Int) (w : Writing M) :
    (Said.wrote seat w).wroteTo seat' = if seat = seat' then some w else none := rfl

/-- Nothing is written by a join. -/
theorem wroteTo_joined (seat seat' : Int) (key : String) :
    (Said.joined seat key : Said M).wroteTo seat' = none := rfl

section Write

variable [Add M]

theorem seats_write (seat : Int) (w : Writing M) (roll : List (Entry M)) :
    seats (write seat w roll) = seats roll := by
  rw [seats, write, List.map_map, seats]
  apply List.map_congr_left
  intro e _
  simp only [Function.comp_apply]
  split
  · exact w.apply_seat e
  · rfl

theorem keys_write (seat : Int) (w : Writing M) (roll : List (Entry M)) :
    (write seat w roll).map (fun e => (e.seat, e.player, e.signingKey)) =
      roll.map (fun e => (e.seat, e.player, e.signingKey)) := by
  rw [write, List.map_map]
  apply List.map_congr_left
  intro e _
  simp only [Function.comp_apply]
  split
  · rw [w.apply_seat, (w.apply_keys e).1, (w.apply_keys e).2]
  · rfl

/-- Writing by index is writing by seat, the seats being different. -/
theorem set_eq_write {roll : List (Entry M)} {idx : Nat} {e : Entry M} (w : Writing M)
    (hnodup : (seats roll).Nodup) (hidx : roll[idx]? = some e) :
    roll.set idx (w.apply e) = write e.seat w roll := by
  obtain ⟨hlt, rfl⟩ := List.getElem?_eq_some_iff.mp hidx
  apply List.ext_getElem
  · rw [List.length_set, write, List.length_map]
  · intro j hj hj'
    rw [List.length_set] at hj
    simp only [write, List.getElem_set, List.getElem_map]
    by_cases hij : idx = j
    · subst hij
      rw [if_pos rfl, if_pos rfl]
    · have hseat : roll[j].seat ≠ roll[idx].seat := by
        intro hsame
        have hentry : roll[j] = roll[idx] :=
          List.inj_on_of_nodup_map hnodup (List.getElem_mem hj) (List.getElem_mem hlt) hsame
        exact hij ((List.Nodup.of_map _ hnodup).getElem_inj_iff.mp hentry).symm
      rw [if_neg hij, if_neg hseat]

end Write

variable [AddCommMonoid M] {stake : M} {said : List (Said M)} {roll roll' : List (Entry M)}

/-- A writing, put to the entry it is for. -/
theorem Holds.apply {ws : List (Writing M)} {e : Entry M} {w : Writing M} (h : Holds stake ws e)
    (hfresh : w.Fresh e) : Holds stake (ws ++ [w]) (w.apply e) := by
  obtain ⟨hcommitment, hentropy, hstake⟩ := h
  cases w with
  | committed hash =>
      have hnone : e.commitment = none := hfresh
      rw [hnone] at hcommitment
      refine ⟨?_, ?_, ?_⟩
      · rw [filterMap_snoc, hcommitment]
        rfl
      · rw [filterMap_snoc, hentropy]
        exact List.append_nil _
      · rw [filterMap_snoc]
        simpa [Writing.amount?, Writing.apply] using hstake
  | revealed entropy =>
      have hnone : e.entropy = none := hfresh
      rw [hnone] at hentropy
      refine ⟨?_, ?_, ?_⟩
      · rw [filterMap_snoc, hcommitment]
        exact List.append_nil _
      · rw [filterMap_snoc, hentropy]
        rfl
      · rw [filterMap_snoc]
        simpa [Writing.amount?, Writing.apply] using hstake
  | paid amount =>
      refine ⟨?_, ?_, ?_⟩
      · rw [filterMap_snoc, hcommitment]
        exact List.append_nil _
      · rw [filterMap_snoc, hentropy]
        exact List.append_nil _
      · simp only [filterMap_snoc, Writing.amount?, Writing.apply, Option.toList_some,
          List.sum_append, List.sum_singleton, hstake, add_assoc]

/-- A roll nobody has joined. -/
theorem Told.empty : Told stake [] [] where
  joins := rfl
  nodup := List.nodup_nil
  holds := by
    intro e he
    cases he
  silent := by
    intro seat _
    rfl

theorem Told.joining (h : Told stake said roll) {seat : Int} {key : String}
    (hnew : seat ∉ seats roll) :
    Told stake (said ++ [.joined seat key]) (roll ++ [⟨seat, key, key, none, none, stake⟩]) where
  joins := by
    rw [List.map_append, h.joins, filterMap_snoc, List.map_append]
    rfl
  nodup := by
    rw [seats, List.map_append, List.map_singleton]
    refine List.Nodup.append h.nodup (List.nodup_singleton _) ?_
    intro x hx hx'
    rw [List.mem_singleton.mp hx'] at hx
    exact hnew hx
  holds := by
    intro e he
    rw [writings_snoc, wroteTo_joined, Option.toList_none, List.append_nil]
    rcases List.mem_append.mp he with he | he
    · exact h.holds e he
    · rw [List.mem_singleton.mp he, h.silent _ hnew]
      exact ⟨rfl, rfl, by simp⟩
  silent := by
    intro other hother
    rw [seats, List.map_append, List.mem_append, not_or] at hother
    rw [writings_snoc, wroteTo_joined, h.silent _ hother.1]
    rfl

theorem Told.writing (h : Told stake said roll) {seat : Int} {w : Writing M}
    (hseated : seat ∈ seats roll) (hfresh : ∀ e ∈ roll, e.seat = seat → w.Fresh e) :
    Told stake (said ++ [.wrote seat w]) (write seat w roll) where
  joins := by
    rw [keys_write, h.joins, filterMap_snoc]
    exact congrArg (List.map _) (List.append_nil _).symm
  nodup := by
    rw [seats_write]
    exact h.nodup
  holds := by
    intro e he
    obtain ⟨r, hr, rfl⟩ := List.mem_map.mp he
    rw [writings_snoc, wroteTo_wrote]
    by_cases hseat : r.seat = seat
    · simp only [hseat, if_true, w.apply_seat, Option.toList_some]
      have hheld := h.holds r hr
      rw [hseat] at hheld
      exact hheld.apply (hfresh r hr hseat)
    · simp only [if_neg hseat, if_neg (Ne.symm hseat), Option.toList_none, List.append_nil]
      exact h.holds r hr
  silent := by
    intro other hother
    rw [seats_write] at hother
    have hne : seat ≠ other := by
      intro hsame
      exact hother (hsame ▸ hseated)
    rw [writings_snoc, wroteTo_wrote, if_neg hne, h.silent _ hother]
    rfl

theorem Told.resting (h : Told stake said roll) : Told stake (said ++ [.nothing]) roll where
  joins := by
    rw [h.joins, filterMap_snoc]
    exact congrArg (List.map _) (List.append_nil _).symm
  nodup := h.nodup
  holds := by
    intro e he
    have hheld := h.holds e he
    rw [writings_snoc]
    simpa [Said.wroteTo] using hheld
  silent := by
    intro seat hseat
    rw [writings_snoc, h.silent _ hseat]
    rfl

/-- One move keeps the roll told. -/
theorem Told.step (h : Told stake said roll) {event : Said M} (hstep : Step stake roll event roll') :
    Told stake (said ++ [event]) roll' := by
  cases hstep with
  | joins hnew => exact h.joining hnew
  | writes hseated hfresh => exact h.writing hseated hfresh
  | rests => exact h.resting

/-- **Every run of a roll tells it.** -/
theorem told_of_run {hist : List (Said M × List (Entry M))} (h : Path (Step stake) [] hist roll) :
    Told stake (hist.map Prod.fst) roll := by
  induction h with
  | start => exact .empty
  | snoc _ hstep ih =>
      rw [List.map_append]
      exact ih.step hstep

end Roll

end CardTable
