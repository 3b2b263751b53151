import CardTable.Table
import Mathlib.Logic.ExistsUnique

/-!
# Turns — who gets to act before the table closes

The first turn goes to the player who joined first; rotation then walks
the ring of seats upwards and closes the table at its end. So the seats
that act are the ones from the first player's position on, each in one
round, and every seat acts exactly when the first player sits lowest.
-/

namespace CardTable.Table

open Basis

variable {t : Table} {hist : List (Event × Table)}

/-- The number of rounds whose decision has been reached. -/
def decided (t : Table) : Int :=
  match t.phase with
  | .s8BetDecision | .s9CardRevealThird | .s10SettledRound | .s11RotateTurn
  | .s12TableClose => t.round + 1
  | _ => t.round

/-- The history goes through a decision of round `r`. -/
def DecisionIn (hist : List (Event × Table)) (r : Int) : Prop :=
  ∃ e ∈ hist, e.2.phase = .s8BetDecision ∧ e.2.round = r

/-- `seat` had the turn at the decision of round `r`. -/
def ActsIn (hist : List (Event × Table)) (seat r : Int) : Prop :=
  ∃ e ∈ hist, e.2.phase = .s8BetDecision ∧ e.2.round = r ∧ e.2.acting = some seat

theorem DecisionIn.append {r : Int} (h : DecisionIn hist r) (e : Event × Table) :
    DecisionIn (hist ++ [e]) r := by
  obtain ⟨d, hd, hrest⟩ := h
  exact ⟨d, List.mem_append_left _ hd, hrest⟩

/-- No phase is reached from S8 in which players could still join. -/
theorem seats_of_decision (h : Path Step initial hist t) {e : Event × Table} (he : e ∈ hist)
    (hp : e.2.phase = .s8BetDecision) : t.phase ≠ .s1SeatOpen ∧ e.2.seats = t.seats := by
  induction h with
  | start => cases he
  | @snoc hist t t' i _ hs ih =>
      rcases List.mem_append.mp he with he | he
      · obtain ⟨hphase, hseats⟩ := ih he
        cases hs with
        | join h1 => exact absurd h1 hphase
        | commit _ _ hnext | entropy _ hnext =>
            rcases hnext with rfl | rfl
            · exact ⟨by simp, hseats⟩
            · exact ⟨by simp, hseats⟩
        | close h1 | deal h1 => exact ⟨hphase, hseats⟩
        | _ => exact ⟨by simp, hseats⟩
      · rw [List.mem_singleton] at he
        subst he
        exact ⟨by rw [hp]; simp, rfl⟩

/-- The decision of every round up to the present one is in the history. -/
theorem decisionIn_of_lt (h : Path Step initial hist t) {r : Int} (h0 : 0 ≤ r)
    (hr : r < t.decided) : t.phase = .recovered ∨ DecisionIn hist r := by
  induction h generalizing r with
  | start => simp only [initial, decided] at hr; omega
  | @snoc hist t t' i hpath hs ih =>
      -- every step but the one into S8 leaves the decided rounds as they were
      have hkept : ∀ {u : Table}, r < t.decided → t.phase ≠ .recovered →
          u.phase = .recovered ∨ DecisionIn (hist ++ [(i, t')]) r := by
        intro u hlt hne
        rcases ih h0 hlt with hrec | hin
        · exact absurd hrec hne
        · exact .inr (hin.append _)
      cases hs with
      | recover => exact .inl rfl
      | secondCard hphase =>
          by_cases hlast : r = t.round
          · exact .inr ⟨_, List.mem_append_right _ (List.mem_singleton_self _), rfl, hlast.symm⟩
          · refine hkept ?_ (by simp [hphase])
            simp only [decided, hphase] at hr ⊢
            omega
      | commit hphase _ hnext | entropy hphase hnext =>
          refine hkept ?_ (by simp [hphase])
          rcases hnext with rfl | rfl
          · simpa only [decided, hphase] using hr
          · simpa only [decided, hphase] using hr
      | pass hphase =>
          rcases hphase with hphase | hphase
          · refine hkept ?_ (by simp [hphase])
            simpa only [decided, hphase] using hr
          · have hinv := (wf_of_path hpath).phaseInv
            simp only [PhaseInv, hphase] at hinv
      | join hphase | lock hphase | deal hphase | firstCard hphase | thirdCard hphase
      | bet hphase | settle hphase | rotate hphase | finish hphase | close hphase =>
          refine hkept ?_ (by simp [hphase])
          simpa only [decided, hphase] using hr

/-- The player who has the turn in a decision sits as many positions
after the first player as the round's number. -/
theorem idxOf_of_actsIn (h : Path Step initial hist t) {first seat r : Int}
    (hfirst : t.seats.head? = some first) (ha : ActsIn hist seat r) :
    0 ≤ r ∧ seat ∈ t.seats ∧ (t.ring.idxOf seat : Int) = t.ring.idxOf first + r := by
  obtain ⟨⟨i, u⟩, hu, hphase, hround, hacting⟩ := ha
  -- the invariant is read where the decision was made, not at the end
  obtain ⟨pre, hpre, _⟩ := h.exists_prefix hu
  obtain ⟨_, hseats⟩ := seats_of_decision h hu hphase
  have hinv := (wf_of_path hpre).phaseInv
  simp only at hphase hround hacting hseats
  simp only [PhaseInv, hphase] at hinv
  obtain ⟨⟨first', x, hfirst', hx, hmem, h0, hpos⟩, _⟩ := hinv
  rw [hseats, hfirst] at hfirst'
  rw [hacting] at hx
  cases hfirst'
  cases hx
  refine ⟨by omega, hseats ▸ hmem, ?_⟩
  simp only [ring, hseats] at hpos ⊢
  omega

/-- **Turn fairness.** In a run that closed the table every seat had the
turn at exactly one decision, if and only if the first player to join
sits lowest. -/
theorem fair_iff_first_lowest (h : Path Step initial hist t) (hp : t.phase = .s12TableClose) :
    (∀ seat ∈ t.seats, ∃! r, ActsIn hist seat r) ↔
      ∀ first, t.seats.head? = some first → ∀ seat ∈ t.seats, first ≤ seat := by
  have hwf := wf_of_path h
  have hinv := hwf.phaseInv
  simp only [PhaseInv, hp] at hinv
  obtain ⟨⟨first, x, hfirst, hx, hmem, hround, hpos⟩, hlast⟩ := hinv
  have hend := (nextOnRing_eq_none (mem_ring.mpr hmem)).mp (hlast x hx)
  have hfirstMem : first ∈ t.ring := mem_ring.mpr (List.mem_of_head? hfirst)
  have hzero := idxOf_eq_zero_iff t.ring_sorted hwf.ring_nodup hfirstMem
  constructor
  · intro hfair first' hfirst' seat hseat
    rw [hfirst] at hfirst'
    cases hfirst'
    -- the lowest seat acted in some round, at position 0
    cases hring : t.ring with
    | nil => rw [hring] at hfirstMem; cases hfirstMem
    | cons low rest =>
        have hlow : low ∈ t.ring := by rw [hring]; exact List.mem_cons_self ..
        obtain ⟨r, hr, _⟩ := hfair low (mem_ring.mp hlow)
        obtain ⟨h0, _, hidx⟩ := idxOf_of_actsIn h hfirst hr
        have : t.ring.idxOf low = 0 := by rw [hring]; simp
        exact hzero.mp (by omega) seat (mem_ring.mpr hseat)
  · intro hlow seat hseat
    have hstart : t.ring.idxOf first = 0 :=
      hzero.mpr fun b hb => hlow first hfirst b (mem_ring.mp hb)
    have hlt := List.idxOf_lt_length_of_mem (mem_ring.mpr hseat)
    refine ⟨(t.ring.idxOf seat : Int), ?_, ?_⟩
    · have hdec : (t.ring.idxOf seat : Int) < t.decided := by
        simp only [decided, hp]
        omega
      rcases decisionIn_of_lt h (by omega) hdec with hrec | ⟨e, he, hphase, hr⟩
      · rw [hp] at hrec
        cases hrec
      · obtain ⟨pre, hpre, _⟩ := h.exists_prefix he
        have hdecision := (wf_of_path hpre).phaseInv
        simp only [PhaseInv, hphase] at hdecision
        obtain ⟨⟨_, y, _, hy, _⟩, _⟩ := hdecision
        obtain ⟨_, hyMem, hidx⟩ := idxOf_of_actsIn h hfirst ⟨e, he, hphase, hr, hy⟩
        have : y = seat :=
          idxOf_inj (mem_ring.mpr hyMem) (by omega) (mem_ring.mpr hseat)
        exact ⟨e, he, hphase, hr, by rw [← this]; exact hy⟩
    · intro r hr
      obtain ⟨_, _, hidx⟩ := idxOf_of_actsIn h hfirst hr
      omega

end CardTable.Table
