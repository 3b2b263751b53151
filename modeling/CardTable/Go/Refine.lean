import CardTable.Go.Steps
import CardTable.Turns

/-!
# Go.Refine — the Go engine walks the same table

The counterpart of `Ts.Refine`: every accepted action is a step of
`Table`, and every run is a run of it.
-/

namespace CardTable.Go

open Basis

/-! ## Runs -/

/-- One accepted action at its height. -/
def Step (ruleSet : RuleSet) (state : RoundState) (input : SignedAction × UInt32)
    (state' : RoundState) : Prop :=
  applyAction state input.1 ruleSet input.2 = .ok state'

/-- A run of accepted actions, oldest first, each with the state it led
to. -/
abbrev Run (ruleSet : RuleSet) (initial : RoundState) :
    List ((SignedAction × UInt32) × RoundState) → RoundState → Prop :=
  Path (Step ruleSet) initial

/-! ## The abstraction -/

/-- The table of a round state. -/
def RoundState.table (state : RoundState) : Table where
  phase := state.stateClass
  seats := state.players.map (·.seat)
  acting := state.actingPlayerSeat
  round := state.roundNumber
  shown := state.visibleCards

/-- What an action contributes to the record of a round. -/
def SignedAction.event (action : SignedAction) : Event :=
  match action.actionType with
  | .cardReveal => .revealed action.reveal.revealedCard
  | .rotateTurn => .rotated
  | _ => .other

/-- A history seen as a history of the table. -/
def tableHistory (hist : List ((SignedAction × UInt32) × RoundState)) : List (Event × Table) :=
  hist.map (Prod.map (fun input => input.1.event) RoundState.table)

/-! ## Insertion sort -/

theorem sinkSeat_perm (l : List Int) (x : Int) : (sinkSeat l x).Perm (x :: l) := by
  induction l with
  | nil => exact List.Perm.refl _
  | cons y ys ih =>
      simp only [sinkSeat]
      split
      · exact (ih.cons y).trans (List.Perm.swap x y ys)
      · exact List.Perm.refl _

theorem sinkSeat_sorted {l : List Int} (x : Int) (h : l.Pairwise (· ≥ ·)) :
    (sinkSeat l x).Pairwise (· ≥ ·) := by
  induction l with
  | nil => exact List.pairwise_singleton _ _
  | cons y ys ih =>
      obtain ⟨hy, hys⟩ := List.pairwise_cons.mp h
      simp only [sinkSeat]
      split
      · rename_i hxy
        refine List.pairwise_cons.mpr ⟨?_, ih hys⟩
        intro z hz
        rcases List.mem_cons.mp ((sinkSeat_perm ys x).mem_iff.mp hz) with rfl | hz
        · show z ≤ y
          omega
        · exact hy z hz
      · rename_i hxy
        refine List.pairwise_cons.mpr ⟨?_, h⟩
        intro z hz
        rcases List.mem_cons.mp hz with rfl | hz
        · show z ≤ x
          omega
        · have : y ≥ z := hy z hz
          show z ≤ x
          omega

/-- The sorted prefix of the loop after any number of rounds. -/
private theorem sortSeats_loop {acc : List Int} (h : acc.Pairwise (· ≥ ·)) (s : List Int) :
    (s.foldl sinkSeat acc).Pairwise (· ≥ ·) ∧ (s.foldl sinkSeat acc).Perm (s ++ acc) := by
  induction s generalizing acc with
  | nil => exact ⟨h, List.Perm.refl _⟩
  | cons x rest ih =>
      obtain ⟨hsorted, hperm⟩ := ih (sinkSeat_sorted x h)
      refine ⟨hsorted, hperm.trans ?_⟩
      exact ((sinkSeat_perm acc x).append_left rest).trans List.perm_middle

theorem sortSeats_sorted (s : List Int) : (sortSeats s).Pairwise (· ≤ ·) :=
  List.pairwise_reverse.mpr (sortSeats_loop List.Pairwise.nil s).1

theorem sortSeats_perm (s : List Int) : (sortSeats s).Perm s := by
  have h := (sortSeats_loop List.Pairwise.nil s).2
  rw [List.append_nil] at h
  exact (List.reverse_perm _).trans h

/-- The sorted seats are the ring of the table. -/
theorem ring_eq (state : RoundState) :
    state.table.ring = sortSeats (state.players.map (·.seat)) :=
  sorted_perm_unique state.table.ring_sorted (sortSeats_sorted _)
    (state.table.ring_perm.trans (sortSeats_perm _).symm)

/-! ## Seats are kept -/

theorem seats_set {players : List PlayerState} {seat : Int} {idx : Nat} {p q : PlayerState}
    (hfind : findSeat players seat = some (idx, p)) (hq : q.seat = p.seat) :
    (players.set idx q).map (·.seat) = players.map (·.seat) :=
  map_set_of_eq (findSeat_getElem? hfind) hq

/-- The settlement loop keeps every player on his seat. -/
theorem seats_settled {acting : Int} {delta : Int64} {players out : List PlayerState}
    (h : settlePlayers acting delta players = .ok out) :
    out.map (·.seat) = players.map (·.seat) :=
  settlePlayers_map (fun _ _ => rfl) h

/-! ## The simulation -/

variable {ruleSet : RuleSet} {state state' : RoundState}

/-- The acting player of a state that rotates, on the ring. -/
private theorem acting_on_ring (hwf : state.table.WF) (hclass : state.stateClass = .s11RotateTurn)
    {seats : List Int} (hseats : sortSeats (state.players.map (·.seat)) = seats) :
    ∃ x, state.actingPlayerSeat = some x ∧ x ∈ seats ∧ seats.Nodup ∧ state.table.ring = seats := by
  have hinv := hwf.phaseInv
  simp only [Table.PhaseInv, RoundState.table, hclass] at hinv
  obtain ⟨_, x, _, hx, hmem, _⟩ := hinv
  have hring : state.table.ring = seats := (ring_eq state).trans hseats
  refine ⟨x, hx, ?_, ?_, hring⟩
  · rw [← hring]
    exact Table.mem_ring.mpr hmem
  · rw [← hring]
    exact hwf.ring_nodup

/-- A rotation moves the turn along the ring. -/
private theorem table_rotate {firstSeat nextSeat : Int} {rest : List Int} (hwf : state.table.WF)
    (hclass : state.stateClass = .s11RotateTurn)
    (hseats : sortSeats (state.players.map (·.seat)) = firstSeat :: rest)
    (hnext : nextSeat = seatAfter (firstSeat :: rest) firstSeat state.actingPlayerSeat)
    (hwrap : ¬(state.actingPlayerSeat ≠ none ∧ nextSeat = firstSeat)) :
    Table.Step state.table .rotated
      { phase := .s6CardRevealFirst
        seats := state.table.seats
        acting := some nextSeat
        round := state.roundNumber + 1
        shown := [] } := by
  obtain ⟨x, hacting, hin, _, hring⟩ := acting_on_ring hwf hclass hseats
  rw [hacting, Table.seatAfter_some hin] at hnext
  cases hn : nextOnRing (firstSeat :: rest) x with
  | none =>
      rw [hn] at hnext
      exact absurd ⟨by simp [hacting], hnext⟩ hwrap
  | some y =>
      rw [hn] at hnext
      cases hnext
      refine .rotate (x := x) hclass hacting ?_
      rw [hring, hn]
      rfl

private theorem table_finish {firstSeat : Int} {rest : List Int} (hwf : state.table.WF)
    (hclass : state.stateClass = .s11RotateTurn)
    (hseats : sortSeats (state.players.map (·.seat)) = firstSeat :: rest)
    (hwrap : seatAfter (firstSeat :: rest) firstSeat state.actingPlayerSeat = firstSeat) :
    Table.Step state.table .rotated { state.table with phase := .s12TableClose } := by
  obtain ⟨x, hacting, hin, hnd, hring⟩ := acting_on_ring hwf hclass hseats
  rw [hacting, Table.seatAfter_some hin, wrap_eq_first hnd] at hwrap
  refine .finish (x := x) hclass hacting ?_
  rw [hring, hwrap]

/-- **The engine refines the table**: an accepted action is a step of the
table. -/
theorem table_step {input : SignedAction × UInt32} (hwf : state.table.WF)
    (h : Step ruleSet state input state') :
    Table.Step state.table input.1.event state'.table := by
  obtain ⟨action, height⟩ := input
  obtain ⟨_, h⟩ := accepts_of_applyAction h
  simp only [SignedAction.event]
  cases h with
  | @join seat hkind hclass _ _ _ hfree =>
      rw [hkind]
      have hnew : seat ∉ state.table.seats := hfree
      have hstep := Table.Step.join hclass hnew
      simpa [RoundState.table, joinedPlayer] using hstep
  | tableLock hkind hclass =>
      rw [hkind]
      exact .lock hclass
  | entropyCommit hkind hclass _ hfind hnext =>
      rw [hkind]
      have hseats : state.table.seats ≠ [] := by
        simp only [RoundState.table, ne_eq, List.map_eq_nil_iff]
        exact List.ne_nil_of_mem (findSeat_mem hfind)
      have hstep := Table.Step.commit hclass hseats hnext
      simpa only [RoundState.table, RoundState.advance, seats_set hfind] using hstep
  -- the reveal that completes the set leaves S4
  | @entropyReveal seat idx p players next hkind hclass _ hfind hplayers hnext =>
      rw [hkind, hplayers]
      have hnext' : next = .s4EntropyRevealWindow ∨ next = .s5DeckCommitted := by
        rw [hnext]
        split
        · exact .inr rfl
        · exact .inl rfl
      have hstep := Table.Step.entropy (t := state.table) hclass hnext'
      simpa only [RoundState.table, RoundState.advance, seats_set hfind] using hstep
  | firstCard hkind hclass =>
      rw [hkind]
      exact .firstCard hclass
  -- the turn is set here when no rotation has set it yet
  | secondCard hkind hclass =>
      rw [hkind]
      have hstep := Table.Step.secondCard (t := state.table) (c := action.reveal.revealedCard)
        hclass
      have hacting : state.actingPlayerSeat.or (state.players.head?.map (·.seat)) =
          state.table.acting.or state.table.seats.head? := by
        simp [RoundState.table]
      rw [← hacting] at hstep
      exact hstep
  | thirdCard hkind hclass =>
      rw [hkind]
      exact .thirdCard hclass
  | dealConcealed hkind hclass =>
      rw [hkind]
      exact .deal hclass
  | bet hkind hclass =>
      rw [hkind]
      exact .bet hclass
  | pass hkind hclass =>
      rw [hkind]
      exact .pass (.inl hclass)
  | fold hkind hclass _ hfind =>
      rw [hkind]
      have hstep := Table.Step.pass (t := state.table) hclass
      simpa only [RoundState.table, RoundState.advance, seats_set hfind] using hstep
  | settle hkind hclass hshown _ _ _ _ hplayers =>
      rw [hkind]
      have hstep := Table.Step.settle (t := state.table) hclass hshown
      simpa only [RoundState.table, RoundState.advance, seats_settled hplayers] using hstep
  | rotate hkind hclass hseats hnext hwrap =>
      rw [hkind]
      exact table_rotate hwf hclass hseats hnext hwrap
  | finish hkind hclass hseats _ hwrap =>
      rw [hkind]
      exact table_finish hwf hclass hseats hwrap
  | tableClose hkind hclass =>
      rw [hkind]
      exact .close hclass
  -- to the table a timeout at S8 is a pass
  | timeout hkind hclass =>
      rw [hkind]
      exact .pass (.inl hclass)
  | recovery hkind =>
      rw [hkind]
      exact .recover

/-- **Every run of the engine is a run of the table.** -/
theorem table_run {gameId ruleSetHash : String} {deadline : UInt32}
    {hist : List ((SignedAction × UInt32) × RoundState)}
    (h : Run ruleSet (initialState gameId ruleSetHash deadline) hist state) :
    Path Table.Step Table.initial (tableHistory hist) state.table ∧ state.table.WF :=
  h.map_of_invariant (f := RoundState.table) (g := fun input => input.1.event)
    Table.wf_initial Table.WF.step table_step

/-! ## Reading the table back -/

/-- The cards revealed in a history since its last rotation. -/
def cardsOfRound (hist : List ((SignedAction × UInt32) × RoundState)) : List RevealedCard :=
  Table.cardsOfRound (hist.map (fun e => e.1.1.event))

/-- `seat` was the acting seat at the bet decision of round `r`. -/
def ActsIn (hist : List ((SignedAction × UInt32) × RoundState)) (seat r : Int) : Prop :=
  ∃ e ∈ hist, e.2.stateClass = .s8BetDecision ∧ e.2.roundNumber = r ∧
    e.2.actingPlayerSeat = some seat

theorem cardsOfRound_table (hist : List ((SignedAction × UInt32) × RoundState)) :
    Table.cardsOfRound ((tableHistory hist).map Prod.fst) = cardsOfRound hist := by
  rw [tableHistory, List.map_map]
  rfl

theorem actsIn_table {hist : List ((SignedAction × UInt32) × RoundState)} {seat r : Int} :
    Table.ActsIn (tableHistory hist) seat r ↔ ActsIn hist seat r := by
  constructor
  · intro h
    obtain ⟨_, hmem, hphase, hround, hacting⟩ := h
    obtain ⟨e, he, rfl⟩ := List.mem_map.mp hmem
    exact ⟨e, he, hphase, hround, hacting⟩
  · intro h
    obtain ⟨e, he, hphase, hround, hacting⟩ := h
    exact ⟨_, List.mem_map.mpr ⟨e, he, rfl⟩, hphase, hround, hacting⟩

/-- The actions a player decides with at S8. -/
def SignedAction.decides (action : SignedAction) : Bool :=
  match action.actionType with
  | .betAction | .pass | .fold => true
  | _ => false

/-- Every accepted decision is in the name of the acting seat. -/
def OnlyActingDecides (ruleSet : RuleSet) (state : RoundState) : Prop :=
  ∀ action height state', Step ruleSet state (action, height) state' → action.decides = true →
    action.actingPlayerSeat = state.actingPlayerSeat

end CardTable.Go
