import CardTable.Ts.Steps
import CardTable.Turns

/-!
# Ts.Refine — the TypeScript engine walks the table

`RoundState.table` forgets everything but the turn order and the cards;
`table_step` says that every accepted action is then a step of `Table`,
and `table_run` carries whole runs over. The engine's own invariants of
seats and turns are read off `Table.WF`.
-/

namespace CardTable.Ts

open Basis

/-! ## Runs -/

/-- One accepted action at its height. -/
def Step (ruleSet : RuleSet) (state : RoundState) (input : SignedAction × SafeNat)
    (state' : RoundState) : Prop :=
  applyAction state input.1 ruleSet input.2 = .ok state'

/-- A run of accepted actions, oldest first, each with the state it led
to. -/
abbrev Run (ruleSet : RuleSet) (initial : RoundState) :
    List ((SignedAction × SafeNat) × RoundState) → RoundState → Prop :=
  Path (Step ruleSet) initial

/-! ## The abstraction -/

/-- The table of a round state. -/
def RoundState.table (state : RoundState) : Table where
  phase := state.stateClass
  seats := state.players.map (fun p => (p.seat.val : Int))
  acting := state.actingPlayerSeat.map (fun seat => (seat.val : Int))
  round := state.roundNumber.val
  shown := state.visibleCards

/-- What an action contributes to the record of a round. -/
def SignedAction.event : SignedAction → Event
  | .cardReveal a => .revealed a.reveal.revealedCard
  | .rotateTurn _ => .rotated
  | _ => .other

/-- A history seen as a history of the table. -/
def tableHistory (hist : List ((SignedAction × SafeNat) × RoundState)) : List (Event × Table) :=
  hist.map (Prod.map (fun input => input.1.event) RoundState.table)

theorem seatInt_inj {a b : SafeNat} (h : (a.val : Int) = b.val) : a = b :=
  SafeNat.ext (by omega)

theorem findSeat_getElem? {players : List PlayerState} {seat : Int} {idx : Nat}
    {p : PlayerState} (h : findSeat players seat = some (idx, p)) : players[idx]? = some p := by
  simp only [findSeat] at h
  split at h
  · cases h
  · rw [Option.map_eq_some_iff] at h
    obtain ⟨q, hq, hpair⟩ := h
    cases hpair
    exact hq

theorem findSeat_mem {players : List PlayerState} {seat : Int} {idx : Nat}
    {p : PlayerState} (h : findSeat players seat = some (idx, p)) : p ∈ players :=
  List.mem_of_getElem? (findSeat_getElem? h)

/-- The settlement loop changes nothing of a player but the stake. -/
theorem settlePlayers_map {β : Type} {f : PlayerState → β}
    (hf : ∀ (p : PlayerState) (n : SafeNat), f { p with stakeAtRisk := n } = f p)
    {acting : SafeNat} {delta : Int} {players out : List PlayerState}
    (h : settlePlayers acting delta players = .ok out) : out.map f = players.map f := by
  induction players generalizing out with
  | nil =>
      cases h
      rfl
  | cons p rest ih =>
      simp only [settlePlayers] at h
      split at h
      · obtain ⟨rest', hrest, h⟩ := Outcome.bind_eq_ok.mp h
        cases h
        rw [List.map_cons, List.map_cons, ih hrest]
      · split at h
        · cases h
        · obtain ⟨stake, _, h⟩ := Outcome.bind_eq_ok.mp h
          obtain ⟨rest', hrest, h⟩ := Outcome.bind_eq_ok.mp h
          cases h
          rw [List.map_cons, List.map_cons, ih hrest, hf]

theorem sortedSeats_perm (players : List PlayerState) :
    (sortedSeats players).Perm (players.map (·.seat)) := List.perm_insertionSort ..

theorem sortedSeats_sorted (players : List PlayerState) :
    (sortedSeats players).Pairwise (fun a b => (a.val : Int) ≤ b.val) := by
  have : Std.Total (fun a b : SafeNat => a.val ≤ b.val) := ⟨fun a b => Nat.le_total a.val b.val⟩
  have : IsTrans SafeNat (fun a b => a.val ≤ b.val) := ⟨fun _ _ _ => Nat.le_trans⟩
  have h := List.pairwise_insertionSort (fun a b : SafeNat => a.val ≤ b.val)
    (players.map (·.seat))
  exact h.imp (fun hab => Int.ofNat_le.mpr hab)

/-- The sorted seats are the ring of the table. -/
theorem ring_eq (state : RoundState) :
    state.table.ring = (sortedSeats state.players).map (fun seat => (seat.val : Int)) := by
  apply sorted_perm_unique state.table.ring_sorted
  · exact List.pairwise_map.mpr (sortedSeats_sorted state.players)
  · refine state.table.ring_perm.trans ?_
    have h := (sortedSeats_perm state.players).symm.map (fun seat => (seat.val : Int))
    rw [List.map_map] at h
    exact h

/-- The walk of the ring is the walk of the sorted seats. -/
theorem nextOnRing_table (state : RoundState) (acting : SafeNat) :
    nextOnRing state.table.ring acting.val =
      (nextOnRing (sortedSeats state.players) acting).map (fun seat => (seat.val : Int)) := by
  rw [ring_eq, ← nextOnRing_map (fun _ _ h => seatInt_inj h)]

theorem mem_sortedSeats {state : RoundState} {seat : SafeNat} :
    seat ∈ sortedSeats state.players ↔ (seat.val : Int) ∈ state.table.seats := by
  rw [← Table.mem_ring, ring_eq, List.mem_map]
  constructor
  · intro h
    exact ⟨seat, h, rfl⟩
  · intro hx
    obtain ⟨other, hother, heq⟩ := hx
    exact seatInt_inj heq ▸ hother

theorem sortedSeats_nodup {state : RoundState} (h : state.table.WF) :
    (sortedSeats state.players).Nodup := by
  have hring := h.ring_nodup
  rw [ring_eq] at hring
  exact List.Pairwise.of_map _ (fun a b hab heq => hab (by rw [heq])) hring

/-- Distinct numbers below a bound are no more than the bound. -/
theorem length_le_of_nodup {l : List Nat} {bound : Nat} (hnd : l.Nodup)
    (hlt : ∀ n ∈ l, n < bound) : l.length ≤ bound := by
  have hsub : l ⊆ List.range bound := fun n hn => List.mem_range.mpr (hlt n hn)
  have hlen := (List.subperm_of_subset hnd hsub).length_le
  rwa [List.length_range] at hlen

/-- There are no more players at a table than seat numbers. -/
theorem length_sortedSeats {state : RoundState} (h : state.table.WF) :
    (sortedSeats state.players).length ≤ maxSafeInteger + 1 := by
  have hnd : ((sortedSeats state.players).map SafeNat.val).Nodup :=
    (List.nodup_map_iff (fun _ _ hval => SafeNat.ext hval)).mpr (sortedSeats_nodup h)
  rw [← List.length_map SafeNat.val]
  apply length_le_of_nodup hnd
  intro n hn
  obtain ⟨seat, _, rfl⟩ := List.mem_map.mp hn
  exact Nat.lt_succ_of_le seat.isLe

/-! ## The simulation -/

theorem seats_set {players : List PlayerState} {seat : Int} {idx : Nat} {p q : PlayerState}
    (hfind : findSeat players seat = some (idx, p)) (hq : q.seat = p.seat) :
    (players.set idx q).map (fun p => (p.seat.val : Int)) =
      players.map (fun p => (p.seat.val : Int)) :=
  map_set_of_eq (findSeat_getElem? hfind) (by simp only [hq])

theorem seats_settled {acting : SafeNat} {delta : Int} {players out : List PlayerState}
    (h : settlePlayers acting delta players = .ok out) :
    out.map (fun p => (p.seat.val : Int)) = players.map (fun p => (p.seat.val : Int)) :=
  settlePlayers_map (fun _ _ => rfl) h

/-- A rotation moves the turn along the ring. -/
private theorem table_rotate {state : RoundState} {firstSeat nextSeat round : SafeNat}
    {rest : List SafeNat} (hwf : state.table.WF) (hclass : state.stateClass = .s11RotateTurn)
    (hseats : sortedSeats state.players = firstSeat :: rest)
    (hnext : nextSeat = seatAfter (firstSeat :: rest) firstSeat state.actingPlayerSeat)
    (hwrap : ¬(state.actingPlayerSeat ≠ none ∧ nextSeat = firstSeat))
    (hround : (round.val : Int) = state.roundNumber.val + 1) :
    Table.Step state.table .rotated
      { phase := .s6CardRevealFirst
        seats := state.table.seats
        acting := some nextSeat.val
        round := round.val
        shown := [] } := by
  have hinv := hwf.phaseInv
  simp only [Table.PhaseInv, RoundState.table, hclass] at hinv
  obtain ⟨_, x, _, hx, hmem, _⟩ := hinv
  cases hacting : state.actingPlayerSeat with
  | none => simp [hacting] at hx
  | some acting =>
      have hnd := sortedSeats_nodup hwf
      simp only [hacting, Option.map_some, Option.some.injEq] at hx
      have hin : acting ∈ sortedSeats state.players := by
        rw [mem_sortedSeats, hx]
        exact hmem
      rw [hseats] at hnd hin
      rw [hacting, Table.seatAfter_some hin] at hnext
      cases hn : nextOnRing (firstSeat :: rest) acting with
      | none =>
          rw [hn] at hnext
          exact absurd ⟨by simp [hacting], hnext⟩ hwrap
      | some y =>
          rw [hn] at hnext
          cases hnext
          rw [hround]
          refine .rotate (x := acting.val) hclass (by simp [RoundState.table, hacting]) ?_
          rw [nextOnRing_table, hseats, hn]
          rfl

private theorem table_finish {state : RoundState} {firstSeat : SafeNat} {rest : List SafeNat}
    (hwf : state.table.WF) (hclass : state.stateClass = .s11RotateTurn)
    (hseats : sortedSeats state.players = firstSeat :: rest)
    (hacting : state.actingPlayerSeat ≠ none)
    (hwrap : seatAfter (firstSeat :: rest) firstSeat state.actingPlayerSeat = firstSeat) :
    Table.Step state.table .rotated { state.table with phase := .s12TableClose } := by
  have hinv := hwf.phaseInv
  simp only [Table.PhaseInv, RoundState.table, hclass] at hinv
  obtain ⟨_, x, _, hx, hmem, _⟩ := hinv
  cases ha : state.actingPlayerSeat with
  | none => exact absurd ha hacting
  | some acting =>
      have hnd := sortedSeats_nodup hwf
      simp only [ha, Option.map_some, Option.some.injEq] at hx
      have hin : acting ∈ sortedSeats state.players := by
        rw [mem_sortedSeats, hx]
        exact hmem
      rw [hseats] at hnd hin
      rw [ha, Table.seatAfter_some hin, wrap_eq_first hnd] at hwrap
      refine .finish (x := acting.val) hclass (by simp [RoundState.table, ha]) ?_
      rw [nextOnRing_table, hseats, hwrap]
      rfl

/-- **The engine refines the table**: an accepted action is a step of the
table. -/
theorem table_step {ruleSet : RuleSet} {state state' : RoundState}
    {input : SignedAction × SafeNat} (hwf : state.table.WF)
    (h : Step ruleSet state input state') :
    Table.Step state.table input.1.event state'.table := by
  obtain ⟨action, height⟩ := input
  obtain ⟨_, h⟩ := accepts_of_applyAction h
  cases h with
  | @join a seat hclass _ _ _ hfree =>
      have hnew : (seat.val : Int) ∉ state.table.seats := by
        simp only [RoundState.table, List.mem_map, not_exists, not_and]
        intro p hp heq
        exact hfree (List.mem_map.mpr ⟨p, hp, seatInt_inj heq⟩)
      have hstep := Table.Step.join hclass hnew
      simpa [RoundState.table, joinedPlayer, SignedAction.event] using hstep
  | tableLock hclass => exact .lock hclass
  | entropyCommit hclass hfind hnext =>
      have hseats : state.table.seats ≠ [] := by
        simp only [RoundState.table, ne_eq, List.map_eq_nil_iff]
        exact List.ne_nil_of_mem (findSeat_mem hfind)
      have hstep := Table.Step.commit hclass hseats hnext
      simpa only [RoundState.table, RoundState.advance, SignedAction.event,
        seats_set hfind] using hstep
  | entropyReveal hclass hfind hnext =>
      have hstep := Table.Step.entropy (t := state.table) hclass hnext
      simpa only [RoundState.table, RoundState.advance, SignedAction.event,
        seats_set hfind] using hstep
  | firstCard hclass => exact .firstCard hclass
  | @secondCard a hclass =>
      have hstep := Table.Step.secondCard (t := state.table) (c := a.reveal.revealedCard) hclass
      have hacting : (state.actingPlayerSeat.or (state.players.head?.map (·.seat))).map
          (fun seat => (seat.val : Int)) =
            state.table.acting.or state.table.seats.head? := by
        cases hs : state.actingPlayerSeat with
        | none => simp [RoundState.table, hs, Function.comp_def]
        | some seat => simp [RoundState.table, hs]
      rw [← hacting] at hstep
      exact hstep
  | thirdCard hclass => exact .thirdCard hclass
  | dealConcealed hclass => exact .deal hclass
  | bet hclass => exact .bet hclass
  | pass hclass => exact .pass (.inl hclass)
  | fold hclass _ _ hfind =>
      have hstep := Table.Step.pass (t := state.table) hclass
      simpa only [RoundState.table, RoundState.advance, SignedAction.event,
        seats_set hfind] using hstep
  | settle hclass hshown _ _ _ _ hplayers =>
      have hstep := Table.Step.settle (t := state.table) hclass hshown
      simpa only [RoundState.table, RoundState.advance, SignedAction.event,
        seats_settled hplayers] using hstep
  | rotate hclass hseats hnext hwrap hround =>
      exact table_rotate hwf hclass hseats hnext hwrap hround
  | finish hclass hseats hacting hwrap => exact table_finish hwf hclass hseats hacting hwrap
  | tableClose hclass => exact .close hclass
  -- to the table a timeout at S8 is a pass
  | timeout hclass => exact .pass (.inl hclass)
  | recovery => exact .recover

/-- **Every run of the engine is a run of the table.** -/
theorem table_run {ruleSet : RuleSet} {gameId ruleSetHash : String} {deadline : SafeNat}
    {state : RoundState} {hist : List ((SignedAction × SafeNat) × RoundState)}
    (h : Run ruleSet (initialState gameId ruleSetHash deadline) hist state) :
    Path Table.Step Table.initial (tableHistory hist) state.table ∧ state.table.WF :=
  h.map_of_invariant (f := RoundState.table) (g := fun input => input.1.event)
    Table.wf_initial Table.WF.step table_step

/-! ## Reading the table back -/

/-- The cards revealed in a history since its last rotation. -/
def cardsOfRound (hist : List ((SignedAction × SafeNat) × RoundState)) : List RevealedCard :=
  Table.cardsOfRound (hist.map (fun e => e.1.1.event))

/-- `seat` was the acting seat at the bet decision of round `r`. -/
def ActsIn (hist : List ((SignedAction × SafeNat) × RoundState)) (seat : SafeNat)
    (r : Int) : Prop :=
  ∃ e ∈ hist, e.2.stateClass = .s8BetDecision ∧ (e.2.roundNumber.val : Int) = r ∧
    e.2.actingPlayerSeat = some seat

theorem cardsOfRound_table (hist : List ((SignedAction × SafeNat) × RoundState)) :
    Table.cardsOfRound ((tableHistory hist).map Prod.fst) = cardsOfRound hist := by
  rw [tableHistory, List.map_map]
  rfl

theorem actsIn_table {hist : List ((SignedAction × SafeNat) × RoundState)} {seat : SafeNat}
    {r : Int} : Table.ActsIn (tableHistory hist) seat.val r ↔ ActsIn hist seat r := by
  constructor
  · intro h
    obtain ⟨_, hmem, hphase, hround, hacting⟩ := h
    obtain ⟨e, he, rfl⟩ := List.mem_map.mp hmem
    refine ⟨e, he, hphase, hround, ?_⟩
    obtain ⟨seat', hseat', heq⟩ := Option.map_eq_some_iff.mp hacting
    rw [hseat', seatInt_inj heq]
  · intro h
    obtain ⟨e, he, hphase, hround, hacting⟩ := h
    refine ⟨_, List.mem_map.mpr ⟨e, he, rfl⟩, hphase, hround, ?_⟩
    simp [RoundState.table, hacting]

/-- The actions a player decides with at S8. -/
def SignedAction.decides : SignedAction → Bool
  | .betAction _ | .pass _ | .fold _ => true
  | _ => false

/-- Every accepted decision is in the name of the acting seat. -/
def OnlyActingDecides (ruleSet : RuleSet) (state : RoundState) : Prop :=
  ∀ action height state', Step ruleSet state (action, height) state' → action.decides = true →
    action.base.actingPlayerSeat = state.actingPlayerSeat.map (fun seat => (seat.val : Int))

/-! ## A sample game

Two players, a rule set with no surprises (the one the audit tools are
built with) and the actions up to the first decision. -/

/-- `defaultRuleSet` of `tools/transcript-verifier`. -/
def defaultRuleSet : RuleSet where
  playerCountMin := 2
  playerCountMax := 4
  stakeAmount := ⟨1000, by decide⟩
  minBet := ⟨1, by decide⟩
  maxBet := ⟨100, by decide⟩
  deckFormat := 52
  shuffleAlgorithmVersion := 1
  settlementRules :=
    { inBetweenWinMultiplier := 1
      inBetweenLossMultiplier := 1
      consecutiveCardsPenalty := ⟨50, by decide⟩
      equalCardsPenalty := ⟨100, by decide⟩ }

/-- The common fields of an action taken by the player on `seat`. -/
def actionBy (seat : Option Int) : SignedActionBase where
  gameId := "g"
  roundNumber := 0
  referencedStateHash := ""
  actionNonce := ""
  actingPlayerSeat := seat
  authorisingSignature := ""
  successorStateCommitment := ""

/-- Reveal a card of the given ordinal. -/
def revealCard (ordinal : Int) : SignedAction :=
  .cardReveal { actionBy none with
    reveal := ⟨0, ⟨"", "", ordinal⟩, "", ""⟩ }

/-- Two players join, on `first` and then on `second`, and lock the
table; both commit and reveal their entropy, and two cards are dealt. -/
def openTable (first second : Int) : List SignedAction :=
  [ .join { actionBy (some first) with playerPubkey := "A", stakeAmount := 1000 },
    .join { actionBy (some second) with playerPubkey := "B", stakeAmount := 1000 },
    .tableLock (actionBy none),
    .entropyCommit { actionBy (some first) with commitmentHash := "" },
    .entropyCommit { actionBy (some second) with commitmentHash := "" },
    .entropyReveal { actionBy (some first) with entropy := "" },
    .entropyReveal { actionBy (some second) with entropy := "" },
    revealCard 1, revealCard 9 ]

/-- Play the actions from a fresh session of game `g`, all at height 0. -/
def playSample (actions : List SignedAction) :
    Option (List ((SignedAction × SafeNat) × RoundState) × RoundState) :=
  play (fun state input => (applyAction state input.1 defaultRuleSet input.2).value?)
    (initialState "g" "" 244) (actions.map (·, 0))

/-- A sample that plays through is a run. -/
theorem run_of_playSample {actions : List SignedAction}
    {hist : List ((SignedAction × SafeNat) × RoundState)} {state : RoundState}
    (h : playSample actions = some (hist, state)) :
    Run defaultRuleSet (initialState "g" "" 244) hist state := by
  have hpath := path_of_play h
  simp only [Outcome.value?_eq_some] at hpath
  exact hpath

end CardTable.Ts
