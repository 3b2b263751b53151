import CardTable.Fallback

/-!
# Seating — who sits where

`applyJoin` seats a player on the seat the action names or, when it
names none, on the seat whose number is the count of players already
seated. It checks that the seat is free and that the table is not full;
it does not check that a named seat lies below `player_count_max`, and
the automatic choice does not look for a free seat.

`Joining` is what both engines have in common here: a system whose steps
seat a player or leave the seats alone. Seats taken in the order
0, 1, 2, … are in range and leave the automatic choice free; a seat named
ahead of its turn is out of range or is met by a later automatic choice.
-/

namespace CardTable

open Basis

/-! ## Lists of seats -/

/-- The seats were taken in the order 0, 1, 2, … -/
def TakenInOrder (seats : List Int) : Prop := seats = (List.range seats.length).map Int.ofNat

/-- What the table promises of its seats. -/
structure Seated (most : Int) (seats : List Int) : Prop where
  distinct : seats.Nodup
  in_range : ∀ seat ∈ seats, 0 ≤ seat ∧ seat < most
  count : (seats.length : Int) ≤ most

namespace TakenInOrder

variable {seats : List Int}

theorem nil : TakenInOrder [] := rfl

theorem mem_iff (h : TakenInOrder seats) {seat : Int} :
    seat ∈ seats ↔ 0 ≤ seat ∧ seat < seats.length := by
  rw [h, List.mem_map, List.length_map, List.length_range]
  constructor
  · rintro ⟨n, hn, rfl⟩
    have := List.mem_range.mp hn
    exact ⟨Int.natCast_nonneg n, Int.ofNat_lt.mpr this⟩
  · rintro ⟨h0, hlt⟩
    obtain ⟨n, rfl⟩ := Int.eq_ofNat_of_zero_le h0
    exact ⟨n, List.mem_range.mpr (Int.ofNat_lt.mp hlt), rfl⟩

theorem nodup (h : TakenInOrder seats) : seats.Nodup := by
  rw [h]
  exact List.nodup_range.map fun _ _ heq => Int.ofNat.inj heq

/-- The automatic choice is free. -/
theorem next_free (h : TakenInOrder seats) : (seats.length : Int) ∉ seats := by
  rw [h.mem_iff]
  omega

theorem snoc (h : TakenInOrder seats) : TakenInOrder (seats ++ [(seats.length : Int)]) := by
  rw [TakenInOrder, List.length_append, List.length_singleton, List.range_succ, List.map_append,
    ← h]
  rfl

theorem seated {most : Int} (h : TakenInOrder seats) (hcount : (seats.length : Int) ≤ most) :
    Seated most seats := by
  refine ⟨h.nodup, ?_, hcount⟩
  intro seat hseat
  obtain ⟨h0, hlt⟩ := h.mem_iff.mp hseat
  exact ⟨h0, by omega⟩

end TakenInOrder

/-! ## Systems that seat players -/

/-- A system whose steps seat one player or leave the seats alone. A join
names a seat or leaves the choice to the system, which then takes the
count of the seated. -/
structure Joining (σ ι : Type) where
  step : σ → ι → σ → Prop
  seats : σ → List Int
  isOpen : σ → Prop
  /-- what a join names; `none` for the other inputs -/
  named : ι → Option (Option Int)
  most : Int
  /-- the numbers that can be stored as a seat -/
  seatable : Int → Prop
  step_cases : ∀ {s i s'}, step s i s' →
    (named i = none ∧ seats s' = seats s) ∨
      ∃ choice, named i = some choice ∧ isOpen s ∧ isOpen s' ∧
        ((seats s).length : Int) < most ∧ choice.getD (seats s).length ∉ seats s ∧
        seatable (choice.getD (seats s).length) ∧
        seats s' = seats s ++ [choice.getD (seats s).length]
  can_join : ∀ {s}, isOpen s → ((seats s).length : Int) < most → seatable (seats s).length →
    ((seats s).length : Int) ∉ seats s → ∃ i s', named i = some none ∧ step s i s'

namespace Joining

variable {σ ι : Type} {J : Joining σ ι} {s s₀ s' : σ} {i : ι} {hist : List (ι × σ)}

/-- A join names no seat but the automatic one. -/
def InTurn (J : Joining σ ι) (s : σ) (i : ι) : Prop :=
  ∀ seat, J.named i = some (some seat) → seat = (J.seats s).length

/-- A step in turn. -/
def StepInTurn (J : Joining σ ι) (s : σ) (i : ι) (s' : σ) : Prop := J.step s i s' ∧ J.InTurn s i

/-- A join that leaves the choice to the system. -/
def Automatic (J : Joining σ ι) (s : σ) (i : ι) (s' : σ) : Prop :=
  J.step s i s' ∧ J.named i = some none

/-- The seats are as promised, and while there is room the automatic
choice can be taken. -/
def Orderly (J : Joining σ ι) (s : σ) : Prop :=
  Seated J.most (J.seats s) ∧
    (J.isOpen s → ((J.seats s).length : Int) < J.most →
      J.seatable (J.seats s).length ∧ ((J.seats s).length : Int) ∉ J.seats s)

/-- `P` holds in every state of a run and in every state automatic joins
lead to from one of them. -/
def Throughout (J : Joining σ ι) (P : σ → Prop) (s₀ : σ) (hist : List (ι × σ)) : Prop :=
  ∀ pre post u, pre ++ post = hist → Path J.step s₀ pre u →
    ∀ cont v, Path J.Automatic u cont v → P v

theorem Throughout.init {P : σ → Prop} {post : List (ι × σ)}
    (h : J.Throughout P s₀ (hist ++ post)) : J.Throughout P s₀ hist := by
  intro pre rest u hpre hu cont v hv
  exact h pre (rest ++ post) u (by rw [← List.append_assoc, hpre]) hu cont v hv

/-- Every number below the limit can be stored. -/
def Wide (J : Joining σ ι) : Prop := ∀ n : Nat, (n : Int) < J.most → J.seatable n

/-- What the runs in turn keep. -/
def Filled (J : Joining σ ι) (s : σ) : Prop :=
  TakenInOrder (J.seats s) ∧ ((J.seats s).length : Int) ≤ J.most

theorem Filled.step (h : J.Filled s) (hstep : J.StepInTurn s i s') : J.Filled s' := by
  obtain ⟨horder, hcount⟩ := h
  obtain ⟨hstep, hturn⟩ := hstep
  rcases J.step_cases hstep with ⟨_, hsame⟩ | ⟨choice, hnamed, _, _, hroom, _, _, hseats⟩
  · rw [Filled, hsame]
    exact ⟨horder, hcount⟩
  · have hchoice : choice.getD (J.seats s).length = (J.seats s).length := by
      cases choice with
      | none => rfl
      | some seat => exact hturn seat hnamed
    rw [hchoice] at hseats
    rw [Filled, hseats, List.length_append, List.length_singleton]
    exact ⟨horder.snoc, by omega⟩

theorem Filled.orderly (hwide : J.Wide) (h : J.Filled s) : J.Orderly s := by
  refine ⟨h.1.seated h.2, ?_⟩
  intro _ hroom
  exact ⟨hwide _ hroom, h.1.next_free⟩

theorem stepInTurn_of_automatic (h : J.Automatic s i s') : J.StepInTurn s i s' := by
  refine ⟨h.1, ?_⟩
  intro seat hnamed
  rw [h.2] at hnamed
  cases hnamed

/-- One automatic join. -/
theorem automatic_step (h : J.Automatic s i s') :
    J.isOpen s' ∧ J.seats s' = J.seats s ++ [((J.seats s).length : Int)] := by
  rcases J.step_cases h.1 with ⟨hnone, _⟩ | ⟨choice, hnamed, _, hopen, _, _, _, hseats⟩
  · rw [h.2] at hnone
    cases hnone
  · rw [h.2] at hnamed
    cases hnamed
    exact ⟨hopen, hseats⟩

/-- **Automatic joins go on until the choice is blocked** or the count
reaches a given number. -/
theorem reaches (hopen : J.isOpen s) {n : Nat} (hn : (n : Int) ≤ J.most)
    (hseatable : ∀ k : Nat, k < n → J.seatable k) (hlen : (J.seats s).length ≤ n) :
    CanReach J.Automatic (fun v => J.isOpen v ∧ (∀ x ∈ J.seats s, x ∈ J.seats v) ∧
      (J.seats v).length ≤ n ∧
      (((J.seats v).length : Int) ∈ J.seats v ∧ (J.seats v).length < n ∨
        (J.seats v).length = n)) s := by
  -- on the number of players still to come
  generalize hleft : n - (J.seats s).length = left
  induction left generalizing s with
  | zero => exact .here ⟨hopen, fun _ hx => hx, hlen, .inr (by omega)⟩
  | succ left ih =>
      have hlt : (J.seats s).length < n := by omega
      by_cases hfree : ((J.seats s).length : Int) ∈ J.seats s
      · exact .here ⟨hopen, fun _ hx => hx, hlen, .inl ⟨hfree, hlt⟩⟩
      · obtain ⟨i, s', hnamed, hstep⟩ :=
          J.can_join hopen (by omega) (hseatable _ hlt) hfree
        obtain ⟨hopen', hseats⟩ := automatic_step ⟨hstep, hnamed⟩
        have hlen' : (J.seats s').length = (J.seats s).length + 1 := by
          rw [hseats, List.length_append, List.length_singleton]
        refine .step i ⟨hstep, hnamed⟩ ?_
        refine (ih hopen' (by omega) (by omega)).trans fun v hv => .here ?_
        obtain ⟨hv, hkeeps, hrest⟩ := hv
        refine ⟨hv, ?_, hrest⟩
        intro x hx
        exact hkeeps x (by rw [hseats]; exact List.mem_append_left _ hx)

/-- A run that stays orderly, automatic joins included, could store every
number below the limit. -/
theorem wide_of_throughout (hempty : J.seats s₀ = []) (hopen : J.isOpen s₀)
    (h : J.Throughout J.Orderly s₀ hist) : J.Wide := by
  intro n
  induction n using Nat.strongRecOn with
  | ind n ih =>
      intro hn
      obtain ⟨cont, v, hcont, hv, _, _, hend⟩ := reaches hopen (n := n) (by omega)
        (fun k hk => ih k hk (by omega)) (by rw [hempty]; exact Nat.zero_le n)
      obtain ⟨_, hroom⟩ := h [] hist s₀ rfl .start cont v hcont
      rcases hend with ⟨hblocked, hlt⟩ | hlen
      · exact absurd hblocked (hroom hv (by omega)).2
      · rw [← hlen]
        exact (hroom hv (by omega)).1

/-- **A seat named ahead of its turn** breaks the promise, at once or
after some automatic joins. -/
theorem not_orderly_of_early (hwide : J.Wide) (hfilled : J.Filled s) (hstep : J.step s i s')
    (hearly : ¬J.InTurn s i) : CanReach J.Automatic (fun v => ¬J.Orderly v) s' := by
  obtain ⟨horder, _⟩ := hfilled
  simp only [InTurn, not_forall] at hearly
  obtain ⟨seat, hnamed, hne⟩ := hearly
  rcases J.step_cases hstep with ⟨hnone, _⟩ | ⟨choice, hchoice, _, hopen, hroom, hfree, _, hseats⟩
  · rw [hnamed] at hnone
    cases hnone
  · rw [hnamed] at hchoice
    cases hchoice
    rw [Option.getD_some] at hfree hseats
    rw [horder.mem_iff] at hfree
    have hlen : (J.seats s').length = (J.seats s).length + 1 := by
      rw [hseats, List.length_append, List.length_singleton]
    have hmem : seat ∈ J.seats s' := by simp [hseats]
    by_cases hrange : 0 ≤ seat ∧ seat < J.most
    · -- the count will get to the number of that seat
      obtain ⟨n, rfl⟩ := Int.eq_ofNat_of_zero_le hrange.1
      refine (reaches hopen (n := n) (by omega) (fun k hk => hwide k (by omega))
        (by omega)).trans fun v hv => .here ?_
      obtain ⟨hv, hkeeps, hle, hend⟩ := hv
      intro horderly
      have hblocked : ((J.seats v).length : Int) ∈ J.seats v := by
        rcases hend with ⟨hblocked, _⟩ | hlast
        · exact hblocked
        · rw [hlast]
          exact hkeeps _ hmem
      exact (horderly.2 hv (by omega)).2 hblocked
    · exact .here fun horderly => hrange (horderly.1.in_range seat hmem)

/-- **Orderly exactly in turn**: a run keeps what the table promises, and
keeps it whatever automatic joins come next, when every join is in turn
and the limit is one the seats can count up to. -/
theorem throughout_iff (hempty : J.seats s₀ = []) (hopen : J.isOpen s₀)
    (hrun : Path J.step s₀ hist s) :
    J.Throughout J.Orderly s₀ hist ↔
      0 ≤ J.most ∧ J.Wide ∧ Path J.StepInTurn s₀ hist s := by
  constructor
  · intro h
    have hmost : 0 ≤ J.most := by
      have := (h [] hist s₀ rfl .start [] s₀ .start).1.count
      rw [hempty] at this
      exact this
    have hwide := wide_of_throughout hempty hopen h
    refine ⟨hmost, hwide, ?_⟩
    -- along the run: the first join out of turn would break the promise
    induction hrun with
    | start => exact .start
    | @snoc hist s s' i hp hr ih =>
        have hpath := ih h.init
        have hfilled : J.Filled s :=
          hpath.invariant (by rw [Filled, hempty]; exact ⟨TakenInOrder.nil, hmost⟩) Filled.step
        by_cases hturn : J.InTurn s i
        · exact hpath.snoc ⟨hr, hturn⟩
        · obtain ⟨cont, v, hcont, hbad⟩ := not_orderly_of_early hwide hfilled hr hturn
          exact absurd (h _ [] s' (by rw [List.append_nil]) (hp.snoc hr) cont v hcont) hbad
  · rintro ⟨hmost, hwide, hpath⟩ pre post u hpre hu cont v hcont
    have hstart : J.Filled s₀ := by
      rw [Filled, hempty]
      exact ⟨TakenInOrder.nil, hmost⟩
    subst hpre
    obtain ⟨u', hpre, _⟩ := hpath.append_inv
    obtain rfl : u' = u :=
      (hpre.mono fun h => h.1).lastState_eq.symm.trans hu.lastState_eq
    have hfilled := hpre.invariant hstart Filled.step
    exact (hcont.invariant hfilled fun h hr => h.step (stepInTurn_of_automatic hr)).orderly hwide

end Joining

/-! ## TypeScript -/

namespace Ts

variable {ruleSet : RuleSet} {state state' : RoundState}

/-- **When an automatic join is accepted**: its number can be stored and
is free. -/
theorem join_accepted_iff {a : JoinAction} (height : SafeNat)
    (hclass : state.stateClass = .s1SeatOpen)
    (hroom : (state.players.length : Int) < ruleSet.playerCountMax)
    (hgame : a.gameId = state.gameId) (hstake : a.stakeAmount = ruleSet.stakeAmount.val)
    (hseat : a.actingPlayerSeat = none) :
    (∃ state', Step ruleSet state (.join a, height) state') ↔
      (state.players.length : Int) ≤ maxSafeInteger ∧
        (state.players.length : Int) ∉ state.table.seats := by
  have hfull : ¬ruleSet.playerCountMax ≤ (state.players.length : Int) := by omega
  constructor
  · rintro ⟨state', hstep⟩
    obtain ⟨_, haccepts⟩ := accepts_of_applyAction hstep
    cases haccepts with
    | @join _ seat _ _ _ hval hfree =>
        rw [hseat, Option.getD_none] at hval
        have := seat.isLe
        refine ⟨by omega, ?_⟩
        intro hmem
        obtain ⟨p, hp, heq⟩ := List.mem_map.mp hmem
        exact hfree (List.mem_map.mpr ⟨p, hp, seatInt_inj (heq.trans hval.symm)⟩)
  · rintro ⟨hle, hfree⟩
    let seat : SafeNat := ⟨state.players.length, Int.ofNat_le.mp hle⟩
    have hsafe : asSeat (state.players.length : Int) = .ok seat := asSafeNat_eq_ok.mpr rfl
    have hunseated : ¬∃ p, p ∈ state.players ∧ p.seat = seat := by
      rintro ⟨p, hp, heq⟩
      exact hfree (List.mem_map.mpr ⟨p, hp, by rw [heq]⟩)
    simp only [Step, applyAction, SignedAction.base, SignedAction.actionType, hgame, hclass,
      getLegalActions, applyJoin, hfull, hstake, hseat, Option.getD_none, hsafe]
    simp [hunseated]

/-- What an input names when it is a join. -/
def namedSeat : SignedAction × SafeNat → Option (Option Int)
  | (.join a, _) => some a.actingPlayerSeat
  | _ => none

theorem step_seats {input : SignedAction × SafeNat} (hstep : Step ruleSet state input state') :
    (namedSeat input = none ∧ state'.table.seats = state.table.seats) ∨
      ∃ choice, namedSeat input = some choice ∧ state.stateClass = .s1SeatOpen ∧
        state'.stateClass = .s1SeatOpen ∧
        (state.table.seats.length : Int) < ruleSet.playerCountMax ∧
        choice.getD state.table.seats.length ∉ state.table.seats ∧
        choice.getD state.table.seats.length ≤ (maxSafeInteger : Int) ∧
        state'.table.seats =
          state.table.seats ++ [choice.getD (state.table.seats.length : Int)] := by
  obtain ⟨action, height⟩ := input
  obtain ⟨_, haccepts⟩ := accepts_of_applyAction hstep
  cases haccepts with
  | @join a seat hclass _ hroom hval hfree =>
      refine .inr ⟨a.actingPlayerSeat, rfl, hclass, hclass, ?_, ?_, ?_, ?_⟩
      · simpa [RoundState.table] using hroom
      · simp only [RoundState.table, List.length_map, ← hval]
        intro hmem
        obtain ⟨p, hp, heq⟩ := List.mem_map.mp hmem
        exact hfree (List.mem_map.mpr ⟨p, hp, seatInt_inj heq⟩)
      · simp only [RoundState.table, List.length_map, ← hval]
        exact Int.ofNat_le.mpr seat.isLe
      · simp [RoundState.table, joinedPlayer, hval]
  | entropyCommit _ hfind | entropyReveal _ hfind | fold _ _ _ hfind =>
      exact .inl ⟨rfl, seats_set hfind rfl⟩
  | settle _ _ _ _ _ _ hplayers => exact .inl ⟨rfl, seats_settled hplayers⟩
  | _ => exact .inl ⟨rfl, rfl⟩

theorem can_join (hclass : state.stateClass = .s1SeatOpen)
    (hroom : (state.table.seats.length : Int) < ruleSet.playerCountMax)
    (hle : (state.table.seats.length : Int) ≤ maxSafeInteger)
    (hfree : (state.table.seats.length : Int) ∉ state.table.seats) :
    ∃ input state', namedSeat input = some none ∧ Step ruleSet state input state' := by
  simp only [RoundState.table, List.length_map] at hroom hle hfree
  let a : JoinAction := ⟨actionFor state.gameId none, "", ruleSet.stakeAmount.val⟩
  obtain ⟨state', hstep⟩ := (join_accepted_iff (a := a) 0 hclass hroom rfl rfl rfl).mpr
    ⟨hle, hfree⟩
  exact ⟨(.join a, 0), state', rfl, hstep⟩

/-- The engine as a system that seats players. -/
def joining (ruleSet : RuleSet) : Joining RoundState (SignedAction × SafeNat) where
  step := Step ruleSet
  seats state := state.table.seats
  isOpen state := state.stateClass = .s1SeatOpen
  named := namedSeat
  most := ruleSet.playerCountMax
  seatable n := n ≤ maxSafeInteger
  step_cases := step_seats
  can_join := can_join

/-- The seats are distinct, in range and no more than the limit, and at
S1 with room left every join of the game that pays the stake and names no
seat is accepted. -/
def SeatingHolds (ruleSet : RuleSet) (state : RoundState) : Prop :=
  Seated ruleSet.playerCountMax (state.players.map fun p => (p.seat.val : Int)) ∧
    (state.stateClass = .s1SeatOpen →
      (state.players.length : Int) < ruleSet.playerCountMax →
      ∀ (a : JoinAction) (height : SafeNat), a.gameId = state.gameId →
        a.stakeAmount = ruleSet.stakeAmount.val → a.actingPlayerSeat = none →
        ∃ state', Step ruleSet state (.join a, height) state')

theorem seatingHolds_iff : SeatingHolds ruleSet state ↔ (joining ruleSet).Orderly state := by
  refine and_congr_right fun _ => ?_
  simp only [joining, RoundState.table, List.length_map]
  refine forall_congr' fun hclass => forall_congr' fun hroom => ?_
  constructor
  · intro h
    exact (join_accepted_iff 0 hclass hroom rfl rfl rfl).mp
      (h ⟨actionFor state.gameId none, "", ruleSet.stakeAmount.val⟩ 0 rfl rfl rfl)
  · intro h a height hgame hstake hseat
    exact (join_accepted_iff height hclass hroom hgame hstake hseat).mpr h

/-- A join of the run names no seat, or the one whose number is the count
of the seated. -/
def JoinsInTurn (ruleSet : RuleSet) (state : RoundState) (input : SignedAction × SafeNat)
    (state' : RoundState) : Prop :=
  Step ruleSet state input state' ∧
    ∀ seat, namedSeat input = some (some seat) → seat = state.players.length

/-- A join that names no seat. -/
def AutomaticJoin (ruleSet : RuleSet) (state : RoundState) (input : SignedAction × SafeNat)
    (state' : RoundState) : Prop :=
  Step ruleSet state input state' ∧ namedSeat input = some none

/-- `SeatingHolds` in every state of the run, and in every state that
joins naming no seat lead to from one of them. -/
def SeatingThroughout (ruleSet : RuleSet) (initial : RoundState)
    (hist : List ((SignedAction × SafeNat) × RoundState)) : Prop :=
  ∀ pre post u, pre ++ post = hist → Run ruleSet initial pre u →
    ∀ cont v, Path (AutomaticJoin ruleSet) u cont v → SeatingHolds ruleSet v

theorem wide_iff : (joining ruleSet).Wide ↔ ruleSet.playerCountMax ≤ maxSafeInteger + 1 := by
  simp only [Joining.Wide, joining]
  constructor
  · intro h
    by_contra hbig
    have := h (maxSafeInteger + 1) (by omega)
    omega
  · intro h n hn
    omega

/-- **When the seating holds**: along a run and whatever automatic joins
follow, exactly when the limit is one the seats can count up to and every
join is in turn. -/
theorem seatingThroughout_iff {gameId ruleSetHash : String} {deadline : SafeNat}
    {hist : List ((SignedAction × SafeNat) × RoundState)}
    (hrun : Run ruleSet (initialState gameId ruleSetHash deadline) hist state) :
    SeatingThroughout ruleSet (initialState gameId ruleSetHash deadline) hist ↔
      (0 ≤ ruleSet.playerCountMax ∧ ruleSet.playerCountMax ≤ maxSafeInteger + 1) ∧
        Path (JoinsInTurn ruleSet) (initialState gameId ruleSetHash deadline) hist state := by
  have hopen : (joining ruleSet).isOpen (initialState gameId ruleSetHash deadline) := rfl
  have hiff := Joining.throughout_iff rfl hopen hrun
  have hturn : (joining ruleSet).StepInTurn = JoinsInTurn ruleSet := by
    funext state input state'
    simp only [Joining.StepInTurn, Joining.InTurn, JoinsInTurn, joining, RoundState.table,
      List.length_map]
  rw [wide_iff, hturn, ← and_assoc] at hiff
  refine Iff.trans ?_ hiff
  simp only [SeatingThroughout, Joining.Throughout, seatingHolds_iff]
  rfl

end Ts

/-! ## Go -/

namespace Go

variable {ruleSet : RuleSet} {state state' : RoundState}

/-- **When an automatic join is accepted**: its number is free. -/
theorem join_accepted_iff {a : SignedAction} (height : UInt32) (hkind : a.actionType = .join)
    (hclass : state.stateClass = .s1SeatOpen)
    (hroom : (state.players.length : Int) < ruleSet.playerCountMax)
    (hgame : a.gameId = state.gameId) (hstake : a.stakeAmount = ruleSet.stakeAmount)
    (hseat : a.actingPlayerSeat = none) :
    (∃ state', Step ruleSet state (a, height) state') ↔
      (state.players.length : Int) ∉ state.table.seats := by
  have hfull : ¬ruleSet.playerCountMax ≤ (state.players.length : Int) := by omega
  have hany : state.players.any (fun p => p.seat == (state.players.length : Int)) = true ↔
      (state.players.length : Int) ∈ state.table.seats := by
    simp only [List.any_eq_true, RoundState.table, List.mem_map, beq_iff_eq]
  simp only [Step, applyAction, hkind, hgame, hclass, getLegalActions, applyJoin, hfull, hstake,
    hseat, Option.getD_none, hany]
  by_cases hmem : (state.players.length : Int) ∈ state.table.seats
  · simp [hmem]
  · simp [hmem]

/-- What an input names when it is a join. -/
def namedSeat (input : SignedAction × UInt32) : Option (Option Int) :=
  if input.1.actionType = .join then some input.1.actingPlayerSeat else none

theorem namedSeat_eq_none {input : SignedAction × UInt32} {kind : ActionType}
    (hkind : input.1.actionType = kind) (hne : kind ≠ .join) : namedSeat input = none :=
  if_neg (by rwa [hkind])

theorem step_seats {input : SignedAction × UInt32} (hstep : Step ruleSet state input state') :
    (namedSeat input = none ∧ state'.table.seats = state.table.seats) ∨
      ∃ choice, namedSeat input = some choice ∧ state.stateClass = .s1SeatOpen ∧
        state'.stateClass = .s1SeatOpen ∧
        (state.table.seats.length : Int) < ruleSet.playerCountMax ∧
        choice.getD state.table.seats.length ∉ state.table.seats ∧ True ∧
        state'.table.seats =
          state.table.seats ++ [choice.getD (state.table.seats.length : Int)] := by
  obtain ⟨action, height⟩ := input
  obtain ⟨_, haccepts⟩ := accepts_of_applyAction hstep
  cases haccepts with
  | @join seat hkind hclass _ hroom hval hfree =>
      refine .inr ⟨action.actingPlayerSeat, if_pos hkind, hclass, hclass, ?_, ?_, trivial, ?_⟩
      · simpa [RoundState.table] using hroom
      · simpa [RoundState.table, ← hval] using hfree
      · simp [RoundState.table, joinedPlayer, hval]
  | entropyCommit hkind _ _ hfind | fold hkind _ _ hfind =>
      exact .inl ⟨namedSeat_eq_none hkind (by decide), seats_set hfind rfl⟩
  | entropyReveal hkind _ _ hfind hplayers =>
      subst hplayers
      exact .inl ⟨namedSeat_eq_none hkind (by decide), seats_set hfind rfl⟩
  | settle hkind _ _ _ _ _ _ hplayers =>
      exact .inl ⟨namedSeat_eq_none hkind (by decide), seats_settled hplayers⟩
  | tableLock hkind | firstCard hkind | secondCard hkind | thirdCard hkind | dealConcealed hkind
  | bet hkind | pass hkind | rotate hkind | finish hkind | tableClose hkind | timeout hkind
  | recovery hkind =>
      exact .inl ⟨namedSeat_eq_none hkind (by decide), rfl⟩

theorem can_join (hclass : state.stateClass = .s1SeatOpen)
    (hroom : (state.table.seats.length : Int) < ruleSet.playerCountMax) (_ : True)
    (hfree : (state.table.seats.length : Int) ∉ state.table.seats) :
    ∃ input state', namedSeat input = some none ∧ Step ruleSet state input state' := by
  simp only [RoundState.table, List.length_map] at hroom hfree
  let a : SignedAction :=
    { bareAction state.gameId .join none with stakeAmount := ruleSet.stakeAmount }
  obtain ⟨state', hstep⟩ := (join_accepted_iff (a := a) 0 rfl hclass hroom rfl rfl rfl).mpr
    hfree
  exact ⟨(a, 0), state', rfl, hstep⟩

/-- The engine as a system that seats players: a Go `int` stores every
seat. -/
def joining (ruleSet : RuleSet) : Joining RoundState (SignedAction × UInt32) where
  step := Step ruleSet
  seats state := state.table.seats
  isOpen state := state.stateClass = .s1SeatOpen
  named := namedSeat
  most := ruleSet.playerCountMax
  seatable _ := True
  step_cases := step_seats
  can_join := can_join

/-- The seats are distinct, in range and no more than the limit, and at
S1 with room left every join of the game that pays the stake and names no
seat is accepted. -/
def SeatingHolds (ruleSet : RuleSet) (state : RoundState) : Prop :=
  Seated ruleSet.playerCountMax (state.players.map (·.seat)) ∧
    (state.stateClass = .s1SeatOpen →
      (state.players.length : Int) < ruleSet.playerCountMax →
      ∀ (a : SignedAction) (height : UInt32), a.actionType = .join → a.gameId = state.gameId →
        a.stakeAmount = ruleSet.stakeAmount → a.actingPlayerSeat = none →
        ∃ state', Step ruleSet state (a, height) state')

theorem seatingHolds_iff : SeatingHolds ruleSet state ↔ (joining ruleSet).Orderly state := by
  refine and_congr_right fun _ => ?_
  simp only [joining, RoundState.table, List.length_map, true_and]
  refine forall_congr' fun hclass => forall_congr' fun hroom => ?_
  constructor
  · intro h
    exact (join_accepted_iff 0 rfl hclass hroom rfl rfl rfl).mp
      (h { bareAction state.gameId .join none with stakeAmount := ruleSet.stakeAmount } 0
        rfl rfl rfl rfl)
  · intro h a height hkind hgame hstake hseat
    exact (join_accepted_iff height hkind hclass hroom hgame hstake hseat).mpr h

/-- A join of the run names no seat, or the one whose number is the count
of the seated. -/
def JoinsInTurn (ruleSet : RuleSet) (state : RoundState) (input : SignedAction × UInt32)
    (state' : RoundState) : Prop :=
  Step ruleSet state input state' ∧
    ∀ seat, namedSeat input = some (some seat) → seat = state.players.length

/-- A join that names no seat. -/
def AutomaticJoin (ruleSet : RuleSet) (state : RoundState) (input : SignedAction × UInt32)
    (state' : RoundState) : Prop :=
  Step ruleSet state input state' ∧ namedSeat input = some none

/-- `SeatingHolds` in every state of the run, and in every state that
joins naming no seat lead to from one of them. -/
def SeatingThroughout (ruleSet : RuleSet) (initial : RoundState)
    (hist : List ((SignedAction × UInt32) × RoundState)) : Prop :=
  ∀ pre post u, pre ++ post = hist → Run ruleSet initial pre u →
    ∀ cont v, Path (AutomaticJoin ruleSet) u cont v → SeatingHolds ruleSet v

/-- **When the seating holds**, as in TypeScript. -/
theorem seatingThroughout_iff {gameId ruleSetHash : String} {deadline : UInt32}
    {hist : List ((SignedAction × UInt32) × RoundState)}
    (hrun : Run ruleSet (initialState gameId ruleSetHash deadline) hist state) :
    SeatingThroughout ruleSet (initialState gameId ruleSetHash deadline) hist ↔
      0 ≤ ruleSet.playerCountMax ∧
        Path (JoinsInTurn ruleSet) (initialState gameId ruleSetHash deadline) hist state := by
  have hopen : (joining ruleSet).isOpen (initialState gameId ruleSetHash deadline) := rfl
  have hiff := Joining.throughout_iff rfl hopen hrun
  have hturn : (joining ruleSet).StepInTurn = JoinsInTurn ruleSet := by
    funext state input state'
    simp only [Joining.StepInTurn, Joining.InTurn, JoinsInTurn, joining, RoundState.table,
      List.length_map]
  have hwide : (joining ruleSet).Wide := fun _ _ => trivial
  rw [hturn, and_iff_right hwide] at hiff
  refine Iff.trans ?_ hiff
  simp only [SeatingThroughout, Joining.Throughout, seatingHolds_iff]
  rfl

end Go

/-! ## Both engines -/

/-- **Seats are in order when they are taken in order.** For every run of
either engine: the seats are distinct, in range and within the limit, and
the automatic choice is free, in every state of the run and of its
automatic continuations, exactly when no join of the run names a seat
ahead of its turn (and the limit is a count). -/
theorem seating_iff_in_turn (gameId ruleSetHash : String) :
    (∀ ruleSet deadline hist state,
      Ts.Run ruleSet (Ts.initialState gameId ruleSetHash deadline) hist state →
      (Ts.SeatingThroughout ruleSet (Ts.initialState gameId ruleSetHash deadline) hist ↔
        (0 ≤ ruleSet.playerCountMax ∧ ruleSet.playerCountMax ≤ maxSafeInteger + 1) ∧
          Path (Ts.JoinsInTurn ruleSet) (Ts.initialState gameId ruleSetHash deadline) hist
            state)) ∧
    (∀ ruleSet deadline hist state,
      Go.Run ruleSet (Go.initialState gameId ruleSetHash deadline) hist state →
      (Go.SeatingThroughout ruleSet (Go.initialState gameId ruleSetHash deadline) hist ↔
        0 ≤ ruleSet.playerCountMax ∧
          Path (Go.JoinsInTurn ruleSet) (Go.initialState gameId ruleSetHash deadline) hist
            state)) := by
  constructor
  · intro ruleSet deadline hist state hrun
    exact Ts.seatingThroughout_iff hrun
  · intro ruleSet deadline hist state hrun
    exact Go.seatingThroughout_iff hrun

/-- From a fresh table of the sample rule set, joins that name no seat
keep the seating. -/
theorem seating_iff_in_turn_sample :
    Ts.SeatingThroughout Ts.defaultRuleSet (Ts.initialState "g" "" 244) [] :=
  ((seating_iff_in_turn "g" "").1 Ts.defaultRuleSet 244 [] _ .start).mpr
    ⟨⟨by decide, by decide⟩, .start⟩

/-- One player on seat 1: the next one, who names no seat, is told that
seat 1 is taken, with two of four places left. -/
theorem seat_taken_early :
    ¬∀ (ruleSet : Ts.RuleSet) (gameId ruleSetHash : String) (deadline : SafeNat)
      (hist : List ((Ts.SignedAction × SafeNat) × Ts.RoundState)) (state : Ts.RoundState),
      Ts.Run ruleSet (Ts.initialState gameId ruleSetHash deadline) hist state →
        Ts.SeatingHolds ruleSet state := by
  intro hclaim
  let join (seat : Option Int) : Ts.JoinAction := ⟨Ts.actionBy seat, "", 1000⟩
  have hout : (Ts.playSample [.join (join (some 1))]).map (fun r =>
      (r.2.stateClass, r.2.gameId, r.2.table.seats)) = some (.s1SeatOpen, "g", [1]) := by
    decide
  obtain ⟨r, hplay, hr⟩ := Option.map_eq_some_iff.mp hout
  simp only [Prod.mk.injEq] at hr
  obtain ⟨hclass, hgame, hseats⟩ := hr
  have hlen : r.2.players.length = 1 := by
    rw [← List.length_map (fun p : Ts.PlayerState => (p.seat.val : Int))]
    exact congrArg List.length hseats
  have hroom : (r.2.players.length : Int) < Ts.defaultRuleSet.playerCountMax := by
    rw [hlen]
    decide
  obtain ⟨_, hfree⟩ := hclaim _ _ _ _ _ _ (Ts.run_of_playSample hplay)
  have haccepted := hfree hclass hroom (join none) 0 hgame.symm rfl rfl
  have hnot := ((Ts.join_accepted_iff 0 hclass hroom hgame.symm rfl rfl).mp haccepted).2
  rw [hseats, hlen] at hnot
  exact hnot (by decide)

end CardTable
