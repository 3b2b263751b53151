import CardTable.Protocol
import CardTable.Basis.Run
import CardTable.Basis.Rotation

/-!
# Table — what the state machine is for

Both engines carry money, entropy and deck records through fourteen
handlers. Seen from the rules of the game they all do one thing: walk a
table through its phases. `Table` keeps what that walk depends on (the
phase, the seats in join order, whose turn it is, the round, the cards
face up) and `Step` says how it moves; the amounts, hashes and heights
are gone. `Ts.Refine` and `Go.Refine` show that every accepted action of
either engine is a `Step`, so what is proved here about every run of the
table holds of both.

The invariant `WF` ties the phase to the number of cards face up and to
the position of the turn on the ring of seats.
-/

namespace CardTable

open Basis

/-- The part of a round state the rules of turn order depend on. -/
structure Table where
  phase : StateClass
  /-- in the order the players joined -/
  seats : List Int
  acting : Option Int
  round : Int
  shown : List RevealedCard
  deriving DecidableEq, Repr

/-- What a step contributes to the record of a round. -/
inductive Event where
  | revealed (c : RevealedCard)
  | rotated
  | other
  deriving DecidableEq, Repr

namespace Table

/-- The table of a fresh session. -/
def initial : Table := ⟨.s1SeatOpen, [], none, 0, []⟩

/-- The seats in ascending order: the order turns go round in. -/
def ring (t : Table) : List Int := t.seats.mergeSort (fun a b => decide (a ≤ b))

/-- The moves of the table. -/
inductive Step : Table → Event → Table → Prop where
  | join {t : Table} {seat : Int} : t.phase = .s1SeatOpen → seat ∉ t.seats →
      Step t .other { t with seats := t.seats ++ [seat] }
  | lock {t : Table} : t.phase = .s1SeatOpen →
      Step t .other { t with phase := .s3EntropyCommitWindow }
  | commit {t : Table} {next : StateClass} : t.phase = .s3EntropyCommitWindow →
      t.seats ≠ [] → next = .s3EntropyCommitWindow ∨ next = .s4EntropyRevealWindow →
      Step t .other { t with phase := next }
  | entropy {t : Table} {next : StateClass} : t.phase = .s4EntropyRevealWindow →
      next = .s4EntropyRevealWindow ∨ next = .s5DeckCommitted →
      Step t .other { t with phase := next }
  | deal {t : Table} : t.phase = .s5DeckCommitted → Step t .other t
  | firstCard {t : Table} {c : RevealedCard} : t.phase = .s5DeckCommitted →
      Step t (.revealed c) { t with phase := .s6CardRevealFirst, shown := t.shown ++ [c] }
  | secondCard {t : Table} {c : RevealedCard} : t.phase = .s6CardRevealFirst →
      Step t (.revealed c) { t with
        phase := .s8BetDecision
        shown := t.shown ++ [c]
        acting := t.acting.or t.seats.head? }
  | thirdCard {t : Table} {c : RevealedCard} : t.phase = .s9CardRevealThird →
      Step t (.revealed c) { t with phase := .s10SettledRound, shown := t.shown ++ [c] }
  | bet {t : Table} : t.phase = .s8BetDecision →
      Step t .other { t with phase := .s9CardRevealThird }
  | pass {t : Table} : t.phase = .s8BetDecision ∨ t.phase = .s7CardRevealSecond →
      Step t .other { t with phase := .s11RotateTurn }
  | settle {t : Table} : t.phase = .s10SettledRound → t.shown.length = 3 →
      Step t .other { t with phase := .s11RotateTurn }
  | rotate {t : Table} {x y : Int} : t.phase = .s11RotateTurn → t.acting = some x →
      nextOnRing t.ring x = some y →
      Step t .rotated { t with
        phase := .s6CardRevealFirst, acting := some y, round := t.round + 1, shown := [] }
  | finish {t : Table} {x : Int} : t.phase = .s11RotateTurn → t.acting = some x →
      nextOnRing t.ring x = none →
      Step t .rotated { t with phase := .s12TableClose }
  | close {t : Table} : t.phase = .s12TableClose → Step t .other t
  | recover {t : Table} : Step t .other { t with phase := .recovered }

/-- On a ring the index arithmetic of the rotation handlers is the walk
of the ring, back to the first seat at its end. -/
theorem seatAfter_some {α : Type} [DecidableEq α] {firstSeat acting : α} {rest : List α}
    (hmem : acting ∈ firstSeat :: rest) :
    seatAfter (firstSeat :: rest) firstSeat (some acting) =
      (nextOnRing (firstSeat :: rest) acting).getD firstSeat := by
  rw [← wrap_eq hmem]
  simp only [seatAfter, idxOf?_of_mem hmem]

/-- Renaming the seats renames the next one. -/
theorem seatAfter_map {α β : Type} [DecidableEq α] [DecidableEq β] {f : α → β}
    (hf : ∀ x y, f x = f y → x = y) (seats : List α) (firstSeat : α) (acting : Option α) :
    seatAfter (seats.map f) (f firstSeat) (acting.map f) =
      f (seatAfter seats firstSeat acting) := by
  cases acting with
  | none => rfl
  | some a =>
      simp only [seatAfter, Option.map_some, idxOf?_map hf, List.length_map,
        List.getD_eq_getElem?_getD, List.getElem?_map, Option.getD_map]

/-! ## The invariant -/

/-- Nothing has been played yet. -/
def Opening (t : Table) : Prop := t.round = 0 ∧ t.acting = none ∧ t.shown = []

/-- A seated player has the turn, as many positions after the first
player on the ring as rounds have gone by. -/
def OnTurn (t : Table) : Prop :=
  ∃ first x, t.seats.head? = some first ∧ t.acting = some x ∧ x ∈ t.seats ∧
    0 ≤ t.round ∧ (t.ring.idxOf x : Int) = t.ring.idxOf first + t.round

/-- The number of cards face up: the first round enters from S5 with a
card already shown, the later ones enter at S6 with none. -/
def Shows (t : Table) (n : Nat) : Prop :=
  t.shown.length = if t.round = 0 then n else n - 1

/-- What each phase knows. -/
def PhaseInv (t : Table) : Prop :=
  match t.phase with
  | .s1SeatOpen | .s3EntropyCommitWindow => Opening t
  | .s4EntropyRevealWindow | .s5DeckCommitted => Opening t ∧ t.seats ≠ []
  | .s6CardRevealFirst =>
      (t.round = 0 ∧ t.acting = none ∧ t.shown.length = 1 ∧ t.seats ≠ []) ∨
        (0 < t.round ∧ OnTurn t ∧ t.shown = [])
  | .s8BetDecision | .s9CardRevealThird => OnTurn t ∧ Shows t 2
  | .s10SettledRound => OnTurn t ∧ Shows t 3
  | .s11RotateTurn => OnTurn t
  | .s12TableClose => OnTurn t ∧ ∀ x, t.acting = some x → nextOnRing t.ring x = none
  | .recovered => True
  | .s0TableOpen | .s2TableLocked | .s7CardRevealSecond => False

/-- Well-formedness of a table. -/
structure WF (t : Table) : Prop where
  seatsNodup : t.seats.Nodup
  phaseInv : PhaseInv t

theorem mem_ring {t : Table} {x : Int} : x ∈ t.ring ↔ x ∈ t.seats := List.mem_mergeSort

theorem ring_perm (t : Table) : t.ring.Perm t.seats := List.mergeSort_perm ..

theorem ring_sorted (t : Table) : t.ring.Pairwise (· ≤ ·) := by
  have h := @List.pairwise_mergeSort _ (fun a b : Int => decide (a ≤ b))
    (fun a b c hab hbc => by simp only [decide_eq_true_eq] at *; omega)
    (fun a b => by simp only [Bool.or_eq_true, decide_eq_true_eq]; omega) t.seats
  exact h.imp (fun hab => by simpa using hab)

theorem WF.ring_nodup {t : Table} (h : WF t) : t.ring.Nodup :=
  t.ring_perm.nodup_iff.mpr h.seatsNodup

theorem wf_initial : WF initial := ⟨List.nodup_nil, rfl, rfl, rfl⟩

/-- The turn moves one position on the ring with each round. -/
theorem OnTurn.next {t : Table} {x y : Int} (h : OnTurn t) (hnd : t.ring.Nodup)
    (hx : t.acting = some x) (hy : nextOnRing t.ring x = some y) :
    OnTurn { t with
      phase := .s6CardRevealFirst, acting := some y, round := t.round + 1, shown := [] } := by
  obtain ⟨first, z, hfirst, hz, hmem, hround, hpos⟩ := h
  rw [hx] at hz
  cases hz
  refine ⟨first, y, hfirst, rfl, mem_ring.mp (mem_of_nextOnRing hy), ?_, ?_⟩
  · show 0 ≤ t.round + 1
    omega
  · have hnext := idxOf_next hnd hy
    show (t.ring.idxOf y : Int) = t.ring.idxOf first + (t.round + 1)
    omega

/-- The first turn of all belongs to the first player of the list. -/
theorem onTurn_first {t : Table} (hround : t.round = 0) (hacting : t.acting = none)
    (hseats : t.seats ≠ []) :
    OnTurn { t with acting := t.acting.or t.seats.head? } := by
  cases hs : t.seats with
  | nil => exact absurd hs hseats
  | cons first rest =>
      refine ⟨first, first, ?_, ?_, ?_, ?_, ?_⟩
      · simp
      · simp [hacting]
      · simp
      · show 0 ≤ t.round
        omega
      · show _ = _ + t.round
        omega

theorem OnTurn.acting_or {t : Table} (h : OnTurn t) :
    OnTurn { t with acting := t.acting.or t.seats.head? } := by
  obtain ⟨first, x, hfirst, hx, hrest⟩ := h
  exact ⟨first, x, hfirst, by simp [hx], hrest⟩

/-- **One step keeps the invariant.** -/
theorem WF.step {t t' : Table} {e : Event} (h : WF t) (hs : Step t e t') : WF t' := by
  obtain ⟨hnd, hp⟩ := h
  cases hs with
  -- a free seat keeps the ring a ring
  | @join seat hphase hnew =>
      refine ⟨List.nodup_append.mpr ⟨hnd, by simp, ?_⟩, ?_⟩
      · intro a ha b hb
        rw [List.mem_singleton.mp hb]
        exact fun heq => hnew (heq ▸ ha)
      · simp only [PhaseInv, hphase] at hp ⊢
        exact hp
  | lock hphase =>
      simp only [PhaseInv, hphase] at hp
      exact ⟨hnd, hp⟩
  | commit hphase hseats hnext =>
      simp only [PhaseInv, hphase] at hp
      rcases hnext with rfl | rfl
      · exact ⟨hnd, hp⟩
      · exact ⟨hnd, hp, hseats⟩
  | entropy hphase hnext =>
      simp only [PhaseInv, hphase] at hp
      rcases hnext with rfl | rfl
      · exact ⟨hnd, hp⟩
      · exact ⟨hnd, hp⟩
  | deal hphase => exact ⟨hnd, hp⟩
  | firstCard hphase =>
      simp only [PhaseInv, hphase] at hp
      obtain ⟨⟨hround, hacting, hshown⟩, hseats⟩ := hp
      exact ⟨hnd, .inl ⟨hround, hacting, by simp [hshown], hseats⟩⟩
  -- round 0 starts the walk, every later one is on it already
  | secondCard hphase =>
      simp only [PhaseInv, hphase] at hp
      rcases hp with ⟨hround, hacting, hshown, hseats⟩ | ⟨hround, hturn, hshown⟩
      · exact ⟨hnd, onTurn_first hround hacting hseats, by simp [Shows, hround, hshown]⟩
      · have : t.round ≠ 0 := by omega
        exact ⟨hnd, hturn.acting_or, by simp [Shows, this, hshown]⟩
  | thirdCard hphase =>
      simp only [PhaseInv, hphase, Shows] at hp
      refine ⟨hnd, hp.1, ?_⟩
      by_cases hround : t.round = 0
      · simpa [Shows, hround] using hp.2
      · simpa [Shows, hround] using hp.2
  | bet hphase =>
      simp only [PhaseInv, hphase] at hp
      exact ⟨hnd, hp⟩
  | pass hphase =>
      rcases hphase with hphase | hphase
      · simp only [PhaseInv, hphase] at hp
        exact ⟨hnd, hp.1⟩
      · simp only [PhaseInv, hphase] at hp
  | settle hphase _ =>
      simp only [PhaseInv, hphase] at hp
      exact ⟨hnd, hp.1⟩
  -- one more round, one position further
  | rotate hphase hacting hnext =>
      simp only [PhaseInv, hphase] at hp
      have hring : t.ring.Nodup := t.ring_perm.nodup_iff.mpr hnd
      refine ⟨hnd, .inr ⟨?_, hp.next hring hacting hnext, rfl⟩⟩
      obtain ⟨_, _, _, _, _, hround, _⟩ := hp
      show 0 < t.round + 1
      omega
  | finish hphase hacting hnext =>
      simp only [PhaseInv, hphase] at hp
      refine ⟨hnd, hp, ?_⟩
      intro z hz
      rw [show t.acting = some z from hz] at hacting
      cases hacting
      exact hnext
  | close hphase => exact ⟨hnd, hp⟩
  | recover => exact ⟨hnd, trivial⟩

theorem wf_of_path {t : Table} {hist : List (Event × Table)}
    (h : Path Step initial hist t) : WF t :=
  h.invariant wf_initial WF.step

/-! ## The cards of a round -/

/-- The cards revealed since the last rotation. -/
def cardsOfRound : List Event → List RevealedCard :=
  List.foldl (fun cards e =>
    match e with
    | .revealed c => cards ++ [c]
    | .rotated => []
    | .other => cards) []

@[simp] theorem cardsOfRound_revealed (es : List Event) (c : RevealedCard) :
    cardsOfRound (es ++ [.revealed c]) = cardsOfRound es ++ [c] := by
  simp [cardsOfRound]

@[simp] theorem cardsOfRound_rotated (es : List Event) :
    cardsOfRound (es ++ [.rotated]) = [] := by
  simp [cardsOfRound]

@[simp] theorem cardsOfRound_other (es : List Event) :
    cardsOfRound (es ++ [.other]) = cardsOfRound es := by
  simp [cardsOfRound]

/-- Until the table closes or is recovered, the cards face up are those
of the round. -/
theorem shown_eq_cardsOfRound {t : Table} {hist : List (Event × Table)}
    (h : Path Step initial hist t) :
    t.phase = .s12TableClose ∨ t.phase = .recovered ∨
      t.shown = cardsOfRound (hist.map Prod.fst) := by
  induction h with
  | start => exact .inr (.inr rfl)
  | @snoc hist t t' e hp hs ih =>
      rw [List.map_append, List.map_singleton]
      cases hs with
      | recover => exact .inr (.inl rfl)
      | finish hphase => exact .inl rfl
      | close hphase => exact .inl hphase
      | rotate hphase => exact .inr (.inr (cardsOfRound_rotated _).symm)
      | firstCard hphase | secondCard hphase | thirdCard hphase =>
          rw [hphase] at ih
          rcases ih with ih | ih | ih
          · cases ih
          · cases ih
          · refine .inr (.inr ?_)
            simp [ih]
      | pass hphase =>
          refine .inr (.inr ?_)
          rcases hphase with hphase | hphase
          · simpa [hphase] using ih
          · simpa [hphase] using ih
      | join hphase | lock hphase | commit hphase | entropy hphase | deal hphase | bet hphase
      | settle hphase =>
          refine .inr (.inr ?_)
          simpa [hphase] using ih

/-- **The third card of a round.** At S10 the table shows exactly the
cards of the round: three in the first round, two in every later one. -/
theorem cards_at_settlement {t : Table} {hist : List (Event × Table)}
    (h : Path Step initial hist t) (hp : t.phase = .s10SettledRound) :
    t.shown = cardsOfRound (hist.map Prod.fst) ∧
      t.shown.length = if t.round = 0 then 3 else 2 := by
  have hinv := (wf_of_path h).phaseInv
  simp only [PhaseInv, hp] at hinv
  refine ⟨?_, hinv.2⟩
  rcases shown_eq_cardsOfRound h with hc | hc | hc
  · rw [hp] at hc
    cases hc
  · rw [hp] at hc
    cases hc
  · exact hc

/-- With the wrong number of cards face up, S10 is left only by
recovery. -/
theorem stuck_at_settlement {t t' : Table} {e : Event} (hp : t.phase = .s10SettledRound)
    (hshown : t.shown.length ≠ 3) (h : Step t e t') : t'.phase = .recovered := by
  cases h with
  | settle _ h3 => exact absurd h3 hshown
  | recover => rfl
  | pass hphase =>
      rcases hphase with hphase | hphase
      · rw [hp] at hphase
        cases hphase
      · rw [hp] at hphase
        cases hphase
  | join hphase | lock hphase | commit hphase | entropy hphase | deal hphase
  | firstCard hphase | secondCard hphase | thirdCard hphase | bet hphase | rotate hphase
  | finish hphase | close hphase =>
      rw [hp] at hphase
      cases hphase

end Table

end CardTable
