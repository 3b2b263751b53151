import CardTable.Ts.Refine
import Mathlib.Algebra.Ring.Int.Defs

/-!
# Ts.Ledger — where the satoshis are

Money enters a session with the stakes. The ledger of a state is the pot
and the players' stakes together; a settlement moves money between the
two, and nothing else should touch it. `applyBet` does: it raises the pot
by the bet and takes it from nobody, so the ledger grows by exactly what
was bet (`run_ledger`).
-/

namespace CardTable.Ts

open Basis

/-! ## The ledger -/

/-- The players' stakes together. -/
def stakesTotal (players : List PlayerState) : Int :=
  (players.map (fun p => (p.stakeAtRisk.val : Int))).sum

/-- `pot_value` and every `stake_at_risk` together. -/
def RoundState.ledger (state : RoundState) : Int :=
  state.potValue.val + stakesTotal state.players

/-- What an action bets. -/
def SignedAction.wager : SignedAction → Int
  | .betAction a => a.betAmount
  | _ => 0

/-- What an action stakes: a `Join` brings the stake of the rule set. -/
def SignedAction.deposit (ruleSet : RuleSet) : SignedAction → Int
  | .join _ => ruleSet.stakeAmount.val
  | _ => 0

/-- Everything bet in a run. -/
def wagered (hist : List ((SignedAction × SafeNat) × RoundState)) : Int :=
  (hist.map (fun e => e.1.1.wager)).sum

@[simp] theorem stakesTotal_nil : stakesTotal [] = 0 := rfl

@[simp] theorem stakesTotal_cons (p : PlayerState) (rest : List PlayerState) :
    stakesTotal (p :: rest) = p.stakeAtRisk.val + stakesTotal rest := rfl

theorem stakesTotal_append (xs ys : List PlayerState) :
    stakesTotal (xs ++ ys) = stakesTotal xs + stakesTotal ys := by
  simp [stakesTotal]

theorem stakesTotal_set {players : List PlayerState} {seat : Int} {idx : Nat}
    {p q : PlayerState} (hfind : findSeat players seat = some (idx, p))
    (hq : q.stakeAtRisk = p.stakeAtRisk) :
    stakesTotal (players.set idx q) = stakesTotal players := by
  rw [stakesTotal, map_set_of_eq (findSeat_getElem? hfind) (by rw [hq]), stakesTotal]

/-! ## Settlement -/

/-- What the player gets comes out of the pot. -/
theorem computeValueTransfer_balanced (outcome : SettlementOutcome) (bet : SafeNat)
    (rules : SettlementRules) :
    (computeValueTransfer outcome bet rules).potDelta =
      -(computeValueTransfer outcome bet rules).playerDelta := by
  cases outcome with
  | win => rfl
  | loss => exact (Int.neg_neg _).symm
  | pass => rfl
  | consecutivePenalty => exact (Int.neg_neg _).symm
  | equalPenalty => exact (Int.neg_neg _).symm

/-- The stake written for a settled player is the exact sum. -/
theorem settledStake {stake next : SafeNat} {delta : Int}
    (h : asSatoshis (toDouble (stake.val + delta)) = .ok next) :
    (next.val : Int) = stake.val + delta := by
  rw [asSatoshis, asSafeNat_eq_ok, ← SafeNat.ofInt?_eq_some, SafeNat.ofInt?_toDouble] at h
  exact SafeNat.ofInt?_eq_some.mp h

/-- The settlement loop pays `delta` once for each player on the acting
seat. -/
theorem stakesTotal_settlePlayers {acting : SafeNat} {delta : Int}
    {players out : List PlayerState} (h : settlePlayers acting delta players = .ok out) :
    stakesTotal out =
      stakesTotal players + delta * (players.map (·.seat)).count acting := by
  -- the sum grows by `delta` at each player on the acting seat
  induction players generalizing out with
  | nil =>
      cases h
      simp
  | cons p rest ih =>
      simp only [settlePlayers] at h
      split at h
      · rename_i hseat
        obtain ⟨rest', hrest, h⟩ := Outcome.bind_eq_ok.mp h
        cases h
        rw [stakesTotal_cons, stakesTotal_cons, ih hrest, List.map_cons,
          List.count_cons_of_ne hseat]
        omega
      · rename_i hseat
        split at h
        · cases h
        · obtain ⟨stake, hstake, h⟩ := Outcome.bind_eq_ok.mp h
          obtain ⟨rest', hrest, h⟩ := Outcome.bind_eq_ok.mp h
          cases h
          have hseat := Decidable.not_not.mp hseat
          have hnext := settledStake hstake
          rw [stakesTotal_cons, stakesTotal_cons, ih hrest, List.map_cons, hseat,
            List.count_cons_self, Int.natCast_add, Int.mul_add]
          simp only
          omega

/-- At S10 exactly one player sits on the acting seat. -/
theorem count_acting {state : RoundState} {acting : SafeNat} (hwf : state.table.WF)
    (hclass : state.stateClass = .s10SettledRound)
    (hacting : state.actingPlayerSeat = some acting) :
    (state.players.map (·.seat)).count acting = 1 := by
  have hnd := (sortedSeats_perm state.players).nodup_iff.mp (sortedSeats_nodup hwf)
  have hinv := hwf.phaseInv
  simp only [Table.PhaseInv, RoundState.table, hclass] at hinv
  obtain ⟨⟨_, x, _, hx, hmem, _⟩, _⟩ := hinv
  simp only [hacting, Option.map_some, Option.some.injEq] at hx
  rw [← hx] at hmem
  have hin : acting ∈ state.players.map (·.seat) := by
    exact (sortedSeats_perm state.players).mem_iff.mp (mem_sortedSeats.mpr hmem)
  have hle : (state.players.map (·.seat)).count acting ≤ 1 := List.nodup_iff_count.mp hnd acting
  have hpos := List.count_pos_iff.mpr hin
  omega

/-! ## One step, and a run -/

variable {ruleSet : RuleSet} {state state' : RoundState}

/-- **What one accepted action adds to the ledger**: the stake of a
`Join`, and the whole of a bet. -/
theorem ledger_step {input : SignedAction × SafeNat} (hwf : state.table.WF)
    (h : Step ruleSet state input state') :
    state'.ledger = state.ledger + input.1.deposit ruleSet + input.1.wager ∧
      (state'.players.length : Int) * ruleSet.stakeAmount.val =
        state.players.length * ruleSet.stakeAmount.val + input.1.deposit ruleSet ∧
      0 ≤ input.1.wager := by
  obtain ⟨action, height⟩ := input
  obtain ⟨_, h⟩ := accepts_of_applyAction h
  have hkept : (0 : Int) ≤ 0 := Int.le_refl 0
  cases h with
  | join =>
      refine ⟨?_, ?_, hkept⟩
      · simp only [RoundState.ledger, stakesTotal_append, stakesTotal_cons, stakesTotal_nil,
          joinedPlayer, SignedAction.deposit, SignedAction.wager]
        omega
      · simp only [List.length_append, List.length_singleton, SignedAction.deposit,
          Int.natCast_add, Int.add_mul]
        omega
  | entropyCommit _ hfind | entropyReveal _ hfind | fold _ _ _ hfind =>
      refine ⟨?_, ?_, hkept⟩
      · simp only [RoundState.ledger, RoundState.advance, stakesTotal_set hfind,
          SignedAction.deposit, SignedAction.wager, Int.add_zero]
      · simp [SignedAction.deposit]
  -- the bet enters the pot and leaves nobody's stake
  | bet _ hmin _ hpot =>
      refine ⟨?_, ?_, ?_⟩
      · simp only [RoundState.ledger, RoundState.advance, hpot, SignedAction.deposit,
          SignedAction.wager]
        omega
      · simp [RoundState.advance, SignedAction.deposit]
      · simp only [SignedAction.wager]
        omega
  -- one player sits on the acting seat, so what the pot loses he gains
  | settle hclass _ hacting _ htransfer hpot hplayers =>
      have hbalanced := computeValueTransfer_balanced
      have hsum := stakesTotal_settlePlayers hplayers
      have hlen := congrArg List.length (seats_settled hplayers)
      rw [count_acting hwf hclass hacting] at hsum
      rw [htransfer, hbalanced] at hpot
      rw [htransfer] at hsum
      refine ⟨?_, ?_, hkept⟩
      · simp only [RoundState.ledger, hpot, hsum, SignedAction.deposit,
          SignedAction.wager]
        omega
      · simp only [List.length_map] at hlen
        simp [hlen, SignedAction.deposit]
  | tableLock | firstCard | secondCard | thirdCard | dealConcealed | pass | rotate | finish
  | tableClose | timeout | recovery =>
      refine ⟨?_, ?_, hkept⟩
      · simp only [RoundState.ledger, RoundState.advance, SignedAction.deposit,
          SignedAction.wager, Int.add_zero]
      · simp [RoundState.advance, SignedAction.deposit]

variable {gameId ruleSetHash : String} {deadline : SafeNat}
  {hist : List ((SignedAction × SafeNat) × RoundState)}

/-- **The ledger of a run**: the stakes of everyone seated, and on top of
them everything that was bet. -/
theorem run_ledger (h : Run ruleSet (initialState gameId ruleSetHash deadline) hist state) :
    state.ledger = ruleSet.stakeAmount.val * state.players.length + wagered hist ∧
      ∀ e ∈ hist, 0 ≤ e.1.1.wager := by
  induction h with
  | start => simp [initialState, RoundState.ledger, wagered]
  | @snoc hist state state' input hrun hstep ih =>
      obtain ⟨hledger, hnonneg⟩ := ih
      obtain ⟨hstep, hlen, hwager⟩ := ledger_step (table_run hrun).2 hstep
      refine ⟨?_, ?_⟩
      · simp only [wagered, List.map_append, List.map_singleton, List.sum_append,
          List.sum_singleton] at hledger ⊢
        rw [Int.mul_comm] at hledger ⊢
        omega
      · intro e he
        rcases List.mem_append.mp he with he | he
        · exact hnonneg e he
        · rw [List.mem_singleton.mp he]
          exact hwager

/-- Amounts that are not negative add up to nothing only when each is
nothing. -/
private theorem sum_eq_zero_iff {xs : List Int} (h : ∀ x ∈ xs, 0 ≤ x) :
    0 ≤ xs.sum ∧ (xs.sum = 0 ↔ ∀ x ∈ xs, x = 0) := by
  induction xs with
  | nil => simp
  | cons x rest ih =>
      obtain ⟨hrest, hiff⟩ := ih fun y hy => h y (List.mem_cons_of_mem x hy)
      have hx := h x (List.mem_cons_self ..)
      rw [List.sum_cons, List.forall_mem_cons, ← hiff]
      omega

/-! ## Conservation -/

/-- The pot and the stakes are what the players brought. -/
def Conserved (ruleSet : RuleSet) (state : RoundState) : Prop :=
  state.ledger = ruleSet.stakeAmount.val * state.players.length

instance (ruleSet : RuleSet) (state : RoundState) : Decidable (Conserved ruleSet state) :=
  inferInstanceAs (Decidable (_ = _))

/-- **Conservation holds as long as nobody bets.** After any run the
ledger is what the players brought exactly when every bet in the run was
of nothing, and the next accepted action keeps it, up to the stake of a
`Join`, exactly when it bets nothing. -/
theorem conserved_iff_nothing_wagered
    (h : Run ruleSet (initialState gameId ruleSetHash deadline) hist state) :
    (Conserved ruleSet state ↔ ∀ e ∈ hist, e.1.1.wager = 0) ∧
      ∀ input state', Step ruleSet state input state' →
        (state'.ledger = state.ledger + input.1.deposit ruleSet ↔ input.1.wager = 0) := by
  constructor
  · obtain ⟨hledger, hnonneg⟩ := run_ledger h
    have hwagers : ∀ x ∈ hist.map (fun e => e.1.1.wager), 0 ≤ x := by
      intro x hx
      obtain ⟨e, he, rfl⟩ := List.mem_map.mp hx
      exact hnonneg e he
    have hzero := (sum_eq_zero_iff hwagers).2
    rw [List.forall_mem_map] at hzero
    rw [Conserved, hledger, ← hzero, wagered]
    omega
  · intro input state' hstep
    obtain ⟨hledger, _, _⟩ := ledger_step (table_run h).2 hstep
    rw [hledger]
    omega

/-- The sample game up to a bet of 5. -/
def betFive : List SignedAction :=
  openTable 0 1 ++ [.betAction { actionBy (some 0) with betAmount := 5 }]

theorem conserved_iff_nothing_wagered_betFive :
    ∃ hist state, Run defaultRuleSet (initialState "g" "" 244) hist state ∧
      (Conserved defaultRuleSet state ↔ ∀ e ∈ hist, e.1.1.wager = 0) := by
  cases h : playSample betFive with
  | none => exact absurd h (by decide)
  | some r =>
      have hrun := run_of_playSample h
      exact ⟨r.1, r.2, hrun, (conserved_iff_nothing_wagered hrun).1⟩

/-- Two players bring 1000 each; after a bet of 5 the table holds 2005. -/
theorem conservation_fails :
    ¬∀ (ruleSet : RuleSet) (gameId ruleSetHash : String) (deadline : SafeNat)
      (hist : List ((SignedAction × SafeNat) × RoundState)) (state : RoundState),
      Run ruleSet (initialState gameId ruleSetHash deadline) hist state →
        Conserved ruleSet state := by
  intro hclaim
  have hout : (playSample betFive).map (fun r => decide (Conserved defaultRuleSet r.2)) =
      some false := by decide
  obtain ⟨r, hplay, hr⟩ := Option.map_eq_some_iff.mp hout
  exact of_decide_eq_false hr (hclaim _ _ _ _ _ _ (run_of_playSample hplay))

end CardTable.Ts
