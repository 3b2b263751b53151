import CardTable.Roll
import CardTable.Ts.Ledger
import CardTable.Ts.Preview

/-!
# Ts.Roll — the TypeScript engine keeps a roll

What the handlers of `engine.ts` do to `players`, seat by seat: `applyJoin`
appends, `applyEntropyCommit` and `applyEntropyReveal` replace one player,
`applySettle` maps over all of them, and `applyFold` changes a status the
roll does not show. `said` reads off an action, and the state it comes to,
what it says about a seat; `players_told` is `Roll.Told` of every run.
-/

namespace CardTable.Ts

open Basis

/-! ## The abstraction -/

/-- What the roll shows of a player. A hash and an entropy count from the
moment their flag is set. -/
def PlayerState.entry (p : PlayerState) : Entry Int where
  seat := p.seat.val
  player := p.playerId
  signingKey := p.valueSigningPubkey
  commitment := if p.entropyCommitted then p.entropyCommitmentHash else none
  entropy := if p.entropyRevealed then p.entropyValue else none
  stake := p.stakeAtRisk.val

/-- The roll of a state. -/
def RoundState.roll (state : RoundState) : List (Entry Int) := state.players.map (·.entry)

/-- Something written to the seat an action names. -/
def sayAt (seat : Option Int) (w : Writing Int) : Said Int :=
  match seat with
  | none => .nothing
  | some seat => .wrote seat w

/-- What a settlement pays the acting seat. -/
def RoundState.payment (ruleSet : RuleSet) (state : RoundState) : Said Int :=
  match classifyInBetweenRound state.visibleCards with
  | .ok cls =>
      sayAt (state.actingPlayerSeat.map fun seat => (seat.val : Int))
        (.paid (computeValueTransfer cls.outcome state.potValue ruleSet.settlementRules).playerDelta)
  | _ => .nothing

/-- What an action says about a seat of the state it comes to. -/
def RoundState.said (ruleSet : RuleSet) (state : RoundState) : SignedAction → Said Int
  | .join a => .joined (a.actingPlayerSeat.getD state.players.length) a.playerPubkey
  | .entropyCommit a => sayAt a.actingPlayerSeat (.committed a.commitmentHash)
  | .entropyReveal a => sayAt a.actingPlayerSeat (.revealed a.entropy)
  | .settle _ => state.payment ruleSet
  | _ => .nothing

/-- Everything said in a history. -/
def saidIn (ruleSet : RuleSet) (initial : RoundState)
    (hist : List ((SignedAction × SafeNat) × RoundState)) : List (Said Int) :=
  (stepsOf initial hist).map fun u => u.1.said ruleSet u.2.1.1

variable {ruleSet : RuleSet} {state state' : RoundState}

theorem seats_roll (state : RoundState) : Roll.seats state.roll = state.table.seats := by
  rw [Roll.seats, RoundState.roll, List.map_map]
  rfl

theorem roll_of_players {players : List PlayerState} (h : state.players = players) :
    state.roll = players.map (·.entry) := congrArg _ h

/-! ## One lemma for each handler -/

theorem findSeat_seat {players : List PlayerState} {seat : Int} {idx : Nat} {p : PlayerState}
    (h : findSeat players seat = some (idx, p)) : (p.seat.val : Int) = seat := by
  simp only [findSeat] at h
  split at h
  · cases h
  · rename_i i hidx
    rw [Option.map_eq_some_iff] at h
    obtain ⟨q, hq, hpair⟩ := h
    cases hpair
    obtain ⟨hlt, hsat, _⟩ := List.findIdx?_eq_some_iff_getElem.mp hidx
    rw [List.getElem?_eq_getElem hlt] at hq
    cases hq
    simpa using hsat

/-- The seat a commitment is made for. -/
theorem commit_of_applyEntropyCommit {a : EntropyCommitAction}
    (h : applyEntropyCommit state a = .ok state') :
    ∃ seat idx p, a.actingPlayerSeat = some seat ∧
      findSeat state.players seat = some (idx, p) ∧ p.entropyCommitted = false ∧
      state'.players = state.players.set idx { p with
        entropyCommitted := true, entropyCommitmentHash := some a.commitmentHash } := by
  simp only [applyEntropyCommit] at h
  split at h
  · cases h
  · split at h
    · cases h
    · rename_i hseat
      split at h
      · cases h
      · rename_i hfind
        split at h
        · cases h
        · rename_i hfresh
          cases h
          exact ⟨_, _, _, hseat, hfind, by simpa using hfresh, rfl⟩

/-- The seat an entropy is revealed for. -/
theorem reveal_of_applyEntropyReveal {a : EntropyRevealAction}
    (h : applyEntropyReveal state a = .ok state') :
    ∃ seat idx p, a.actingPlayerSeat = some seat ∧
      findSeat state.players seat = some (idx, p) ∧ p.entropyRevealed = false ∧
      state'.players = state.players.set idx { p with
        entropyRevealed := true, entropyValue := some a.entropy
        participationStatus := .active } := by
  simp only [applyEntropyReveal] at h
  split at h
  · cases h
  · split at h
    · cases h
    · rename_i hseat
      split at h
      · cases h
      · rename_i hfind
        split at h
        · cases h
        · split at h
          · cases h
          · rename_i hfresh
            cases h
            exact ⟨_, _, _, hseat, hfind, by simpa using hfresh, rfl⟩

/-- One player replaced by one with a writing more. -/
theorem roll_set {seat : Int} {idx : Nat} {p q : PlayerState} {w : Writing Int}
    (hnodup : (Roll.seats state.roll).Nodup) (hfind : findSeat state.players seat = some (idx, p))
    (hfresh : w.Fresh p.entry) (hq : q.entry = w.apply p.entry) {stake : Int} :
    Roll.Step stake state.roll (.wrote seat w) ((state.players.set idx q).map (·.entry)) := by
  have hentry : state.roll[idx]? = some p.entry := by
    rw [RoundState.roll, List.getElem?_map, findSeat_getElem? hfind]
    rfl
  have hseat : p.entry.seat = seat := findSeat_seat hfind
  rw [List.map_set, hq, ← RoundState.roll, Roll.set_eq_write w hnodup hentry, hseat]
  refine .writes (Roll.mem_seats.mpr ⟨_, List.mem_of_getElem? hentry, hseat⟩) ?_
  intro e he hsame
  -- the seats being different, it is this entry
  have heq := List.inj_on_of_nodup_map hnodup he (List.mem_of_getElem? hentry)
    (hsame.trans hseat.symm)
  rw [heq]
  exact hfresh

/-- The settlement loop pays the acting seat. -/
theorem roll_settled {acting : SafeNat} {delta : Int} {players out : List PlayerState}
    (h : settlePlayers acting delta players = .ok out) :
    out.map (·.entry) = Roll.write acting.val (.paid delta) (players.map (·.entry)) := by
  induction players generalizing out with
  | nil =>
      cases h
      rfl
  | cons p rest ih =>
      by_cases hseat : p.seat = acting
      · obtain ⟨stake, rest', hstake, hrest, rfl⟩ := (settlePlayers_acting hseat).mp h
        have hsum : (stake.val : Int) = p.stakeAtRisk.val + delta := clampSat_sum.mp hstake
        have hpaid : PlayerState.entry { p with stakeAtRisk := stake } =
            (Writing.paid delta).apply p.entry := by
          simp only [PlayerState.entry, Writing.apply, hsum]
        have hentry : p.entry.seat = acting.val := congrArg (fun s : SafeNat => (s.val : Int)) hseat
        rw [List.map_cons, ih hrest, hpaid, List.map_cons, Roll.write, Roll.write, List.map_cons,
          if_pos hentry]
      · simp only [settlePlayers, hseat, ne_eq, not_false_eq_true, if_true] at h
        obtain ⟨rest', hrest, h⟩ := Outcome.bind_eq_ok.mp h
        cases h
        have hentry : p.entry.seat ≠ acting.val := fun heq => hseat (seatInt_inj heq)
        rw [List.map_cons, ih hrest, List.map_cons, Roll.write, Roll.write, List.map_cons,
          if_neg hentry]

/-- The acting seat of a settlement is taken. -/
theorem acting_seated {acting : SafeNat} (hwf : state.table.WF)
    (hclass : state.stateClass = .s10SettledRound)
    (hacting : state.actingPlayerSeat = some acting) :
    (acting.val : Int) ∈ Roll.seats state.roll := by
  have hone := count_acting hwf hclass hacting
  have hmem : acting ∈ state.players.map (·.seat) :=
    List.count_pos_iff.mp (by rw [hone]; exact Nat.one_pos)
  obtain ⟨p, hp, rfl⟩ := List.mem_map.mp hmem
  exact Roll.mem_seats.mpr ⟨p.entry, List.mem_map_of_mem hp, rfl⟩

/-! ## One step, and a run -/

/-- The handler of a commitment, behind the checks of `applyAction`. -/
theorem applyEntropyCommit_of_applyAction {a : EntropyCommitAction} {height : SafeNat}
    (h : applyAction state (.entropyCommit a) ruleSet height = .ok state') :
    applyEntropyCommit state a = .ok state' := by
  simp only [applyAction] at h
  split at h
  · cases h
  · split at h
    · cases h
    · exact h

/-- The handler of a reveal, behind the checks of `applyAction`. -/
theorem applyEntropyReveal_of_applyAction {a : EntropyRevealAction} {height : SafeNat}
    (h : applyAction state (.entropyReveal a) ruleSet height = .ok state') :
    applyEntropyReveal state a = .ok state' := by
  simp only [applyAction] at h
  split at h
  · cases h
  · split at h
    · cases h
    · exact h

/-- **The engine moves the roll**: an accepted action is one of its
moves. -/
theorem roll_step {input : SignedAction × SafeNat} (hwf : state.table.WF)
    (h : Step ruleSet state input state') :
    Roll.Step (ruleSet.stakeAmount.val : Int) state.roll (state.said ruleSet input.1) state'.roll := by
  obtain ⟨action, height⟩ := input
  have hnodup : (Roll.seats state.roll).Nodup := by
    rw [seats_roll]
    exact hwf.seatsNodup
  obtain ⟨_, haccepts⟩ := accepts_of_applyAction h
  cases haccepts with
  | @join a seat _ _ _ hseat hfree =>
      have hnew : (seat.val : Int) ∉ Roll.seats state.roll := by
        intro hmem
        obtain ⟨e, he, hsame⟩ := Roll.mem_seats.mp hmem
        obtain ⟨p, hp, rfl⟩ := List.mem_map.mp he
        exact hfree (List.mem_map.mpr ⟨p, hp, seatInt_inj hsame⟩)
      have hstep : Roll.Step (ruleSet.stakeAmount.val : Int) state.roll
          (.joined seat.val a.playerPubkey) _ := .joins hnew
      rw [hseat] at hstep
      simpa only [RoundState.said, RoundState.roll, List.map_append, List.map_singleton,
        PlayerState.entry, joinedPlayer, hseat, Bool.false_eq_true, if_false] using hstep
  | @entropyCommit a =>
      obtain ⟨seat, idx, p, hseat, hfind, hfresh, hplayers⟩ :=
        commit_of_applyEntropyCommit (applyEntropyCommit_of_applyAction h)
      simp only [RoundState.said, sayAt, hseat]
      rw [roll_of_players hplayers]
      exact roll_set (w := .committed a.commitmentHash) hnodup hfind
        (by simp [Writing.Fresh, PlayerState.entry, hfresh]) rfl
  | @entropyReveal a =>
      obtain ⟨seat, idx, p, hseat, hfind, hfresh, hplayers⟩ :=
        reveal_of_applyEntropyReveal (applyEntropyReveal_of_applyAction h)
      simp only [RoundState.said, sayAt, hseat]
      rw [roll_of_players hplayers]
      exact roll_set (w := .revealed a.entropy) hnodup hfind
        (by simp [Writing.Fresh, PlayerState.entry, hfresh]) rfl
  | @settle a acting cls transfer pot players hclass _ hacting hcls htransfer _ hplayers =>
      simp only [RoundState.said, RoundState.payment, hcls, hacting, Option.map_some, sayAt,
        ← htransfer]
      show Roll.Step _ state.roll _ (players.map (·.entry))
      rw [roll_settled hplayers]
      exact .writes (acting_seated hwf hclass hacting) (fun _ _ _ => trivial)
  -- a fold changes a status the roll does not show
  | @fold a seat deck idx p _ _ _ hfind =>
      have hsame : (state.players.set idx { p with participationStatus := .folded }).map
          (·.entry) = state.roll := map_set_of_eq (findSeat_getElem? hfind) rfl
      simp only [RoundState.said, RoundState.roll] at hsame ⊢
      rw [hsame]
      exact .rests
  | tableLock | firstCard | secondCard | thirdCard | dealConcealed | bet | pass | rotate | finish
  | tableClose | timeout | recovery => exact .rests

variable {gameId ruleSetHash : String} {deadline : SafeNat}
  {hist : List ((SignedAction × SafeNat) × RoundState)}

/-- **The players' records are what the log says.** After every run the
players are the accepted joins, in their order and on different seats;
each record holds the key of its join, the one commitment and the one
entropy sent for its seat, and the stake of the rule set with every
settlement of a round its seat was acting in; and nothing was written to a
seat nobody has joined. -/
theorem players_told (h : Run ruleSet (initialState gameId ruleSetHash deadline) hist state) :
    Roll.Told (ruleSet.stakeAmount.val : Int)
      (saidIn ruleSet (initialState gameId ruleSetHash deadline) hist) state.roll := by
  obtain ⟨hist', hrun, hsaid⟩ := h.told (I := fun state => state.table.WF)
    (Roll.Step (ruleSet.stakeAmount.val : Int)) RoundState.roll
    (fun state input => state.said ruleSet input.1) Table.wf_initial
    (fun hwf hstep => hwf.step (table_step hwf hstep)) roll_step
  rw [saidIn, ← hsaid]
  exact Roll.told_of_run hrun

/-- Two players, after their bet. -/
theorem players_told_betFive : ∃ hist state,
    Run defaultRuleSet (initialState "g" "" 244) hist state ∧ state.players.length = 2 ∧
      Roll.Told 1000 (saidIn defaultRuleSet (initialState "g" "" 244) hist) state.roll := by
  have hout : (playSample betFive).map (fun r => r.2.players.length) = some 2 := by decide
  obtain ⟨r, hplay, hlen⟩ := Option.map_eq_some_iff.mp hout
  have hrun := run_of_playSample hplay
  exact ⟨r.1, r.2, hrun, hlen, players_told hrun⟩

end CardTable.Ts
