import CardTable.Roll
import CardTable.Go.Amounts
import CardTable.Go.Reach
import Mathlib.Data.UInt

/-!
# Go.Roll — a session keeps a roll

The same roll as `Ts.Roll`, kept by the relay's sessions: a call of
`Submit` that is rejected says nothing, and the deck commitment stamped on
a state touches no player. The amounts are `uint64`s, and what a
settlement pays is the `int64` of the engine read as one: the sum the
handler tests and stores is the sum of the group.
-/

namespace CardTable.Go

open Basis

/-! ## The abstraction -/

/-- What the roll shows of a player. -/
def PlayerState.entry (p : PlayerState) : Entry UInt64 where
  seat := p.seat
  player := p.playerId
  signingKey := p.valueSigningPubkey
  commitment := if p.entropyCommitted then some p.entropyCommitmentHash else none
  entropy := if p.entropyRevealed then some p.entropyValue else none
  stake := p.stakeAtRisk

/-- The roll of a state. -/
def RoundState.roll (state : RoundState) : List (Entry UInt64) := state.players.map (·.entry)

/-- Something written to the seat an action names. -/
def sayAt (seat : Option Int) (w : Writing UInt64) : Said UInt64 :=
  match seat with
  | none => .nothing
  | some seat => .wrote seat w

/-- What a settlement pays the acting seat. -/
def RoundState.payment (ruleSet : RuleSet) (state : RoundState) : Said UInt64 :=
  match classifyInBetweenRound state.visibleCards with
  | .ok cls =>
      sayAt state.actingPlayerSeat (.paid (computeValueTransfer cls.outcome state.potValue
        ruleSet.settlementRules).playerDelta.toUInt64)
  | .error _ => .nothing

/-- What an action says about a seat of the state it comes to. -/
def RoundState.said (ruleSet : RuleSet) (state : RoundState) (a : SignedAction) : Said UInt64 :=
  match a.actionType with
  | .join => .joined (a.actingPlayerSeat.getD state.players.length) a.playerPubkey
  | .entropyCommit => sayAt a.actingPlayerSeat (.committed a.commitmentHash)
  | .entropyReveal => sayAt a.actingPlayerSeat (.revealed a.entropy)
  | .settle => state.payment ruleSet
  | _ => .nothing

variable {ruleSet : RuleSet} {state state' : RoundState} {a : SignedAction} {height : UInt32}

theorem seats_roll (state : RoundState) : Roll.seats state.roll = state.table.seats := by
  rw [Roll.seats, RoundState.roll, List.map_map]
  rfl

theorem roll_of_players {players : List PlayerState} (h : state.players = players) :
    state.roll = players.map (·.entry) := congrArg _ h

/-! ## One lemma for each handler -/

/-- One player replaced by one with a writing more. -/
theorem roll_set {seat : Int} {idx : Nat} {p q : PlayerState} {w : Writing UInt64}
    (hnodup : (Roll.seats state.roll).Nodup) (hfind : findSeat state.players seat = some (idx, p))
    (hfresh : w.Fresh p.entry) (hq : q.entry = w.apply p.entry) {stake : UInt64} :
    Roll.Step stake state.roll (.wrote seat w) ((state.players.set idx q).map (·.entry)) := by
  have hentry : state.roll[idx]? = some p.entry := by
    rw [RoundState.roll, List.getElem?_map, findSeat_getElem? hfind]
    rfl
  have hseat : p.entry.seat = seat := findSeat_seat hfind
  rw [List.map_set, hq, ← RoundState.roll, Roll.set_eq_write w hnodup hentry, hseat]
  refine .writes (Roll.mem_seats.mpr ⟨_, List.mem_of_getElem? hentry, hseat⟩) ?_
  intro e he hsame
  have heq := List.inj_on_of_nodup_map hnodup he (List.mem_of_getElem? hentry)
    (hsame.trans hseat.symm)
  rw [heq]
  exact hfresh

/-- The settlement loop pays the acting seat. -/
theorem roll_settled {acting : Int} {delta : Int64} {players out : List PlayerState}
    (h : settlePlayers acting delta players = .ok out) :
    out.map (·.entry) = Roll.write acting (.paid delta.toUInt64) (players.map (·.entry)) := by
  rw [← Int64.ofInt_toInt delta, settlePlayers_eq_ok_iff] at h
  obtain ⟨-, rfl⟩ := h
  rw [Roll.write, List.map_map, List.map_map]
  apply List.map_congr_left
  intro p _
  simp only [Function.comp_apply, settled, ← toInt64_add_ofInt, Int64.ofInt_toInt,
    Int64.toUInt64_add, UInt64.toUInt64_toInt64]
  by_cases hseat : p.seat = acting
  · rw [if_pos hseat, if_pos (show p.entry.seat = acting from hseat)]
    rfl
  · rw [if_neg hseat, if_neg (show p.entry.seat ≠ acting from hseat)]

/-- The acting seat of a settlement is taken. -/
theorem acting_seated {acting : Int} (hwf : state.table.WF)
    (hclass : state.stateClass = .s10SettledRound) (hacting : state.actingPlayerSeat = some acting) :
    acting ∈ Roll.seats state.roll := by
  have hinv := hwf.phaseInv
  simp only [Table.PhaseInv, RoundState.table, hclass] at hinv
  obtain ⟨⟨_, x, _, hx, hmem, _⟩, _⟩ := hinv
  rw [hacting] at hx
  obtain rfl := Option.some.inj hx
  rw [seats_roll]
  exact hmem

/-! ## One step, and a run -/

/-- The handler of a commitment, behind the checks of `ApplyAction`. -/
theorem applyEntropyCommit_of_applyAction (hkind : a.actionType = .entropyCommit)
    (h : applyAction state a ruleSet height = .ok state') :
    applyEntropyCommit state a = .ok state' := by
  simp only [applyAction, hkind] at h
  split at h
  · cases h
  · split at h
    · cases h
    · exact h

/-- The handler of a reveal, behind the checks of `ApplyAction`. -/
theorem applyEntropyReveal_of_applyAction (hkind : a.actionType = .entropyReveal)
    (h : applyAction state a ruleSet height = .ok state') :
    applyEntropyReveal state a = .ok state' := by
  simp only [applyAction, hkind] at h
  split at h
  · cases h
  · split at h
    · cases h
    · exact h

/-- **The engine moves the roll**: an accepted action is one of its
moves. -/
theorem roll_step (hwf : state.table.WF) (h : applyAction state a ruleSet height = .ok state') :
    Roll.Step ruleSet.stakeAmount state.roll (state.said ruleSet a) state'.roll := by
  have hnodup : (Roll.seats state.roll).Nodup := by
    rw [seats_roll]
    exact hwf.seatsNodup
  obtain ⟨_, haccepts⟩ := accepts_of_applyAction h
  cases haccepts with
  | @join seat hkind _ hstake _ hseat hfree =>
      have hnew : seat ∉ Roll.seats state.roll := by
        rw [seats_roll]
        exact hfree
      have hstep : Roll.Step ruleSet.stakeAmount state.roll (.joined seat a.playerPubkey) _ :=
        .joins hnew
      rw [hseat] at hstep
      simpa only [RoundState.said, hkind, RoundState.roll, List.map_append, List.map_singleton,
        PlayerState.entry, joinedPlayer, hseat, hstake, Bool.false_eq_true, if_false] using hstep
  | entropyCommit hkind =>
      obtain ⟨_, seat, idx, p, players, hseat, hfind, hfresh, hplayers, hstate⟩ :=
        applyEntropyCommit_eq_ok (applyEntropyCommit_of_applyAction hkind h)
      have hset := congrArg RoundState.players hstate
      simp only [RoundState.said, hkind, sayAt, hseat]
      rw [roll_of_players (hset.trans hplayers)]
      exact roll_set (w := .committed a.commitmentHash) hnodup hfind
        (by simp [Writing.Fresh, PlayerState.entry, hfresh]) rfl
  | entropyReveal hkind =>
      obtain ⟨_, seat, idx, p, players, hseat, hfind, hfresh, hplayers, hstate⟩ :=
        applyEntropyReveal_eq_ok (applyEntropyReveal_of_applyAction hkind h)
      have hset := congrArg RoundState.players hstate
      simp only [RoundState.said, hkind, sayAt, hseat]
      rw [roll_of_players (hset.trans hplayers)]
      exact roll_set (w := .revealed a.entropy) hnodup hfind
        (by simp [Writing.Fresh, PlayerState.entry, hfresh]) rfl
  | @settle acting cls transfer players hkind hclass _ hacting hcls htransfer _ hplayers =>
      simp only [RoundState.said, hkind, RoundState.payment, hcls, hacting, sayAt, ← htransfer]
      show Roll.Step _ state.roll _ (players.map (·.entry))
      rw [roll_settled hplayers]
      exact .writes (acting_seated hwf hclass hacting) (fun _ _ _ => trivial)
  | @fold seat idx p hkind _ _ hfind =>
      have hsame : (state.players.set idx { p with participationStatus := .folded }).map
          (·.entry) = state.roll := map_set_of_eq (findSeat_getElem? hfind) rfl
      simp only [RoundState.said, hkind, RoundState.roll] at hsame ⊢
      rw [hsame]
      exact .rests
  | tableLock hkind | firstCard hkind | secondCard hkind | thirdCard hkind | dealConcealed hkind
  | bet hkind | pass hkind | rotate hkind | finish hkind | tableClose hkind | timeout hkind
  | recovery hkind =>
      simp only [RoundState.said, hkind]
      exact .rests

namespace Session

variable {s s' : Session} {gameId ruleSetHash : String} {recoveryDeadline : UInt32}
  {hist : List ((SignedAction × UInt32) × Session)}

/-- What a call says: nothing, unless it is accepted. -/
def said (s : Session) (call : SignedAction × UInt32) : Said UInt64 :=
  match s.submit call.1 call.2 with
  | .ok _ => s.state.said s.ruleSet call.1
  | _ => .nothing

/-- Everything said in a history. -/
def saidIn (initial : Session) (hist : List ((SignedAction × UInt32) × Session)) :
    List (Said UInt64) :=
  (stepsOf initial hist).map fun u => u.1.said u.2.1

/-- **A call moves the roll**, or leaves it. -/
theorem roll_step {call : SignedAction × UInt32} (hsound : Sound s) (h : Step s call s') :
    Roll.Step s.ruleSet.stakeAmount s.state.roll (s.said call) s'.state.roll := by
  rcases h with hok | ⟨e, herr, rfl⟩
  · obtain ⟨_, _, next, final, hnext, hbind, hs'⟩ := submit_eq_ok.mp hok
    obtain ⟨hbare, _⟩ := bindDeck_eq_ok hbind
    have hplayers : final.bare.players = next.bare.players := by rw [hbare]
    have hsaid : s.said call = s.state.said s.ruleSet call.1 := by simp only [said, hok]
    have hroll : s'.state.roll = next.roll := by
      rw [hs']
      exact congrArg (List.map (·.entry)) hplayers
    rw [hsaid, hroll]
    exact Go.roll_step hsound.table hnext
  · have hsaid : s'.said call = .nothing := by simp only [said, herr]
    rw [hsaid]
    exact .rests

/-- A session keeps its rule set. -/
theorem ruleSet_step {call : SignedAction × UInt32} (h : Step s call s') :
    s'.ruleSet = s.ruleSet := by
  rcases h with hok | ⟨_, _, rfl⟩
  · obtain ⟨_, _, _, _, _, _, rfl⟩ := submit_eq_ok.mp hok
    rfl
  · rfl

/-- **The players' records are what the transcript says.** After every
run of `Submit` calls, accepted or not, the players are the accepted
joins, in their order and on different seats; each record holds the key
of its join, the one commitment and the one entropy sent for its seat, and
the stake of the rule set with every settlement of a round its seat was
acting in; and nothing was written to a seat nobody has joined. -/
theorem records_told (h : Run gameId ruleSet ruleSetHash recoveryDeadline hist s) :
    Roll.Told ruleSet.stakeAmount (saidIn (new gameId ruleSet ruleSetHash recoveryDeadline) hist)
      s.state.roll := by
  have hkept : ∀ {s call s'}, (s.ruleSet = ruleSet ∧ Sound s ∧
      Tracks gameId ruleSet ruleSetHash recoveryDeadline s) → Step s call s' →
      s'.ruleSet = ruleSet ∧ Sound s' ∧ Tracks gameId ruleSet ruleSetHash recoveryDeadline s' := by
    intro s call s' ⟨hrules, hsound, htracks⟩ hstep
    refine ⟨(ruleSet_step hstep).trans hrules, ?_⟩
    rcases hstep with hok | ⟨_, _, rfl⟩
    · exact ⟨hsound.submit htracks hok, htracks.submit hok⟩
    · exact ⟨hsound, htracks⟩
  obtain ⟨hist', hrun, hsaid⟩ := h.told (Roll.Step ruleSet.stakeAmount) (fun s => s.state.roll)
    said ⟨rfl, sound_new, tracks_new⟩ hkept
    (fun hI hstep => hI.1 ▸ roll_step hI.2.1 hstep)
  rw [saidIn, ← hsaid]
  exact Roll.told_of_run hrun

/-- In the sample game, after the last entropy. -/
theorem records_told_sample : ∃ hist s, Run sampleGame defaultRuleSet zeroHash 244 hist s ∧
    s.state.stateClass = .s5DeckCommitted ∧
    Roll.Told 1000 (saidIn (new sampleGame defaultRuleSet zeroHash 244) hist) s.state.roll := by
  obtain ⟨hist, s, hrun, _, hclass⟩ := sample_run
  exact ⟨hist, s, hrun, hclass, records_told hrun⟩

end Session

end CardTable.Go
