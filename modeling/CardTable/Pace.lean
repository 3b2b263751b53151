import CardTable.Closing

/-!
# Pace — how long a session can last

Every action but `TableClose` and `Recovery` brings a game nearer to its
end: a player joins, commits or reveals, the one deal is made, a round
moves on, or the turn goes round. `Pace` keeps of a round state what this
depends on, `Step` says what an accepted action does to it, and
`remaining` is the number that each of them lowers. The two engines are
then shown to keep pace.
-/

namespace CardTable

open Basis

/-- The part of a round state that says how far a game has come. -/
structure Pace where
  phase : StateClass
  seated : Nat
  uncommitted : Nat
  unrevealed : Nat
  dealt : Bool
  round : Int
  deriving DecidableEq, Repr

namespace Pace

/-- The steps within a round, from its second card to its end. -/
def onwards : List (StateClass × StateClass) :=
  [ (.s6CardRevealFirst, .s8BetDecision), (.s8BetDecision, .s9CardRevealThird),
    (.s9CardRevealThird, .s10SettledRound), (.s8BetDecision, .s11RotateTurn),
    (.s10SettledRound, .s11RotateTurn) ]

/-- What an accepted action of each type does, at a table for `cap`
players. -/
inductive Step (cap : Nat) (p p' : Pace) : ActionType → Prop where
  | join : p.phase = .s1SeatOpen → p.seated < cap →
      p'.phase = .s1SeatOpen → p'.seated = p.seated + 1 → Step cap p p' .join
  | tableLock : p.phase = .s1SeatOpen →
      p'.phase = .s3EntropyCommitWindow → p'.seated = p.seated → Step cap p p' .tableLock
  | entropyCommit : p.phase = .s3EntropyCommitWindow →
      p'.phase = .s3EntropyCommitWindow ∨ p'.phase = .s4EntropyRevealWindow →
      p'.seated = p.seated → p'.uncommitted + 1 = p.uncommitted → Step cap p p' .entropyCommit
  | entropyReveal : p.phase = .s4EntropyRevealWindow →
      p'.phase = .s4EntropyRevealWindow ∨ p'.phase = .s5DeckCommitted →
      p'.seated = p.seated → p'.unrevealed + 1 = p.unrevealed → Step cap p p' .entropyReveal
  | dealConcealed : p.phase = .s5DeckCommitted → p.dealt = false →
      p'.phase = .s5DeckCommitted → p'.seated = p.seated → p'.dealt = true →
      Step cap p p' .dealConcealed
  | firstCard : p.phase = .s5DeckCommitted → p'.phase = .s6CardRevealFirst →
      p'.seated = p.seated → p'.round = 0 → Step cap p p' .cardReveal
  | onward {kind : ActionType} : (p.phase, p'.phase) ∈ onwards →
      p'.seated = p.seated → p'.round = p.round → Step cap p p' kind
  | rotate : p.phase = .s11RotateTurn → p'.phase = .s6CardRevealFirst →
      p'.seated = p.seated → p'.round = p.round + 1 → Step cap p p' .rotateTurn
  | finish : p.phase = .s11RotateTurn → p'.phase = .s12TableClose → p'.seated = p.seated →
      Step cap p p' .rotateTurn
  | tableClose : p'.phase = .s12TableClose → p'.seated = p.seated → Step cap p p' .tableClose
  | recovery : p'.phase = .recovered → p'.seated = p.seated → Step cap p p' .recovery

/-- What a phase knows of the players and the round. -/
def Playing (p : Pace) : Prop :=
  match p.phase with
  | .s5DeckCommitted => 0 < p.seated
  | .s6CardRevealFirst | .s8BetDecision | .s9CardRevealThird | .s10SettledRound
  | .s11RotateTurn => p.round < p.seated
  | _ => True

/-- What holds of the pace of a game between actions. -/
structure Sound (cap : Nat) (p : Pace) : Prop where
  seated : p.seated ≤ cap
  uncommitted : p.uncommitted ≤ p.seated
  unrevealed : p.unrevealed ≤ p.seated
  playing : p.Playing

/-- The rounds left, the present one counted. -/
def left (p : Pace) : Nat := (p.seated - p.round).toNat

/-- A bound on the actions still to come. -/
def remaining (cap : Nat) (p : Pace) : Nat :=
  match p.phase with
  | .s1SeatOpen => (cap - p.seated) + 8 * cap + 2
  | .s3EntropyCommitWindow => p.uncommitted + 7 * p.seated + 1
  | .s4EntropyRevealWindow => p.unrevealed + 6 * p.seated + 1
  | .s5DeckCommitted => 6 * p.seated + if p.dealt then 0 else 1
  | .s6CardRevealFirst => 5 * p.left
  | .s8BetDecision => 5 * p.left - 1
  | .s9CardRevealThird => 5 * p.left - 2
  | .s10SettledRound => 5 * p.left - 3
  | .s11RotateTurn => 5 * p.left - 4
  | _ => 0

/-- **Every action counts**: one that does not end the game lowers the
bound, and none raises it. -/
theorem Step.remaining_le {cap : Nat} {p p' : Pace} {kind : ActionType} (h : Step cap p p' kind)
    (hp : p.Sound cap) (hp' : p'.Sound cap) :
    p'.remaining cap + (if ends kind then 0 else 1) ≤ p.remaining cap := by
  obtain ⟨hseated, -, -, hplaying⟩ := hp
  obtain ⟨-, huncommitted', hunrevealed', -⟩ := hp'
  cases h with
  | join hphase hfree hphase' hone =>
      simp only [remaining, hphase, hphase', ends, Bool.false_eq_true, if_false]
      omega
  | tableLock hphase hphase' hsame =>
      simp only [remaining, hphase, hphase', ends, Bool.false_eq_true, if_false]
      omega
  | entropyCommit hphase hphase' hsame hone =>
      rcases hphase' with hphase' | hphase'
      · simp only [remaining, hphase, hphase', ends, Bool.false_eq_true, if_false]
        omega
      · simp only [remaining, hphase, hphase', ends, Bool.false_eq_true, if_false]
        omega
  | entropyReveal hphase hphase' hsame hone =>
      rcases hphase' with hphase' | hphase'
      · simp only [remaining, hphase, hphase', ends, Bool.false_eq_true, if_false]
        omega
      · simp only [remaining, hphase, hphase', ends, Bool.false_eq_true, if_false]
        split
        · omega
        · omega
  | dealConcealed hphase hdealt hphase' hsame hdealt' =>
      simp only [remaining, hphase, hphase', ends, hdealt, hdealt', hsame, Bool.false_eq_true,
        if_false, if_true]
      omega
  | firstCard hphase hphase' hsame hround =>
      simp only [Playing, hphase] at hplaying
      simp only [remaining, hphase, hphase', ends, left, Bool.false_eq_true, if_false]
      omega
  | onward hphases hsame hround =>
      have hleft : p'.left = p.left := by rw [left, left, hsame, hround]
      simp only [onwards, List.mem_cons, Prod.mk.injEq, List.not_mem_nil, or_false] at hphases
      have hone : (if ends kind then 0 else 1) ≤ 1 := by split <;> omega
      -- while a round is left it is worth five steps
      have hpos : p.round < p.seated → 0 < p.left := by
        intro hlt
        rw [left]
        omega
      rcases hphases with hphases | hphases | hphases | hphases | hphases <;>
        obtain ⟨hphase, hphase'⟩ := hphases <;>
        simp only [Playing, hphase] at hplaying <;>
        simp only [remaining, hphase, hphase', hleft] <;>
        have := hpos hplaying <;>
        omega
  | rotate hphase hphase' hsame hround =>
      simp only [Playing, hphase] at hplaying
      simp only [remaining, hphase, hphase', ends, left, Bool.false_eq_true, if_false]
      omega
  | finish hphase hphase' =>
      simp only [Playing, hphase] at hplaying
      simp only [remaining, hphase, hphase', ends, left, Bool.false_eq_true, if_false]
      omega
  | tableClose hphase' | recovery hphase' => simp [remaining, hphase', ends]

/-- A table for `cap` players stays one. -/
theorem Step.seated_le {cap : Nat} {p p' : Pace} {kind : ActionType} (h : Step cap p p' kind)
    (hp : p.seated ≤ cap) : p'.seated ≤ cap := by
  cases h with
  | join _ hfree _ hone => omega
  | tableLock | entropyCommit | entropyReveal | dealConcealed | firstCard | onward | rotate
  | finish | tableClose | recovery => omega

/-- **Runs of a system that keeps pace**: its actions so far, those that
end a game left out, and what may still come are within the bound of the
start. -/
theorem countP_le_of_run {σ ι : Type} {R : σ → ι → σ → Prop} {s₀ s : σ} {hist : List (ι × σ)}
    (hrun : Path R s₀ hist s) (pace : σ → Pace) (kind : ι → ActionType) (I : σ → Prop) {cap : Nat}
    (h₀ : I s₀) (hseated : (pace s₀).seated ≤ cap) (hI : ∀ {s i s'}, I s → R s i s' → I s')
    (hsound : ∀ {s}, I s → (pace s).seated ≤ cap → (pace s).Sound cap)
    (hstep : ∀ {s i s'}, I s → R s i s' → Step cap (pace s) (pace s') (kind i)) :
    (hist.countP fun e => !ends (kind e.1)) + (pace s).remaining cap ≤ (pace s₀).remaining cap := by
  refine hrun.countP_add_rank_le (fun s => (pace s).remaining cap) (fun i => !ends (kind i))
    (fun s => I s ∧ (pace s).seated ≤ cap) ⟨h₀, hseated⟩ ?_ ?_
  · intro s i s' hs hr
    exact ⟨hI hs.1 hr, (hstep hs.1 hr).seated_le hs.2⟩
  · intro s i s' hs hr
    have hnext := hstep hs.1 hr
    have hle := hnext.remaining_le (hsound hs.1 hs.2) (hsound (hI hs.1 hr) (hnext.seated_le hs.2))
    cases hends : ends (kind i) with
    | true => simpa [hends] using hle
    | false => simpa [hends] using hle

/-- The bound of a fresh session. -/
theorem remaining_initial {cap : Nat} {p : Pace} (hphase : p.phase = .s1SeatOpen)
    (hseated : p.seated = 0) : p.remaining cap = 9 * cap + 2 := by
  simp only [remaining, hphase, hseated]
  omega

end Pace

namespace Table

/-- The walk of the ring ends before it has gone round. -/
theorem OnTurn.round_lt {t : Table} (h : OnTurn t) : t.round < t.seats.length := by
  obtain ⟨first, x, _, _, hmem, _, hpos⟩ := h
  have hlt := List.idxOf_lt_length_of_mem (mem_ring.mpr hmem)
  rw [t.ring_perm.length_eq] at hlt
  omega

/-- A table never has more rounds than seats. -/
theorem WF.playing {t : Table} (h : WF t) (p : Pace) (hphase : p.phase = t.phase)
    (hseated : p.seated = t.seats.length) (hround : p.round = t.round) : p.Playing := by
  have hinv := h.phaseInv
  have hpos : t.seats ≠ [] → 0 < t.seats.length := List.length_pos_iff.mpr
  simp only [PhaseInv] at hinv
  simp only [Pace.Playing, hphase, hseated, hround]
  split
  · rename_i hat
    simp only [hat] at hinv
    exact hpos hinv.2
  · rename_i hat
    simp only [hat] at hinv
    rcases hinv with ⟨hzero, -, -, hseats⟩ | ⟨-, hturn, -⟩
    · have := hpos hseats
      omega
    · exact hturn.round_lt
  · rename_i hat
    simp only [hat] at hinv
    exact hinv.1.round_lt
  · rename_i hat
    simp only [hat] at hinv
    exact hinv.1.round_lt
  · rename_i hat
    simp only [hat] at hinv
    exact hinv.1.round_lt
  · rename_i hat
    simp only [hat] at hinv
    exact hinv.round_lt
  · trivial

end Table

/-! ## TypeScript -/

namespace Ts

variable {ruleSet : RuleSet} {state state' : RoundState}

/-- The pace of a round state. -/
def RoundState.pace (state : RoundState) : Pace where
  phase := state.stateClass
  seated := state.players.length
  uncommitted := state.players.countP (!·.entropyCommitted)
  unrevealed := state.players.countP (!·.entropyRevealed)
  dealt := state.concealedDeck.isSome
  round := state.roundNumber.val

theorem pace_sound {cap : Nat} (hwf : state.table.WF) (hseated : state.players.length ≤ cap) :
    state.pace.Sound cap where
  seated := hseated
  uncommitted := List.countP_le_length
  unrevealed := List.countP_le_length
  playing := hwf.playing _ rfl (List.length_map _).symm rfl

theorem uncommitted_of_commit {a : EntropyCommitAction}
    (h : applyEntropyCommit state a = .ok state') :
    state'.pace.uncommitted + 1 = state.pace.uncommitted := by
  obtain ⟨-, seat, idx, p, players, hfind, hfresh, rfl, rfl⟩ := applyEntropyCommit_eq_ok h
  exact countP_set_of_false (findSeat_getElem? hfind) (by simpa using hfresh) rfl

theorem unrevealed_of_reveal {a : EntropyRevealAction}
    (h : applyEntropyReveal state a = .ok state') :
    state'.pace.unrevealed + 1 = state.pace.unrevealed := by
  obtain ⟨-, seat, idx, p, players, hfind, hfresh, rfl, rfl⟩ := applyEntropyReveal_eq_ok h
  exact countP_set_of_false (findSeat_getElem? hfind) (by simpa using hfresh) rfl

/-- The deck is dealt once. -/
theorem undealt_of_deal {a : DealConcealedAction}
    (h : applyDealConcealed state a ruleSet = .ok state') : state.pace.dealt = false := by
  unfold applyDealConcealed at h
  split at h
  · cases h
  · split at h
    · cases h
    · rename_i hnone
      simp only [RoundState.pace, Decidable.not_not.mp hnone, Option.isSome_none]

/-- What the action that was accepted did, as its handler did it. -/
theorem handler_of_step {action : SignedAction} {height : SafeNat}
    (h : Step ruleSet state (action, height) state') :
    (∀ a, action = .entropyCommit a → applyEntropyCommit state a = .ok state') ∧
      (∀ a, action = .entropyReveal a → applyEntropyReveal state a = .ok state') ∧
      ∀ a, action = .dealConcealed a → applyDealConcealed state a ruleSet = .ok state' := by
  simp only [Step, applyAction] at h
  split at h
  · cases h
  · split at h
    · cases h
    · refine ⟨?_, ?_, ?_⟩
      · rintro a rfl
        exact h
      · rintro a rfl
        exact h
      · rintro a rfl
        exact h

/-- **The engine keeps pace.** -/
theorem pace_step {input : SignedAction × SafeNat} (hwf : state.table.WF)
    (h : Step ruleSet state input state') :
    Pace.Step ruleSet.playerCountMax.toNat state.pace state'.pace input.1.actionType := by
  obtain ⟨action, height⟩ := input
  obtain ⟨hcommit, hreveal, hdeal⟩ := handler_of_step h
  obtain ⟨_, haccepts⟩ := accepts_of_applyAction h
  have hinv := hwf.phaseInv
  simp only [Table.PhaseInv, RoundState.table] at hinv
  cases haccepts with
  | join hclass _ hmax =>
      refine .join hclass ?_ hclass ?_
      · show state.players.length < _
        omega
      · simp [RoundState.pace]
  | tableLock hclass => exact .tableLock hclass rfl rfl
  | entropyCommit hclass _ hnext =>
      exact .entropyCommit hclass hnext (by simp [RoundState.pace])
        (uncommitted_of_commit (hcommit _ rfl))
  | entropyReveal hclass _ hnext =>
      exact .entropyReveal hclass hnext (by simp [RoundState.pace])
        (unrevealed_of_reveal (hreveal _ rfl))
  | firstCard hclass =>
      simp only [hclass] at hinv
      exact .firstCard hclass rfl rfl hinv.1.1
  | secondCard hclass | thirdCard hclass | bet hclass | pass hclass | timeout hclass =>
      refine .onward ?_ rfl rfl
      simp [RoundState.pace, RoundState.advance, hclass, Pace.onwards]
  | dealConcealed hclass => exact .dealConcealed hclass (undealt_of_deal (hdeal _ rfl)) hclass rfl rfl
  | fold hclass =>
      rcases hclass with hclass | hclass
      · refine .onward ?_ (by simp [RoundState.pace]) rfl
        simp [RoundState.pace, RoundState.advance, hclass, Pace.onwards]
      · simp only [hclass] at hinv
  | settle hclass _ _ _ _ _ hplayers =>
      refine .onward ?_ ?_ rfl
      · simp [RoundState.pace, RoundState.advance, hclass, Pace.onwards]
      · have hseats := congrArg List.length (seats_settled hplayers)
        simpa [RoundState.pace] using hseats
  | rotate hclass _ _ _ hround => exact .rotate hclass rfl rfl hround
  | finish hclass => exact .finish hclass rfl rfl
  | tableClose hclass => exact .tableClose hclass rfl
  | recovery => exact .recovery rfl rfl

/-- The length of a run, with what may still come. -/
theorem length_of_run {gameId ruleSetHash : String} {deadline : SafeNat}
    {hist : List ((SignedAction × SafeNat) × RoundState)}
    (hrun : Run ruleSet (initialState gameId ruleSetHash deadline) hist state) :
    (hist.countP fun e => !ends e.1.1.actionType) +
        state.pace.remaining ruleSet.playerCountMax.toNat ≤
      9 * ruleSet.playerCountMax.toNat + 2 := by
  rw [← Pace.remaining_initial (p := (initialState gameId ruleSetHash deadline).pace) rfl rfl]
  exact Pace.countP_le_of_run hrun RoundState.pace (fun input => input.1.actionType)
    (fun s => s.table.WF) Table.wf_initial (Nat.zero_le _)
    (fun hwf h => hwf.step (table_step hwf h)) pace_sound pace_step

end Ts

/-! ## Go -/

namespace Go

variable {ruleSet : RuleSet} {state state' : RoundState} {a : SignedAction}

/-- The pace of a round state. -/
def RoundState.pace (state : RoundState) : Pace where
  phase := state.stateClass
  seated := state.players.length
  uncommitted := state.players.countP (!·.entropyCommitted)
  unrevealed := state.players.countP (!·.entropyRevealed)
  dealt := decide (0 < sliceLen state.concealedDeck)
  round := state.roundNumber

theorem pace_sound {cap : Nat} (hwf : state.table.WF) (hseated : state.players.length ≤ cap) :
    state.pace.Sound cap where
  seated := hseated
  uncommitted := List.countP_le_length
  unrevealed := List.countP_le_length
  playing := hwf.playing _ rfl (List.length_map _).symm rfl

theorem uncommitted_of_commit (h : applyEntropyCommit state a = .ok state') :
    state'.pace.uncommitted + 1 = state.pace.uncommitted := by
  obtain ⟨-, seat, idx, p, players, -, hfind, hfresh, rfl, rfl⟩ := applyEntropyCommit_eq_ok h
  exact countP_set_of_false (findSeat_getElem? hfind) (by simpa using hfresh) rfl

theorem unrevealed_of_reveal (h : applyEntropyReveal state a = .ok state') :
    state'.pace.unrevealed + 1 = state.pace.unrevealed := by
  obtain ⟨-, seat, idx, p, players, -, hfind, hfresh, rfl, rfl⟩ := applyEntropyReveal_eq_ok h
  exact countP_set_of_false (findSeat_getElem? hfind) (by simpa using hfresh) rfl

/-- What the action that was accepted did, as its handler did it. -/
theorem handler_of_step {height : UInt32} (h : Step ruleSet state (a, height) state') :
    (a.actionType = .entropyCommit → applyEntropyCommit state a = .ok state') ∧
      (a.actionType = .entropyReveal → applyEntropyReveal state a = .ok state') := by
  simp only [Step, applyAction] at h
  split at h
  · cases h
  · split at h
    · cases h
    · constructor
      · intro hkind
        rwa [hkind] at h
      · intro hkind
        rwa [hkind] at h

/-- **The engine keeps pace**, when a deck has cards. -/
theorem pace_step {input : SignedAction × UInt32} (hdeck : 0 < ruleSet.deckFormat)
    (hwf : state.table.WF) (h : Step ruleSet state input state') :
    Pace.Step ruleSet.playerCountMax.toNat state.pace state'.pace input.1.actionType := by
  obtain ⟨action, height⟩ := input
  obtain ⟨hcommit, hreveal⟩ := handler_of_step h
  obtain ⟨_, haccepts⟩ := accepts_of_applyAction h
  have hinv := hwf.phaseInv
  simp only [Table.PhaseInv, RoundState.table] at hinv
  dsimp only
  cases haccepts with
  | join hkind hclass _ hmax =>
      rw [hkind]
      refine .join hclass ?_ hclass ?_
      · show state.players.length < _
        omega
      · simp [RoundState.pace]
  | tableLock hkind hclass =>
      rw [hkind]
      exact .tableLock hclass rfl rfl
  | entropyCommit hkind hclass _ _ hnext =>
      have hone := uncommitted_of_commit (hcommit hkind)
      rw [hkind]
      exact .entropyCommit hclass hnext (by simp [RoundState.pace]) hone
  | entropyReveal hkind hclass _ _ hplayers hnext =>
      have hone := unrevealed_of_reveal (hreveal hkind)
      rw [hkind]
      refine .entropyReveal hclass ?_ (by simp [RoundState.pace, hplayers]) hone
      simp only [RoundState.pace, RoundState.advance, hnext]
      split
      · exact .inr rfl
      · exact .inl rfl
  | firstCard hkind hclass =>
      simp only [hclass] at hinv
      rw [hkind]
      exact .firstCard hclass rfl rfl hinv.1.1
  | secondCard hkind hclass | thirdCard hkind hclass | bet hkind hclass | pass hkind hclass
  | timeout hkind hclass =>
      refine .onward ?_ rfl rfl
      simp [RoundState.pace, RoundState.advance, hclass, Pace.onwards]
  -- an empty slice is no deck, but a deck of the rule set has cards
  | dealConcealed hkind hclass hnone hcards =>
      rw [hkind]
      refine .dealConcealed hclass ?_ hclass rfl ?_
      · simp [RoundState.pace, hnone]
      · have hsome : 0 < action.concealedCards.length := by
          dsimp only at hcards
          omega
        exact decide_eq_true hsome
  | fold hkind hclass =>
      rcases hclass with hclass | hclass
      · refine .onward ?_ (by simp [RoundState.pace]) rfl
        simp [RoundState.pace, RoundState.advance, hclass, Pace.onwards]
      · simp only [hclass] at hinv
  | settle hkind hclass _ _ _ _ _ hplayers =>
      refine .onward ?_ ?_ rfl
      · simp [RoundState.pace, RoundState.advance, hclass, Pace.onwards]
      · have hseats := congrArg List.length (seats_settled hplayers)
        simpa [RoundState.pace] using hseats
  | rotate hkind hclass =>
      rw [hkind]
      exact .rotate hclass rfl rfl rfl
  | finish hkind hclass =>
      rw [hkind]
      exact .finish hclass rfl rfl
  | tableClose hkind hclass =>
      rw [hkind]
      exact .tableClose hclass rfl
  | recovery hkind =>
      rw [hkind]
      exact .recovery rfl rfl

/-- The length of a run, with what may still come. -/
theorem length_of_run {gameId ruleSetHash : String} {deadline : UInt32}
    {hist : List ((SignedAction × UInt32) × RoundState)} (hdeck : 0 < ruleSet.deckFormat)
    (hrun : Run ruleSet (initialState gameId ruleSetHash deadline) hist state) :
    (hist.countP fun e => !ends e.1.1.actionType) +
        state.pace.remaining ruleSet.playerCountMax.toNat ≤
      9 * ruleSet.playerCountMax.toNat + 2 := by
  rw [← Pace.remaining_initial (p := (initialState gameId ruleSetHash deadline).pace) rfl rfl]
  exact Pace.countP_le_of_run hrun RoundState.pace (fun input => input.1.actionType)
    (fun s => s.table.WF) Table.wf_initial (Nat.zero_le _)
    (fun hwf h => hwf.step (table_step hwf h)) pace_sound (pace_step hdeck)

end Go

/-! ## Both engines -/

/-- **A session cannot run for ever.** With a deck of 52 or 54 cards at
most `9 * max(player_count_max, 0) + 2` actions other than `Recovery` and
`TableClose` are accepted in a run of either engine. -/
theorem session_length (gameId ruleSetHash : String) :
    (∀ ruleSet deadline hist state,
      ruleSet.deckFormat = 52 ∨ ruleSet.deckFormat = 54 →
      Ts.Run ruleSet (Ts.initialState gameId ruleSetHash deadline) hist state →
      ((hist.countP fun e => !ends e.1.1.actionType : Nat) : Int) ≤
        9 * max ruleSet.playerCountMax 0 + 2) ∧
    (∀ ruleSet deadline hist state,
      ruleSet.deckFormat = 52 ∨ ruleSet.deckFormat = 54 →
      Go.Run ruleSet (Go.initialState gameId ruleSetHash deadline) hist state →
      ((hist.countP fun e => !ends e.1.1.actionType : Nat) : Int) ≤
        9 * max ruleSet.playerCountMax 0 + 2) := by
  constructor
  · intro ruleSet deadline hist state _ hrun
    have hlength := Ts.length_of_run hrun
    omega
  · intro ruleSet deadline hist state hdeck hrun
    have hlength := Go.length_of_run (by omega) hrun
    omega

/-- A table for one player. -/
def loneRuleSet : Ts.RuleSet := { Ts.defaultRuleSet with playerCountMin := 1, playerCountMax := 1 }

/-- One player joins, deals, bets and settles, and the turn goes round. -/
def playAlone : List Ts.SignedAction :=
  [ .join { Ts.actionBy (some 0) with playerPubkey := "A", stakeAmount := 1000 },
    .tableLock (Ts.actionBy none),
    .entropyCommit { Ts.actionBy (some 0) with commitmentHash := "" },
    .entropyReveal { Ts.actionBy (some 0) with entropy := "" },
    .dealConcealed { Ts.actionBy none with
      concealedCards := (List.range 52).map fun i => ⟨⟨i, "", ""⟩, "", "", "", ""⟩ },
    Ts.revealCard 1, Ts.revealCard 9,
    .betAction { Ts.actionBy (some 0) with betAmount := 5 },
    Ts.revealCard 5, .settle (Ts.actionBy none), .rotateTurn (Ts.actionBy none) ]

/-- The bound is reached at a table for one. -/
theorem session_length_sample :
    ∃ hist state, Ts.Run loneRuleSet (Ts.initialState "g" "" 244) hist state ∧
      (hist.countP fun e => !ends e.1.1.actionType) = 11 ∧
      ((hist.countP fun e => !ends e.1.1.actionType : Nat) : Int) ≤ 9 * max 1 0 + 2 := by
  have hout : (play (fun state input =>
        (Ts.applyAction state input.1 loneRuleSet input.2).value?)
      (Ts.initialState "g" "" 244) (playAlone.map (·, 0))).map
        (fun r => r.1.countP fun e => !ends e.1.1.actionType) = some 11 := by
    decide +kernel
  obtain ⟨r, hplay, hcount⟩ := Option.map_eq_some_iff.mp hout
  have hrun := path_of_play hplay
  simp only [Outcome.value?_eq_some] at hrun
  exact ⟨r.1, r.2, hrun, hcount, (session_length "g" "").1 loneRuleSet 244 r.1 r.2 (.inl rfl) hrun⟩

end CardTable
