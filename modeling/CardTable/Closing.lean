import CardTable.Go.Refine
import CardTable.Ts.Refine

/-!
# Closing — what is accepted after the end

`TableClose` and `Recovery` end a game, and both engines clear
`allowed_actions` there. Neither reads that field: `TableClose` leaves the
class at S12, whose list holds `TableClose`, and `Recovery` is past the
list wherever its deadline is. So an ended game accepts its own end again,
and a closed one can still be recovered.
-/

namespace CardTable

open Basis

/-- The action ends the game. -/
def ends : ActionType → Bool
  | .tableClose | .recovery => true
  | _ => false

/-- The classes an ended game is in. -/
def Ended (sc : StateClass) : Prop := sc = .s12TableClose ∨ sc = .recovered

/-! ## TypeScript -/

namespace Ts

variable {ruleSet : RuleSet} {state state' : RoundState} {action : SignedAction}
  {gameId ruleSetHash : String} {deadline height : SafeNat}
  {hist : List ((SignedAction × SafeNat) × RoundState)}

theorem Accepts.ended (h : Accepts ruleSet height state action state')
    (hend : ends action.actionType = true ∨ Ended state.stateClass) : Ended state'.stateClass := by
  cases h with
  | tableClose hclass => exact .inl hclass
  | recovery => exact .inr rfl
  | entropyCommit hclass | entropyReveal hclass | join hclass | tableLock hclass
  | firstCard hclass | secondCard hclass | thirdCard hclass | dealConcealed hclass | bet hclass
  | pass hclass | settle hclass | rotate hclass | finish hclass | timeout hclass =>
      simp [Ended, hclass, ends, SignedAction.actionType] at hend
  | fold hclass =>
      rcases hclass with hclass | hclass
      · simp [Ended, hclass, ends, SignedAction.actionType] at hend
      · simp [Ended, hclass, ends, SignedAction.actionType] at hend

/-- A game that has ended is at S12 or recovered. -/
theorem ended_of_run (h : Run ruleSet (initialState gameId ruleSetHash deadline) hist state)
    (hend : ∃ e ∈ hist, ends e.1.1.actionType = true) : Ended state.stateClass := by
  refine h.since (K := fun call => ends call.1.actionType = true)
    (I := fun state => Ended state.stateClass) hend ?_
  intro state call state' hstep hbefore
  obtain ⟨_, haccepts⟩ := accepts_of_applyAction hstep
  exact haccepts.ended hbefore

/-- A run keeps the game and its recovery deadline. -/
theorem identity_of_run (h : Run ruleSet (initialState gameId ruleSetHash deadline) hist state) :
    state.gameId = gameId ∧ state.recoveryDeadlineBlockHeight = some deadline ∧
      state.decisionDeadlineBlockHeight = none := by
  refine h.invariant (I := fun s => s.gameId = gameId ∧
    s.recoveryDeadlineBlockHeight = some deadline ∧ s.decisionDeadlineBlockHeight = none)
    ⟨rfl, rfl, rfl⟩ ?_
  intro s input s' hs hstep
  obtain ⟨_, haccepts⟩ := accepts_of_applyAction hstep
  obtain ⟨hgame, hrecovery, hdecision⟩ := haccepts.keepsIdentity
  exact ⟨hgame.trans hs.1, hrecovery.trans hs.2.1, hdecision.trans hs.2.2⟩

/-- **What an ended game accepts**: `TableClose` at S12, and `Recovery`
from its deadline on. -/
theorem accepted_after_end (hended : Ended state.stateClass)
    (hrecovery : state.recoveryDeadlineBlockHeight = some deadline) :
    (∃ state', Step ruleSet state (action, height) state') ↔
      action.base.gameId = state.gameId ∧
        (action.actionType = .tableClose ∧ state.stateClass = .s12TableClose ∨
          action.actionType = .recovery ∧ deadline.val ≤ height.val) := by
  constructor
  · intro h
    obtain ⟨state', hstep⟩ := h
    obtain ⟨hgame, haccepts⟩ := accepts_of_applyAction hstep
    refine ⟨hgame, ?_⟩
    cases haccepts with
    | tableClose hclass => exact .inl ⟨rfl, hclass⟩
    | recovery hdeadline hdue =>
        cases hrecovery.symm.trans hdeadline
        exact .inr ⟨rfl, hdue⟩
    | entropyCommit hclass | entropyReveal hclass | join hclass | tableLock hclass
    | firstCard hclass | secondCard hclass | thirdCard hclass | dealConcealed hclass | bet hclass
    | pass hclass | settle hclass | rotate hclass | finish hclass | timeout hclass =>
        simp [Ended, hclass] at hended
    -- `Fold` names two classes, neither of them an end
    | fold hclass =>
        rcases hclass with hclass | hclass
        · simp [Ended, hclass] at hended
        · simp [Ended, hclass] at hended
  · intro h
    obtain ⟨hgame, ⟨hkind, hclass⟩ | ⟨hkind, hdue⟩⟩ := h
    · cases action with
      | tableClose a =>
          simp [Step, applyAction, hgame, SignedAction.actionType, hclass, getLegalActions,
            applyTableClose]
      | _ => cases hkind
    · cases action with
      | recovery a =>
          have hdue : ¬height.val < deadline.val := by omega
          simp [Step, applyAction, hgame, SignedAction.actionType, applyRecovery, hrecovery, hdue]
      | _ => cases hkind

end Ts

/-! ## Go -/

namespace Go

variable {ruleSet : RuleSet} {state state' : RoundState} {action : SignedAction}
  {gameId ruleSetHash : String} {deadline height : UInt32}
  {hist : List ((SignedAction × UInt32) × RoundState)}

theorem Accepts.ended (h : Accepts ruleSet height state action state')
    (hend : ends action.actionType = true ∨ Ended state.stateClass) : Ended state'.stateClass := by
  cases h with
  | tableClose _ hclass => exact .inl hclass
  | recovery => exact .inr rfl
  | fold hkind hclass =>
      rcases hclass with hclass | hclass
      · simp [Ended, hclass, ends, hkind] at hend
      · simp [Ended, hclass, ends, hkind] at hend
  | _ hkind hclass => simp [Ended, hclass, ends, hkind] at hend

/-- A game that has ended is at S12 or recovered. -/
theorem ended_of_run (h : Run ruleSet (initialState gameId ruleSetHash deadline) hist state)
    (hend : ∃ e ∈ hist, ends e.1.1.actionType = true) : Ended state.stateClass := by
  refine h.since (K := fun call => ends call.1.actionType = true)
    (I := fun state => Ended state.stateClass) hend ?_
  intro state call state' hstep hbefore
  obtain ⟨_, haccepts⟩ := accepts_of_applyAction hstep
  exact haccepts.ended hbefore

/-- A run keeps the game and its recovery deadline. -/
theorem identity_of_run (h : Run ruleSet (initialState gameId ruleSetHash deadline) hist state) :
    state.gameId = gameId ∧ state.recoveryDeadlineBlockHeight = some deadline := by
  refine h.invariant (I := fun s => s.gameId = gameId ∧
    s.recoveryDeadlineBlockHeight = some deadline) ⟨rfl, rfl⟩ ?_
  intro s input s' hs hstep
  obtain ⟨_, haccepts⟩ := accepts_of_applyAction hstep
  obtain ⟨hgame, hrecovery, _⟩ := haccepts.keepsIdentity
  exact ⟨hgame.trans hs.1, hrecovery.trans hs.2⟩

/-- **What an ended game accepts**: `TableClose` at S12, and `Recovery`
from its deadline on. -/
theorem accepted_after_end (hended : Ended state.stateClass)
    (hrecovery : state.recoveryDeadlineBlockHeight = some deadline) :
    (∃ state', Step ruleSet state (action, height) state') ↔
      action.gameId = state.gameId ∧
        (action.actionType = .tableClose ∧ state.stateClass = .s12TableClose ∨
          action.actionType = .recovery ∧ deadline ≤ height) := by
  constructor
  · intro h
    obtain ⟨state', hstep⟩ := h
    obtain ⟨hgame, haccepts⟩ := accepts_of_applyAction hstep
    refine ⟨hgame, ?_⟩
    cases haccepts with
    | tableClose hkind hclass => exact .inl ⟨hkind, hclass⟩
    | recovery hkind hdeadline hdue =>
        cases hrecovery.symm.trans hdeadline
        exact .inr ⟨hkind, UInt32.not_lt.mp hdue⟩
    | fold _ hclass =>
        rcases hclass with hclass | hclass
        · simp [Ended, hclass] at hended
        · simp [Ended, hclass] at hended
    | _ _ hclass => simp [Ended, hclass] at hended
  · intro h
    obtain ⟨hgame, ⟨hkind, hclass⟩ | ⟨hkind, hdue⟩⟩ := h
    · simp [Step, applyAction, hgame, hkind, hclass, getLegalActions, applyTableClose]
    · have hdue : ¬height < deadline := UInt32.not_lt.mpr hdue
      simp [Step, applyAction, hgame, hkind, applyRecovery, hrecovery, hdue]

end Go

/-! ## Both engines -/

/-- **Closing and recovery are never final.** In every run in which a
`TableClose` or a `Recovery` was accepted some action is still accepted:
exactly a `TableClose` of the game while it is at S12, and a `Recovery`
of the game from the recovery deadline on. -/
theorem accepted_after_closing (gameId ruleSetHash : String) :
    (∀ ruleSet deadline hist state,
      Ts.Run ruleSet (Ts.initialState gameId ruleSetHash deadline) hist state →
      (∃ e ∈ hist, ends e.1.1.actionType = true) →
      (∃ action height state', Ts.Step ruleSet state (action, height) state') ∧
      ∀ action height, (∃ state', Ts.Step ruleSet state (action, height) state') ↔
        action.base.gameId = gameId ∧
          (action.actionType = .tableClose ∧ state.stateClass = .s12TableClose ∨
            action.actionType = .recovery ∧ deadline.val ≤ height.val)) ∧
    (∀ ruleSet deadline hist state,
      Go.Run ruleSet (Go.initialState gameId ruleSetHash deadline) hist state →
      (∃ e ∈ hist, ends e.1.1.actionType = true) →
      (∃ action height state', Go.Step ruleSet state (action, height) state') ∧
      ∀ action height, (∃ state', Go.Step ruleSet state (action, height) state') ↔
        action.gameId = gameId ∧
          (action.actionType = .tableClose ∧ state.stateClass = .s12TableClose ∨
            action.actionType = .recovery ∧ deadline ≤ height)) := by
  constructor
  · intro ruleSet deadline hist state hrun hend
    obtain ⟨hgame, hrecovery, _⟩ := Ts.identity_of_run hrun
    have hafter : ∀ action height, (∃ state', Ts.Step ruleSet state (action, height) state') ↔ _ :=
      fun action height => Ts.accepted_after_end (Ts.ended_of_run hrun hend) hrecovery
    rw [hgame] at hafter
    refine ⟨?_, hafter⟩
    -- at its deadline the recovery is there whatever the class
    let base : Ts.SignedActionBase := { Ts.actionBy none with gameId := gameId }
    exact ⟨.recovery ⟨base, ""⟩, deadline, (hafter _ _).mpr ⟨rfl, .inr ⟨rfl, Nat.le_refl _⟩⟩⟩
  · intro ruleSet deadline hist state hrun hend
    obtain ⟨hgame, hrecovery⟩ := Go.identity_of_run hrun
    have hafter : ∀ action height, (∃ state', Go.Step ruleSet state (action, height) state') ↔ _ :=
      fun action height => Go.accepted_after_end (Go.ended_of_run hrun hend) hrecovery
    rw [hgame] at hafter
    refine ⟨?_, hafter⟩
    -- the same recovery, as Go writes it
    exact ⟨Go.bareAction gameId .recovery none, deadline,
      (hafter _ _).mpr ⟨rfl, .inr ⟨rfl, UInt32.le_refl _⟩⟩⟩

/-- A fresh table is recovered at its deadline, and recovered again. -/
theorem recovered_twice :
    ¬∀ (ruleSet : Ts.RuleSet) (gameId ruleSetHash : String) (deadline : SafeNat)
      (hist : List ((Ts.SignedAction × SafeNat) × Ts.RoundState)) (state : Ts.RoundState),
      Ts.Run ruleSet (Ts.initialState gameId ruleSetHash deadline) hist state →
      (∃ e ∈ hist, ends e.1.1.actionType = true) →
        ∀ action height state', ¬Ts.Step ruleSet state (action, height) state' := by
  intro hclaim
  let recovery : Ts.SignedAction := .recovery ⟨Ts.actionBy none, ""⟩
  let start := Ts.initialState "g" "" 244
  let recovered : Ts.RoundState :=
    { start with
      stateClass := .recovered, allowedActions := [], priorStateHash := some start.stateHash }
  have hfirst : Ts.Step Ts.defaultRuleSet start (recovery, 244) recovered := rfl
  have hsecond : Ts.Step Ts.defaultRuleSet recovered (recovery, 244)
      { recovered with priorStateHash := some recovered.stateHash } := rfl
  have hrun := Path.snoc (.start : Ts.Run Ts.defaultRuleSet start [] start) hfirst
  exact hclaim _ _ _ _ _ _ hrun ⟨_, List.mem_singleton_self _, rfl⟩ _ _ _ hsecond

end CardTable
