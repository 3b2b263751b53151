import CardTable.Go.Refine
import CardTable.Go.Replay

/-!
# Go.Reach — what every session keeps

`Go.Replay` follows the deck commitment through a session; here is the
rest that holds after every run of `Submit` calls: the state is of the
session's game, the table is well formed, a concealed deck is never
empty, no decision deadline is ever set, and a deck that was committed
has one of the two supported sizes.
-/

namespace CardTable.Go.Session

open Basis Cards

/-- The facts a run keeps besides `Tracks`. -/
structure Sound (s : Session) : Prop where
  game : s.state.gameId = s.gameId
  table : s.state.table.WF
  concealed : s.state.concealedDeck ≠ some []
  decision : s.state.decisionDeadlineBlockHeight = none
  format : AllRevealed s.state.players →
    s.ruleSet.deckFormat = 52 ∨ s.ruleSet.deckFormat = 54

/-- A deal is complete and a fold keeps every card. -/
theorem concealed_of_accepts {ruleSet : RuleSet} {height : UInt32} {state state' : RoundState}
    {a : SignedAction} (h : Accepts ruleSet height state a state')
    (hdeck : state.concealedDeck ≠ some [])
    (hformat : state.stateClass = .s5DeckCommitted → 0 < ruleSet.deckFormat) :
    state'.concealedDeck ≠ some [] := by
  cases h with
  | dealConcealed hkind hclass hdealt hcount =>
      have hpos := hformat hclass
      intro hempty
      have hnil : a.concealedCards = [] := Option.some.inj hempty
      rw [hnil] at hcount
      simp only [List.length_nil] at hcount
      omega
  | fold hkind hclass _ hfind hdealt =>
      intro hempty
      have hnil := List.map_eq_nil_iff.mp (Option.some.inj hempty)
      simp [sliceLen, hnil] at hdealt
  | _ => exact hdeck

variable {gameId : String} {ruleSet : RuleSet} {ruleSetHash : String} {recoveryDeadline : UInt32}
  {s s' : Session} {call : SignedAction × UInt32}

theorem sound_new : Sound (new gameId ruleSet ruleSetHash recoveryDeadline) where
  game := rfl
  table := Table.wf_initial
  concealed := by simp [new, initialState]
  decision := rfl
  format := by simp [AllRevealed, new, initialState]

/-- One accepted call keeps `Sound`. -/
theorem Sound.submit (h : Sound s)
    (htracks : Tracks gameId ruleSet ruleSetHash recoveryDeadline s)
    (hok : s.submit call.1 call.2 = .ok s') : Sound s' := by
  obtain ⟨_, _, next, final, hnext, hbind, rfl⟩ := submit_eq_ok.mp hok
  obtain ⟨_, haccepts⟩ := accepts_of_applyAction hnext
  obtain ⟨_, hall⟩ := haccepts.reveals htracks.reveals
  obtain ⟨hbare, _⟩ := bindDeck_eq_ok hbind
  have htable : final.bare.table = next.bare.table := by rw [hbare]
  have hconcealed : final.bare.concealedDeck = next.bare.concealedDeck := by rw [hbare]
  have hdecision : final.bare.decisionDeadlineBlockHeight =
      next.bare.decisionDeadlineBlockHeight := by rw [hbare]
  have hplayers : final.bare.players = next.bare.players := by rw [hbare]
  have hgame : final.bare.gameId = next.bare.gameId := by rw [hbare]
  refine ⟨?_, ?_, ?_, ?_, ?_⟩
  · show final.bare.gameId = s.gameId
    rw [hgame, ← h.game]
    exact haccepts.keepsIdentity.1
  · have hstep : Go.Step s.ruleSet s.state call next := hnext
    have hwf := h.table.step (table_step h.table hstep)
    exact htable ▸ hwf
  · show final.bare.concealedDeck ≠ some []
    rw [hconcealed]
    apply concealed_of_accepts haccepts h.concealed
    intro hclass
    have hrevealed : AllRevealed s.state.players := by
      have := htracks.reveals
      rwa [hclass] at this
    rcases h.format hrevealed with hsize | hsize
    · omega
    · omega
  · show final.bare.decisionDeadlineBlockHeight = none
    rw [hdecision]
    exact haccepts.keepsIdentity.2.2.trans h.decision
  · intro hrevealed
    replace hrevealed : AllRevealed final.bare.players := hrevealed
    rw [hplayers, bare_players, hall] at hrevealed
    rcases hrevealed with hrevealed | hstep
    · exact h.format hrevealed
    · -- the deck has just been built
      have hunbound := (htracks.unbound_iff haccepts.keepsDeck.1).mpr hstep
      simp only [bindDeck, hunbound, if_true] at hbind
      obtain ⟨_, dc, _, _, hdc, _⟩ := materialise_eq_ok hbind
      exact (buildDeckCommitment_eq_ok_iff.mp hdc).2.1

/-- **Every run keeps `Sound`.** -/
theorem sound_of_run {hist : List ((SignedAction × UInt32) × Session)}
    (h : Run gameId ruleSet ruleSetHash recoveryDeadline hist s) : Sound s := by
  refine h.invariant_of (I := Tracks gameId ruleSet ruleSetHash recoveryDeadline) tracks_new
    sound_new ?_ ?_
  · intro s call s' htracks hstep
    rcases hstep with hok | ⟨_, _, rfl⟩
    · exact htracks.submit hok
    · exact htracks
  · intro s call s' htracks hsound hstep
    rcases hstep with hok | ⟨_, _, rfl⟩
    · exact hsound.submit htracks hok
    · exact hsound

end CardTable.Go.Session
