import CardTable.Go.Refine
import CardTable.Go.Session
import Mathlib.Data.List.Forall2

/-!
# Go.Concealed — the concealed deck of a game

`applyDealConcealed` puts a complete deck on the table once. From then on
it stays as it was dealt, card by card: a fold flags the concealed cards
of one holder as surrendered, and nothing else writes the deck.
-/

namespace CardTable

/-- What is fixed of a card when it is dealt: all but its lifecycle
state. -/
def ConcealedCard.dealt (c : ConcealedCard) : CardCommitment × String × String × String :=
  (c.cardCommitment, c.ciphertext, c.custodyOutpoint, c.holderPubkey)

/-- What a fold by `holder` makes of a card. -/
structure FoldedCard (holder : String) (c c' : ConcealedCard) : Prop where
  kept : c'.dealt = c.dealt
  held : c.holderPubkey = holder → c.lifecycleState = "ASSIGNED_CONCEALED" →
    c'.lifecycleState = "SURRENDERED"
  other : c.holderPubkey ≠ holder ∨ c.lifecycleState ≠ "ASSIGNED_CONCEALED" →
    c'.lifecycleState = c.lifecycleState

theorem foldedCard_surrender (holder : String) (c : ConcealedCard) :
    FoldedCard holder c (surrender holder c) := by
  by_cases hheld : isHeldConcealed holder c
  · have hboth := hheld
    simp only [isHeldConcealed, Bool.and_eq_true, beq_iff_eq] at hboth
    obtain ⟨hholder, hstate⟩ := hboth
    rw [surrender, if_pos hheld]
    exact ⟨rfl, fun _ _ => rfl, fun hnot => by simp [hholder, hstate] at hnot⟩
  · rw [surrender, if_neg hheld]
    refine ⟨rfl, ?_, fun _ => rfl⟩
    intro hholder hstate
    simp [isHeldConcealed, hholder, hstate] at hheld

namespace Go

open Basis

/-- The cards of the deck; none before a deal. -/
def RoundState.deck (state : RoundState) : List ConcealedCard := state.concealedDeck.getD []

/-- What an accepted action does to a deck on the table: a fold flags
cards of the folding player, any other action leaves the deck. -/
def DeckStep (state : RoundState) (a : SignedAction) (state' : RoundState) : Prop :=
  if a.actionType = .fold then
    ∃ seat idx p, a.actingPlayerSeat = some seat ∧ findSeat state.players seat = some (idx, p) ∧
      List.Forall₂ (FoldedCard p.valueSigningPubkey) state.deck state'.deck
  else state'.deck = state.deck

variable {ruleSet : RuleSet} {height : UInt32} {state state' : RoundState} {a : SignedAction}

/-- One accepted action on a deck that was dealt. -/
theorem deckStep_of_accepts (h : Accepts ruleSet height state a state') (hdealt : state.deck ≠ []) :
    DeckStep state a state' := by
  cases h with
  | dealConcealed _ _ hempty => exact absurd (List.length_eq_zero_iff.mp hempty) hdealt
  | fold hkind _ hseat hfind =>
      rw [DeckStep, if_pos hkind]
      refine ⟨_, _, _, hseat, hfind, ?_⟩
      show List.Forall₂ _ state.deck (state.deck.map _)
      rw [List.forall₂_map_right_iff, List.forall₂_same]
      exact fun c _ => foldedCard_surrender _ c
  | _ hkind =>
      rw [DeckStep, if_neg (by simp [hkind])]
      rfl

/-- A step keeps what was fixed at the deal. -/
theorem DeckStep.dealt (h : DeckStep state a state') :
    state'.deck.map ConcealedCard.dealt = state.deck.map ConcealedCard.dealt := by
  rw [DeckStep] at h
  split at h
  · obtain ⟨_, _, _, _, _, hcards⟩ := h
    generalize state.deck = cards, state'.deck = cards' at hcards
    induction hcards with
    | nil => rfl
    | cons hcard _ ih => rw [List.map_cons, List.map_cons, ih, hcard.kept]
  · rw [h]

/-- A deal puts all positions on the table. -/
theorem perm_of_deal (h : applyAction state a ruleSet height = .ok state')
    (hkind : a.actionType = .dealConcealed) :
    (state'.deck.map (·.cardCommitment.position)).Perm
      ((List.range ruleSet.deckFormat.toNat).map Int.ofNat) := by
  cases (accepts_of_applyAction h).2 with
  | dealConcealed _ _ _ hcount hpositions => exact perm_of_checkPositions hpositions hcount
  | _ hkind' => rw [hkind] at hkind'; cases hkind'

/-- **The rest of a run** after the deal. -/
theorem deck_of_run {dealt : RoundState} {after : List ((SignedAction × UInt32) × RoundState)}
    (hrun : Run ruleSet dealt after state) (hdealt : dealt.deck ≠ []) :
    (∀ step ∈ stepsOf dealt after, DeckStep step.1 step.2.1.1 step.2.2) ∧
      (∀ step ∈ after, step.2.deck.map ConcealedCard.dealt =
        dealt.deck.map ConcealedCard.dealt) ∧
      state.deck.map ConcealedCard.dealt = dealt.deck.map ConcealedCard.dealt := by
  induction hrun with
  | start => simp [stepsOf]
  | @snoc after s s' input hp hs ih =>
      obtain ⟨hsteps, hall, hkept⟩ := ih
      have hne : s.deck ≠ [] := by
        intro hnil
        rw [hnil, List.map_nil, eq_comm, List.map_eq_nil_iff] at hkept
        exact hdealt hkept
      have hstep := deckStep_of_accepts (accepts_of_applyAction hs).2 hne
      have hnext := hstep.dealt.trans hkept
      refine ⟨?_, ?_, hnext⟩
      · rw [hp.stepsOf_snoc]
        exact List.forall_mem_append.mpr ⟨hsteps, List.forall_mem_singleton.mpr hstep⟩
      · exact List.forall_mem_append.mpr ⟨hall, List.forall_mem_singleton.mpr hnext⟩

/-- **The deck is dealt once and then only flagged.** Right after an
accepted deal the positions are those of a deck in some order. Every later
state has the same cards in the same order, and from one state to the next
a card changes its lifecycle state only in a fold by its holder. -/
theorem concealed_deck_frame {gameId ruleSetHash : String} {deadline : UInt32}
    {input : SignedAction × UInt32} {dealt : RoundState}
    {before after : List ((SignedAction × UInt32) × RoundState)}
    (hformat : ruleSet.deckFormat = 52 ∨ ruleSet.deckFormat = 54)
    (hrun : Run ruleSet (initialState gameId ruleSetHash deadline)
      (before ++ (input, dealt) :: after) state)
    (hdeal : input.1.actionType = .dealConcealed) :
    (dealt.deck.map (·.cardCommitment.position)).Perm
        ((List.range ruleSet.deckFormat.toNat).map Int.ofNat) ∧
      (∀ step ∈ after, step.2.deck.map ConcealedCard.dealt =
        dealt.deck.map ConcealedCard.dealt) ∧
      ∀ step ∈ stepsOf dealt after, DeckStep step.1 step.2.1.1 step.2.2 := by
  obtain ⟨_, _, hrest⟩ := hrun.append_inv
  obtain ⟨hs, hafter⟩ := hrest.cons_inv
  have hperm := perm_of_deal hs hdeal
  have hne : dealt.deck ≠ [] := by
    intro hnil
    have hlen := hperm.length_eq
    rw [hnil, List.map_nil, List.length_map, List.length_range, List.length_nil] at hlen
    omega
  obtain ⟨hsteps, hall, -⟩ := deck_of_run hafter hne
  exact ⟨hperm, hall, hsteps⟩

/-- A deal of the whole deck to the two players in turn. -/
def sampleDeal : SignedAction :=
  { bareAction sampleGame .dealConcealed none with
    concealedCards := (List.range 52).map fun n =>
      ⟨⟨n, "", ""⟩, "", "", "02" ++ hex64 (if n % 2 = 0 then 'c' else 'd'), "ASSIGNED_CONCEALED"⟩ }

/-- In the sample game the deck is dealt, two cards are shown and the
second player folds. -/
theorem concealed_deck_frame_sample :
    ∃ before dealt after state,
      Run defaultRuleSet (initialState sampleGame zeroHash 244)
        (before ++ ((sampleDeal, 100), dealt) :: after) state ∧
      state.stateClass = .s11RotateTurn ∧
      (dealt.deck.map (·.cardCommitment.position)).Perm ((List.range 52).map Int.ofNat) ∧
      (∀ step ∈ after, step.2.deck.map ConcealedCard.dealt =
        dealt.deck.map ConcealedCard.dealt) ∧
      ∀ step ∈ stepsOf dealt after, DeckStep step.1 step.2.1.1 step.2.2 := by
  let step := fun (state : RoundState) (input : SignedAction × UInt32) =>
    (applyAction state input.1 defaultRuleSet input.2).toOption
  let shows := [(bareAction sampleGame .cardReveal none, (100 : UInt32)),
    (bareAction sampleGame .cardReveal none, 100), (bareAction sampleGame .fold (some 1), 100)]
  have hout : ((play step (initialState sampleGame zeroHash 244) sampleCalls).bind fun r =>
      (step r.2 (sampleDeal, 100)).bind fun dealt =>
        (play step dealt shows).map fun r => r.2.stateClass) = some .s11RotateTurn := by
    decide +kernel
  obtain ⟨⟨before, s⟩, hbefore, hout⟩ := Option.bind_eq_some_iff.mp hout
  obtain ⟨dealt, hdealt, hout⟩ := Option.bind_eq_some_iff.mp hout
  obtain ⟨⟨after, state⟩, hafter, hclass⟩ := Option.map_eq_some_iff.mp hout
  have hstep : ∀ {s t : RoundState} {input}, step s input = some t → Step defaultRuleSet s input t :=
    except_toOption_eq_some.mp
  have hdeal : Run defaultRuleSet s [((sampleDeal, 100), dealt)] dealt :=
    (Path.start).next _ (hstep hdealt)
  have hrun := ((path_of_play hbefore).mono hstep).trans
    (hdeal.trans ((path_of_play hafter).mono hstep))
  exact ⟨before, dealt, after, state, hrun, hclass, concealed_deck_frame (.inl rfl) hrun rfl⟩

end Go

end CardTable
