import CardTable.Go.Reopen

/-!
# Go.Faces — the face shown and the ordinal committed

A revealed card carries a rank, a suit and an ordinal. The gate opens the
commitment of a deck position with the ordinal alone; the engine puts the
record on the table as it came in the action. What a player is shown is
the card that was committed as long as every reveal was honest about it.
-/

namespace CardTable.Go

open Basis

def suitsInOrder : List String := ["clubs", "diamonds", "hearts", "spades"]

def ranksInOrder : List String :=
  ["2", "3", "4", "5", "6", "7", "8", "9", "10", "J", "Q", "K", "A"]

/-- `CardFromOrdinal`. -/
def cardFromOrdinal (ordinal : Int) : Except String RevealedCard :=
  if ordinal < 0 ∨ 51 < ordinal then
    .error s!"CardFromOrdinal: ordinal out of 52-card range: {ordinal}"
  else .ok ⟨ranksInOrder.getD (ordinal % 13).toNat "", suitsInOrder.getD (ordinal / 13).toNat "",
    ordinal⟩

/-- The rank and the suit are those of the ordinal. -/
def ShowsOrdinal (card : RevealedCard) : Prop := cardFromOrdinal card.ordinal = .ok card

instance (card : RevealedCard) : Decidable (ShowsOrdinal card) := by
  unfold ShowsOrdinal
  infer_instance

/-- Two cards of one ordinal do not both show it. -/
theorem ShowsOrdinal.unique {c d : RevealedCard} (hc : ShowsOrdinal c) (hd : ShowsOrdinal d)
    (h : c.ordinal = d.ordinal) : c = d := by
  rw [ShowsOrdinal, h] at hc
  exact Except.ok.inj (hc.symm.trans hd)

/-- A reveal adds its card to the table; anything else leaves the cards
or, at the end of a round, takes them away. -/
theorem Accepts.visible {ruleSet : RuleSet} {height : UInt32} {state state' : RoundState}
    {a : SignedAction} (h : Accepts ruleSet height state a state') :
    if a.actionType = .cardReveal then
      state'.visibleCards = state.visibleCards ++ [a.reveal.revealedCard]
    else state'.visibleCards = state.visibleCards ∨ state'.visibleCards = [] := by
  cases h with
  | firstCard hkind | secondCard hkind | thirdCard hkind => rw [if_pos hkind]
  | rotate hkind =>
      rw [if_neg (by simp [hkind])]
      exact .inr rfl
  | _ hkind =>
      rw [if_neg (by simp [hkind])]
      exact .inl rfl

namespace Session

/-- Every card on the table shows its ordinal. -/
def FacesCommitted (s : Session) : Prop := ∀ c ∈ s.state.visibleCards, ShowsOrdinal c

/-- **The condition on a step**: a reveal that is accepted shows the
ordinal it opens. -/
def HonestFace (step : Session × (SignedAction × UInt32) × Session) : Prop :=
  step.1.submit step.2.1.1 step.2.1.2 = .ok step.2.2 → step.2.1.1.actionType = .cardReveal →
    ShowsOrdinal step.2.1.1.reveal.revealedCard

variable {gameId : String} {ruleSet : RuleSet} {ruleSetHash : String} {recoveryDeadline : UInt32}
  {s s' : Session} {call : SignedAction × UInt32}
  {hist : List ((SignedAction × UInt32) × Session)}

theorem visible_submit (hok : s.submit call.1 call.2 = .ok s') :
    if call.1.actionType = .cardReveal then
      s'.state.visibleCards = s.state.visibleCards ++ [call.1.reveal.revealedCard]
    else s'.state.visibleCards = s.state.visibleCards ∨ s'.state.visibleCards = [] := by
  obtain ⟨_, _, next, final, hnext, hbind, rfl⟩ := submit_eq_ok.mp hok
  obtain ⟨_, haccepts⟩ := accepts_of_applyAction hnext
  have hshown : final.bare.visibleCards = next.bare.visibleCards := by
    rw [(bindDeck_eq_ok hbind).1]
  rw [bare_visibleCards, bare_visibleCards] at hshown
  simp only [hshown]
  exact haccepts.visible

/-- One call keeps the faces exactly when it shows none, or an honest
one. -/
theorem facesCommitted_step (h : s.FacesCommitted) (hstep : Step s call s') :
    s'.FacesCommitted ↔ HonestFace (s, call, s') := by
  rcases hstep with hok | ⟨e, herr, rfl⟩
  · have hvisible := visible_submit hok
    split at hvisible
    · rename_i hkind
      have hall : s'.FacesCommitted ↔ ShowsOrdinal call.1.reveal.revealedCard := by
        rw [FacesCommitted, hvisible, List.forall_mem_append, List.forall_mem_singleton]
        exact and_iff_right h
      exact hall.trans ⟨fun hface _ _ => hface, fun hhonest => hhonest hok hkind⟩
    · rename_i hkind
      refine iff_of_true ?_ (fun _ hreveal => absurd hreveal hkind)
      rcases hvisible with heq | hnil
      · rw [FacesCommitted, heq]
        exact h
      · simp [FacesCommitted, hnil]
  · refine iff_of_true h fun hok => ?_
    cases herr.symm.trans hok

/-- **The card shown is the card committed** in every state of a run
exactly when every reveal it accepted shows its ordinal. -/
theorem faces_committed_iff (hrun : Run gameId ruleSet ruleSetHash recoveryDeadline hist s) :
    (∀ step ∈ hist, step.2.FacesCommitted) ↔
      ∀ step ∈ stepsOf (new gameId ruleSet ruleSetHash recoveryDeadline) hist,
        HonestFace step := by
  have hboth : ((∀ step ∈ hist, step.2.FacesCommitted) ↔
      ∀ step ∈ stepsOf (new gameId ruleSet ruleSetHash recoveryDeadline) hist, HonestFace step) ∧
      ((∀ step ∈ hist, step.2.FacesCommitted) → s.FacesCommitted) := by
    induction hrun with
    | start => simp [stepsOf, FacesCommitted, new, initialState]
    | @snoc hist s s' call hp hs ih =>
        obtain ⟨hiff, hlast⟩ := ih
        rw [hp.stepsOf_snoc, List.forall_mem_append, List.forall_mem_append,
          List.forall_mem_singleton, List.forall_mem_singleton, ← hiff]
        exact ⟨and_congr_right fun hall => facesCommitted_step (hlast hall) hs, fun h => h.2⟩
  exact hboth.1

/-- The sample game shows no card yet; the next reveal decides. -/
theorem faces_committed_sample :
    ∃ hist s, Run sampleGame defaultRuleSet zeroHash 244 hist s ∧
      ((∀ step ∈ hist, step.2.FacesCommitted) ↔
        ∀ step ∈ stepsOf (new sampleGame defaultRuleSet zeroHash 244) hist, HonestFace step) := by
  obtain ⟨hist, s, hrun, -, -⟩ := sample_run
  exact ⟨hist, s, hrun, faces_committed_iff hrun⟩

/-! ## A card under a false face -/

/-- The gate reads of a card its ordinal. -/
theorem checkCardReveal_face {a b : SignedAction} (hposition : b.reveal.position = a.reveal.position)
    (hordinal : b.reveal.revealedCard.ordinal = a.reveal.revealedCard.ordinal)
    (hcard : b.reveal.cardNonce = a.reveal.cardNonce)
    (hdeck : b.reveal.deckNonce = a.reveal.deckNonce) :
    s.checkCardReveal b = s.checkCardReveal a := by
  simp only [checkCardReveal, hposition, hordinal, hcard, hdeck]

/-- In the sample game the card of the first position is shown with a rank
and a suit that are not its own. -/
theorem face_forged :
    ¬∀ (gameId : String) (ruleSet : RuleSet) (ruleSetHash : String) (recoveryDeadline : UInt32)
      (hist : List ((SignedAction × UInt32) × Session)) (s : Session),
      ruleSet.deckFormat = 52 → Run gameId ruleSet ruleSetHash recoveryDeadline hist s →
        s.FacesCommitted := by
  intro hclaim
  obtain ⟨hist, s, hrun, hall, hclass⟩ := sample_run
  obtain ⟨reveal, hpasses⟩ := checkCardReveal_first ((backed_of_run hrun).deck hall)
  obtain ⟨nonce, hfresh⟩ := exists_fresh s.seenNonces
  -- whatever the card is, it is shown under any name
  have hshown : ∀ rank suit, ShowsOrdinal ⟨rank, suit, reveal.revealedCard.ordinal⟩ := by
    intro rank suit
    let forged : RevealProof :=
      { reveal with revealedCard := ⟨rank, suit, reveal.revealedCard.ordinal⟩ }
    have hgate : s.checkCardReveal (revealAction s.state.gameId nonce forged) = .ok () :=
      (checkCardReveal_face rfl rfl rfl rfl).trans
        (hpasses (revealAction s.state.gameId nonce reveal) rfl)
    obtain ⟨s', hok, -, -⟩ := submit_cardReveal 100 (.inl hclass)
      (show (revealAction s.state.gameId nonce forged).actionType = .cardReveal from rfl) rfl
      hfresh hgate
    have hstep : Step s (revealAction s.state.gameId nonce forged, 100) s' := .inl hok
    have hvisible : s'.state.visibleCards = s.state.visibleCards ++ [forged.revealedCard] :=
      @visible_submit s s' (revealAction s.state.gameId nonce forged, 100) hok
    refine hclaim _ _ _ _ _ _ rfl (hrun.snoc hstep) forged.revealedCard ?_
    rw [hvisible]
    exact List.mem_append_right _ (List.mem_singleton_self _)
  have hsame := (hshown "A" "spades").unique (hshown "2" "clubs") rfl
  simp at hsame

end Session

end CardTable.Go
