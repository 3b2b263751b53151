import CardTable.Go.Reveals
import CardTable.Pace

/-!
# Go.Completion — a committed game can be played to its end

Whether a table can still be closed is a question about what can follow,
not about what has happened. From the deck commitment on the players need
nothing but the deck and their turns: cards are revealed, turns passed
and rotated until the ring has been walked. What can come in between is a
bet, and after a bet only a settlement the engine accepts leads on.
-/

namespace CardTable.Go.Session

open Basis Cards

variable {gameId : String} {ruleSet : RuleSet} {ruleSetHash : String} {recoveryDeadline : UInt32}
  {s s' : Session} {hist : List ((SignedAction × UInt32) × Session)}

/-- The table has been closed: S12, with nothing left to do. -/
def Closed (s : Session) : Prop :=
  s.state.stateClass = .s12TableClose ∧ s.state.allowedActions = []

/-- The settlement of a round is accepted. -/
def Settles (s : Session) : Prop := ∃ next, applySettle s.state s.ruleSet = .ok next

/-- What stands after a bet can be settled: it is being settled, or some
card leads there. -/
def Finishable (s : Session) : Prop :=
  match s.state.stateClass with
  | .s9CardRevealThird => ∃ a height s', a.actionType = .cardReveal ∧
      s.submit a height = .ok s' ∧ s'.Settles
  | .s10SettledRound => s.Settles
  | _ => True

/-! ## Steps the gate does not look at -/

/-- Outside the reveal window the successor is the engine's. -/
theorem submit_of_engine {a : SignedAction} {height : UInt32} {next : RoundState}
    (hclass : s.state.stateClass ≠ .s4EntropyRevealWindow) (hfresh : a.actionNonce ∉ s.seenNonces)
    (hgate : s.verifyCrypto a = .ok ()) (hnext : applyAction s.state a s.ruleSet height = .ok next) :
    ∃ s', s.submit a height = .ok s' ∧ s'.state = next ∧ s'.ruleSet = s.ruleSet := by
  have hbind : bindDeck s.ruleSet s.state next = .ok next := by
    have hnot : ¬Unbound s.state next := fun h => hclass h.1
    rw [bindDeck, if_neg hnot]
  exact ⟨_, submit_eq_ok.mpr ⟨hfresh, hgate, next, next, hnext, hbind, rfl⟩, rfl, rfl⟩

/-- An action of a player who has nothing to prove. -/
def plainAction (s : Session) (kind : ActionType) (nonce : String) : SignedAction :=
  { bareAction s.state.gameId kind none with actionNonce := nonce }

/-- **Every class but S4 lets the engine's own moves through**: a legal
action without cryptography is accepted under some nonce whenever its
handler accepts it. -/
theorem submit_plain (kind : ActionType) (next : RoundState) (height : UInt32)
    (hclass : s.state.stateClass ≠ .s4EntropyRevealWindow)
    (hkind : kind ≠ .entropyCommit ∧ kind ≠ .entropyReveal ∧ kind ≠ .cardReveal)
    (hnext : ∀ nonce, applyAction s.state (s.plainAction kind nonce) s.ruleSet height = .ok next) :
    ∃ a s', a.actionType = kind ∧ s.submit a height = .ok s' ∧ s'.state = next ∧
      s'.ruleSet = s.ruleSet := by
  obtain ⟨nonce, hfresh⟩ := exists_fresh s.seenNonces
  have hgate : s.verifyCrypto (s.plainAction kind nonce) = .ok () := by
    obtain ⟨hcommit, hreveal, hcard⟩ := hkind
    cases kind with
    | entropyCommit => exact absurd rfl hcommit
    | entropyReveal => exact absurd rfl hreveal
    | cardReveal => exact absurd rfl hcard
    | _ => rfl
  obtain ⟨s', hok, hstate, hrules⟩ :=
    submit_of_engine (a := s.plainAction kind nonce) hclass hfresh hgate (hnext nonce)
  exact ⟨_, s', rfl, hok, hstate, hrules⟩

theorem submit_pass (hclass : s.state.stateClass = .s8BetDecision) :
    ∃ a s', s.submit a 0 = .ok s' ∧ s'.state = s.state.advance .s11RotateTurn := by
  obtain ⟨a, s', -, hok, hstate, -⟩ := submit_plain (s := s) .pass (s.state.advance .s11RotateTurn) 0
    (by rw [hclass]; decide) (by decide)
    (fun nonce => by
      simp [applyAction, plainAction, bareAction, hclass, getLegalActions, applyPass])
  exact ⟨a, s', hok, hstate⟩

theorem submit_settle {next : RoundState} (hclass : s.state.stateClass = .s10SettledRound)
    (hsettle : applySettle s.state s.ruleSet = .ok next) :
    ∃ a s', s.submit a 0 = .ok s' ∧ s'.state = next := by
  obtain ⟨a, s', -, hok, hstate, -⟩ := submit_plain (s := s) .settle next 0
    (by rw [hclass]; decide) (by decide)
    (fun nonce => by
      simp [applyAction, plainAction, bareAction, hclass, getLegalActions, hsettle])
  exact ⟨a, s', hok, hstate⟩

theorem submit_tableClose (hclass : s.state.stateClass = .s12TableClose) :
    ∃ a s', s.submit a 0 = .ok s' ∧ s'.Closed := by
  obtain ⟨a, s', -, hok, hstate, -⟩ := submit_plain (s := s) .tableClose
    { s.state with allowedActions := [], priorStateHash := some s.state.stateHash } 0
    (by rw [hclass]; decide) (by decide)
    (fun nonce => by
      simp [applyAction, plainAction, bareAction, hclass, getLegalActions, applyTableClose])
  refine ⟨a, s', hok, ?_, ?_⟩
  · rw [hstate]
    exact hclass
  · rw [hstate]

/-- The turn is passed on: to the next player, or the ring has been
walked. -/
theorem submit_rotate (hclass : s.state.stateClass = .s11RotateTurn)
    (hseated : s.state.players ≠ []) :
    ∃ a s', s.submit a 0 = .ok s' ∧ s'.state.players = s.state.players ∧
      (s'.state.stateClass = .s12TableClose ∨
        s'.state.stateClass = .s6CardRevealFirst ∧
          s'.state.roundNumber = s.state.roundNumber + 1) := by
  have hseats : sortSeats (s.state.players.map (·.seat)) ≠ [] := by
    intro hnil
    have hperm := sortSeats_perm (s.state.players.map (·.seat))
    rw [hnil] at hperm
    exact hseated (List.map_eq_nil_iff.mp hperm.symm.eq_nil)
  have hok : ∃ next, applyRotateTurn s.state = .ok next ∧ next.players = s.state.players ∧
      (next.stateClass = .s12TableClose ∨ next.stateClass = .s6CardRevealFirst ∧
        next.roundNumber = s.state.roundNumber + 1) := by
    simp only [applyRotateTurn, hclass, ne_eq, not_true_eq_false, if_false]
    split
    · rename_i hnil
      exact absurd hnil hseats
    · split
      · exact ⟨_, rfl, rfl, .inl rfl⟩
      · exact ⟨_, rfl, rfl, .inr ⟨rfl, rfl⟩⟩
  obtain ⟨next, hrotate, hplayers, hends⟩ := hok
  obtain ⟨a, s', -, hok, hstate, -⟩ := submit_plain (s := s) .rotateTurn next 0
    (by rw [hclass]; decide) (by decide)
    (fun nonce => by
      simp [applyAction, plainAction, bareAction, hclass, getLegalActions, hrotate])
  rw [← hstate] at hplayers hends
  exact ⟨a, s', hok, hplayers, hends⟩

/-- **A card that is awaited comes**: the first row of the deck can always
be revealed. -/
theorem submit_card (hrun : Run gameId ruleSet ruleSetHash recoveryDeadline hist s)
    (hawaits : AwaitsCard s.state) :
    ∃ a s', a.actionType = .cardReveal ∧ s.submit a 0 = .ok s' := by
  obtain ⟨seed, deck, hdealt⟩ := dealt_of_awaits hrun hawaits
  obtain ⟨ordinal, hfirst⟩ : ∃ ordinal, deck[0]? = some ordinal := by
    cases deck with
    | nil =>
        have hlen := hdealt.shuffled.length_eq
        obtain ⟨-, hsize, -⟩ := buildDeckCommitment_eq_ok_iff.mp hdealt.built
        rw [List.length_range, List.length_nil] at hlen
        omega
    | cons ordinal rest => exact ⟨ordinal, rfl⟩
  obtain ⟨nonce, hfresh⟩ := exists_fresh s.seenNonces
  have hrow : OpensRow ⟨0, ⟨"", "", ordinal⟩, Hex.encode (deriveCardNonce seed 0),
      Hex.encode (deriveDeckNonce seed)⟩ seed deck :=
    ⟨0, ordinal, rfl, hfirst, rfl,
      decodeBytes32_eq_some.mpr ⟨Hex.decode_encode _, Sha256.length_sha256 _⟩,
      decodeBytes32_eq_some.mpr ⟨Hex.decode_encode _, Sha256.length_sha256 _⟩⟩
  obtain ⟨s', hok, -⟩ :=
    hdealt.submit_of_opensRow hrun hawaits (a := revealAction gameId nonce _) 0 rfl rfl hfresh hrow
  exact ⟨_, s', rfl, hok⟩

/-- What a card does to the class; seats and rounds stay. -/
theorem after_card {a : SignedAction} {height : UInt32} (hok : s.submit a height = .ok s')
    (hkind : a.actionType = .cardReveal) :
    (s.state.stateClass = .s5DeckCommitted → s'.state.stateClass = .s6CardRevealFirst) ∧
      (s.state.stateClass = .s6CardRevealFirst → s'.state.stateClass = .s8BetDecision) ∧
      (s.state.stateClass = .s9CardRevealThird → s'.state.stateClass = .s10SettledRound) ∧
      s'.state.players = s.state.players ∧ s'.state.roundNumber = s.state.roundNumber := by
  obtain ⟨_, _, next, final, hnext, hbind, rfl⟩ := submit_eq_ok.mp hok
  obtain ⟨_, haccepts⟩ := accepts_of_applyAction hnext
  obtain ⟨hbare, -⟩ := bindDeck_eq_ok hbind
  have hclass : final.bare.stateClass = next.bare.stateClass := by rw [hbare]
  have hplayers : final.bare.players = next.bare.players := by rw [hbare]
  have hround : final.bare.roundNumber = next.bare.roundNumber := by rw [hbare]
  simp only [bare_stateClass, bare_players, bare_roundNumber] at hclass hplayers hround
  simp only [hclass, hplayers, hround]
  cases haccepts with
  | firstCard _ hat | secondCard _ hat | thirdCard _ hat => simp [hat, RoundState.advance]
  | join hother | tableLock hother | entropyCommit hother | entropyReveal hother
  | dealConcealed hother | bet hother | pass hother | fold hother | settle hother
  | rotate hother | finish hother | tableClose hother | timeout hother | recovery hother =>
      rw [hkind] at hother
      cases hother

/-! ## To the end of the ring -/

/-- The step of an accepted call. -/
theorem reach_of_ok {p : Session → Prop} {a : SignedAction} {height : UInt32}
    (hok : s.submit a height = .ok s') (h : CanReach Step p s') : CanReach Step p s :=
  CanReach.step (a, height) (.inl hok) h

theorem closes_from_close (hclass : s.state.stateClass = .s12TableClose) :
    CanReach Step Closed s := by
  obtain ⟨a, s', hok, hclosed⟩ := submit_tableClose hclass
  exact reach_of_ok hok (.here hclosed)

/-- **The ring can be walked to its end**: every further round is two
calls, a card and a pass, and there are no more rounds than seats. -/
theorem closes_from_rotate {n : Nat}
    (hrun : Run gameId ruleSet ruleSetHash recoveryDeadline hist s)
    (hclass : s.state.stateClass = .s11RotateTurn)
    (hleft : (s.state.players.length : Int) - s.state.roundNumber ≤ n) :
    CanReach Step Closed s := by
  induction n generalizing s hist with
  | zero =>
      have hinv := (sound_of_run hrun).table.phaseInv
      simp only [Table.PhaseInv, RoundState.table, hclass] at hinv
      have hlt := hinv.round_lt
      simp only [List.length_map] at hlt
      omega
  | succ n ih =>
      have hseated : s.state.players ≠ [] := by
        have hinv := (sound_of_run hrun).table.phaseInv
        simp only [Table.PhaseInv, RoundState.table, hclass] at hinv
        obtain ⟨first, x, hhead, -⟩ := hinv
        intro hnil
        simp [hnil] at hhead
      obtain ⟨a₁, s₁, hok₁, hplayers₁, hends⟩ := submit_rotate hclass hseated
      have hrun₁ := hrun.next (a₁, 0) (.inl hok₁)
      refine reach_of_ok hok₁ ?_
      rcases hends with hclose | ⟨h6, hround₁⟩
      · exact closes_from_close hclose
      · -- another round: a card, a pass, and the turn goes on
        obtain ⟨a₂, s₂, hkind₂, hok₂⟩ := submit_card hrun₁ (.inr (.inl h6))
        obtain ⟨-, hto8, -, hplayers₂, hround₂⟩ := after_card hok₂ hkind₂
        obtain ⟨a₃, s₃, hok₃, hstate₃⟩ := submit_pass (hto8 h6)
        have hrun₃ := (hrun₁.next (a₂, 0) (.inl hok₂)).next (a₃, 0) (.inl hok₃)
        refine reach_of_ok hok₂ (reach_of_ok hok₃ (ih hrun₃ ?_ ?_))
        · rw [hstate₃]
          rfl
        · rw [hstate₃]
          show ((s₂.state.players.length : Nat) : Int) - s₂.state.roundNumber ≤ n
          rw [hplayers₂, hplayers₁, hround₂, hround₁]
          omega

theorem closes_from_turn (hrun : Run gameId ruleSet ruleSetHash recoveryDeadline hist s)
    (hclass : s.state.stateClass = .s11RotateTurn) : CanReach Step Closed s :=
  closes_from_rotate (n := (s.state.players.length - s.state.roundNumber).toNat) hrun hclass
    (Int.self_le_toNat _)

theorem closes_from_decision (hrun : Run gameId ruleSet ruleSetHash recoveryDeadline hist s)
    (hclass : s.state.stateClass = .s8BetDecision) : CanReach Step Closed s := by
  obtain ⟨a, s', hok, hstate⟩ := submit_pass hclass
  refine reach_of_ok hok (closes_from_turn (hrun.next (a, 0) (.inl hok)) ?_)
  rw [hstate]
  rfl

theorem closes_from_first (hrun : Run gameId ruleSet ruleSetHash recoveryDeadline hist s)
    (hclass : s.state.stateClass = .s6CardRevealFirst) : CanReach Step Closed s := by
  obtain ⟨a, s', hkind, hok⟩ := submit_card hrun (.inr (.inl hclass))
  exact reach_of_ok hok (closes_from_decision (hrun.next (a, 0) (.inl hok))
    ((after_card hok hkind).2.1 hclass))

theorem closes_from_settlement (hrun : Run gameId ruleSet ruleSetHash recoveryDeadline hist s)
    (hclass : s.state.stateClass = .s10SettledRound) (hsettles : s.Settles) :
    CanReach Step Closed s := by
  obtain ⟨next, hsettle⟩ := hsettles
  obtain ⟨a, s', hok, hstate⟩ := submit_settle hclass hsettle
  refine reach_of_ok hok (closes_from_turn (hrun.next (a, 0) (.inl hok)) ?_)
  -- an accepted settlement leaves the turn to be rotated
  obtain ⟨_, haccepts⟩ := accepts_of_applyAction (show applyAction s.state
    (s.plainAction .settle "") s.ruleSet 0 = .ok next by
      simp [applyAction, plainAction, bareAction, hclass, getLegalActions, hsettle])
  rw [hstate]
  cases haccepts with
  | settle => rfl
  | join hother | tableLock hother | entropyCommit hother | entropyReveal hother
  | firstCard hother | secondCard hother | thirdCard hother | dealConcealed hother | bet hother
  | pass hother | fold hother | rotate hother | finish hother | tableClose hother
  | timeout hother | recovery hother => cases hother

/-- **What can be finished, is.** -/
theorem closes_of_finishable (hrun : Run gameId ruleSet ruleSetHash recoveryDeadline hist s)
    (hphase : deckPhase s.state.stateClass = true) (hfinishable : s.Finishable) :
    CanReach Step Closed s := by
  have hinv := (sound_of_run hrun).table.phaseInv
  cases hclass : s.state.stateClass with
  | s0TableOpen | s1SeatOpen | s2TableLocked | s3EntropyCommitWindow | s4EntropyRevealWindow
  | recovered =>
      rw [hclass] at hphase
      cases hphase
  | s7CardRevealSecond =>
      -- a class no session reaches
      simp only [Table.PhaseInv, RoundState.table, hclass] at hinv
  | s5DeckCommitted =>
      obtain ⟨a, s', hkind, hok⟩ := submit_card hrun (.inl hclass)
      exact reach_of_ok hok (closes_from_first (hrun.next (a, 0) (.inl hok))
        ((after_card hok hkind).1 hclass))
  | s6CardRevealFirst => exact closes_from_first hrun hclass
  | s8BetDecision => exact closes_from_decision hrun hclass
  | s9CardRevealThird =>
      simp only [Finishable, hclass] at hfinishable
      obtain ⟨a, height, s', hkind, hok, hsettles⟩ := hfinishable
      exact reach_of_ok hok (closes_from_settlement (hrun.next (a, height) (.inl hok))
        ((after_card hok hkind).2.2.1 hclass) hsettles)
  | s10SettledRound =>
      simp only [Finishable, hclass] at hfinishable
      exact closes_from_settlement hrun hclass hfinishable
  | s11RotateTurn => exact closes_from_turn hrun hclass
  | s12TableClose => exact closes_from_close hclass

/-! ## No way out -/

/-- A game that is over without having been closed: recovered, or on a
bet that cannot be settled. -/
def Lost (s : Session) : Prop :=
  s.state.stateClass = .recovered ∨
    (s.state.stateClass = .s9CardRevealThird ∨ s.state.stateClass = .s10SettledRound) ∧
      ¬ s.Finishable

theorem settles_of_accepted {a : SignedAction} {height : UInt32} {next : RoundState}
    (hgame : a.gameId = s.state.gameId) (hclass : s.state.stateClass = .s10SettledRound)
    (hkind : a.actionType = .settle) (hnext : applyAction s.state a s.ruleSet height = .ok next) :
    s.Settles := by
  refine ⟨next, ?_⟩
  simpa [applyAction, hgame, hkind, hclass, getLegalActions] using hnext

/-- At S9 only a card or a recovery is accepted, at S10 only the
settlement or a recovery, and nothing but a recovery after one. -/
theorem lost_step {call : SignedAction × UInt32} (h : s.Lost) (hstep : Step s call s') : s'.Lost := by
  rcases hstep with hok | ⟨_, _, rfl⟩
  swap
  · exact h
  have hsubmit := hok
  obtain ⟨_, _, next, final, hnext, hbind, rfl⟩ := submit_eq_ok.mp hok
  obtain ⟨hgame, haccepts⟩ := accepts_of_applyAction hnext
  obtain ⟨hbare, -⟩ := bindDeck_eq_ok hbind
  have hclass : final.bare.stateClass = next.bare.stateClass := by rw [hbare]
  have hrecovered : next.stateClass = .recovered → Lost { s with
      state := final
      seenNonces := call.1.actionNonce :: s.seenNonces
      transcript := s.transcript ++ [call.1]
      heights := s.heights ++ [call.2] } := fun hr => .inl (hclass.trans hr)
  rcases h with hover | ⟨hbet | hshown, hdead⟩
  · cases haccepts with
    | recovery => exact hrecovered rfl
    | fold _ hat =>
        rw [hover] at hat
        rcases hat with hat | hat
        · cases hat
        · cases hat
    | join _ hat | tableLock _ hat | entropyCommit _ hat | entropyReveal _ hat | firstCard _ hat
    | secondCard _ hat | thirdCard _ hat | dealConcealed _ hat | bet _ hat | pass _ hat
    | settle _ hat | rotate _ hat | finish _ hat | tableClose _ hat | timeout _ hat =>
        rw [hover] at hat
        cases hat
  · simp only [Finishable, hbet] at hdead
    cases haccepts with
    | recovery => exact hrecovered rfl
    | thirdCard hkind =>
        right
        refine ⟨.inr hclass, ?_⟩
        have hten : final.stateClass = .s10SettledRound := hclass
        simp only [Finishable, hten]
        exact fun hsettles => hdead ⟨_, _, _, hkind, hsubmit, hsettles⟩
    | fold _ hat =>
        rw [hbet] at hat
        rcases hat with hat | hat
        · cases hat
        · cases hat
    | join _ hat | tableLock _ hat | entropyCommit _ hat | entropyReveal _ hat | firstCard _ hat
    | secondCard _ hat | dealConcealed _ hat | bet _ hat | pass _ hat | settle _ hat
    | rotate _ hat | finish _ hat | tableClose _ hat | timeout _ hat =>
        rw [hbet] at hat
        cases hat
  · simp only [Finishable, hshown] at hdead
    cases haccepts with
    | recovery => exact hrecovered rfl
    | settle hkind =>
        -- the engine has just accepted it
        exact absurd (settles_of_accepted hgame hshown hkind hnext) hdead
    | fold _ hat =>
        rw [hshown] at hat
        rcases hat with hat | hat
        · cases hat
        · cases hat
    | join _ hat | tableLock _ hat | entropyCommit _ hat | entropyReveal _ hat | firstCard _ hat
    | secondCard _ hat | thirdCard _ hat | dealConcealed _ hat | bet _ hat | pass _ hat
    | rotate _ hat | finish _ hat | tableClose _ hat | timeout _ hat =>
        rw [hshown] at hat
        cases hat

/-- **When a game can still be closed.** From the deck commitment on, in
every reachable session, calls that are all accepted lead to a closed
table exactly when no bet stands that cannot be settled: at S9 some card
must lead to a settlement the engine accepts, at S10 it must accept this
one, and in every other class the way is open. -/
theorem closable_iff_finishable (hrun : Run gameId ruleSet ruleSetHash recoveryDeadline hist s)
    (hphase : deckPhase s.state.stateClass = true) :
    CanReach Step Closed s ↔ s.Finishable := by
  constructor
  · intro hreach
    by_contra hdead
    have hlost : s.Lost := by
      right
      refine ⟨?_, hdead⟩
      by_contra hother
      apply hdead
      rw [not_or] at hother
      simp only [Finishable]
      split
      · rename_i h9
        exact absurd h9 hother.1
      · rename_i h10
        exact absurd h10 hother.2
      · trivial
    refine CanReach.not_of_trap hlost lost_step ?_ hreach
    intro t ht hclosed
    rcases ht with hover | ⟨hbet | hshown, -⟩
    · exact absurd (hover.symm.trans hclosed.1) (by decide)
    · exact absurd (hbet.symm.trans hclosed.1) (by decide)
    · exact absurd (hshown.symm.trans hclosed.1) (by decide)
  · exact closes_of_finishable hrun hphase

/-- The sample game can be closed once its deck is committed. -/
theorem closable_iff_finishable_sample :
    ∃ hist s, Run sampleGame defaultRuleSet zeroHash 244 hist s ∧
      s.state.stateClass = .s5DeckCommitted ∧ CanReach Step Closed s := by
  obtain ⟨hist, s, hrun, _, hclass⟩ := sample_run
  have hphase : deckPhase s.state.stateClass = true := by rw [hclass]; rfl
  refine ⟨hist, s, hrun, hclass, (closable_iff_finishable hrun hphase).mpr ?_⟩
  simp [Finishable, hclass]

end CardTable.Go.Session
