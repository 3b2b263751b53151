import CardTable.Go.Reveals
import CardTable.Commitments

/-!
# Go.Sealed — the commitments settle the deck

Once the last commitment is in, nobody can choose any more. What may
still differ from one run to another is the order of the entropies, who
withholds his, and everything that follows; the deck, where there comes
to be one, is the same in all of them, as long as SHA-256 does not
collide on what was hashed for the entropies.
-/

namespace CardTable.Go.Session

open Basis Cards

variable {gameId : String} {ruleSet : RuleSet} {ruleSetHash : String} {recoveryDeadline : UInt32}
  {s s' t t' : Session} {hist rest rest' : List ((SignedAction × UInt32) × Session)}

/-- What a contribution has settled before its entropy is in. -/
def Contribution.sealing (c : Contribution) : Int × String × String :=
  (c.seat, c.pubkey, c.commitment)

/-- What the gate hashes for an entropy that is in. -/
def Contribution.hashed (gameId : String) (c : Contribution) : List UInt8 :=
  revealPreimage c.entropy c.pubkey gameId

/-- No more seats and no more commitments are taken. -/
def CommitsOver (s : Session) : Prop :=
  s.state.stateClass ≠ .s1SeatOpen ∧ s.state.stateClass ≠ .s3EntropyCommitWindow

/-! ## Steps -/

/-- No action goes back to the seats or to the commitments. -/
theorem commitsOver_of_accepts {height : UInt32} {state state' : RoundState} {a : SignedAction}
    (h : Accepts ruleSet height state a state')
    (hover : state.stateClass ≠ .s1SeatOpen ∧ state.stateClass ≠ .s3EntropyCommitWindow) :
    state'.stateClass ≠ .s1SeatOpen ∧ state'.stateClass ≠ .s3EntropyCommitWindow := by
  obtain ⟨hseats, hcommits⟩ := hover
  cases h with
  | join _ hat | tableLock _ hat => exact absurd hat hseats
  | entropyCommit _ hat => exact absurd hat hcommits
  | entropyReveal _ _ _ _ _ hnext =>
      simp only [RoundState.advance, hnext]
      split
      · simp
      · simp
  | dealConcealed _ hat | tableClose _ hat => simp [hat]
  | _ => simp [RoundState.advance]

/-- **A seal stays**: after the commitments a call changes entropies
alone. -/
theorem CommitsOver.submit {call : SignedAction × UInt32} (h : CommitsOver s)
    (hok : s.submit call.1 call.2 = .ok s') :
    CommitsOver s' ∧ (contributions s'.state).map (·.sealing) =
      (contributions s.state).map (·.sealing) := by
  obtain ⟨_, _, next, final, hnext, hbind, rfl⟩ := submit_eq_ok.mp hok
  obtain ⟨_, haccepts⟩ := accepts_of_applyAction hnext
  obtain ⟨hbare, -⟩ := bindDeck_eq_ok hbind
  have hclass : final.bare.stateClass = next.bare.stateClass := by rw [hbare]
  simp only [bare_stateClass] at hclass
  constructor
  · simp only [CommitsOver, hclass]
    exact commitsOver_of_accepts haccepts h
  · show (contributions final).map _ = _
    rw [contributions_bindDeck hbind]
    have hstep := contributes_of_accepts haccepts
    generalize contributions next = after at hstep
    cases hstep with
    | join hat => exact absurd hat h.1
    | commit hat => exact absurd hat h.2
    | @reveal seat idx p _ _ _ hfind =>
        have hget : (contributions s.state)[idx]? = some (contribution p) := by
          rw [contributions, List.getElem?_map, findSeat_getElem? hfind]
          rfl
        exact map_set_of_eq hget rfl
    | same => rfl

theorem seal_of_path (h : CommitsOver s) (hrest : Path Step s rest t) :
    (contributions t.state).map (·.sealing) = (contributions s.state).map (·.sealing) := by
  have hkept : CommitsOver t ∧ (contributions t.state).map (·.sealing) =
      (contributions s.state).map (·.sealing) := by
    refine hrest.invariant (I := fun u => CommitsOver u ∧
      (contributions u.state).map (·.sealing) = (contributions s.state).map (·.sealing))
      ⟨h, rfl⟩ ?_
    intro u call u' hu hstep
    rcases hstep with hok | ⟨_, _, rfl⟩
    · obtain ⟨hover, hseal⟩ := hu.1.submit hok
      exact ⟨hover, hseal.trans hu.2⟩
    · exact hu
  exact hkept.2

/-! ## Two openings of one seal -/

/-- The hash of an entropy that verifies is its commitment. -/
theorem Contribution.Verifies.hashes {c : Contribution} (h : c.Verifies gameId) :
    ∃ entropy key game : Bytes32, decodeBytes32 c.entropy = some entropy.1 ∧
      c.hashed gameId = (HashUse.entropyCommitment entropy key game).preimage ∧
      Hex.decode c.commitment = some (Sha256.sha256 (c.hashed gameId)) := by
  obtain ⟨commitment, entropy, key, game, hcommitment, hentropy, hkey, hlong, hgame, hopens⟩ := h
  obtain ⟨hentropyHex, hentropyLen⟩ := decodeBytes32_eq_some.mp hentropy
  obtain ⟨hgameHex, hgameLen⟩ := decodeBytes32_eq_some.mp hgame
  have hkeyLen : (playerIdOf key).length = 32 := by
    rw [playerIdOf, List.length_drop]
    omega
  have hhashed : c.hashed gameId = entropyPreimage entropy (playerIdOf key) game := by
    rw [Contribution.hashed, revealPreimage, bytesOf_of_decode hentropyHex,
      bytesOf_of_decode hkey, bytesOf_of_decode hgameHex]
  refine ⟨⟨entropy, hentropyLen⟩, ⟨_, hkeyLen⟩, ⟨game, hgameLen⟩, hentropy, hhashed, ?_⟩
  have hverified : verifyEntropyReveal commitment entropy (playerIdOf key) game = .ok true := hopens
  rw [verifyEntropyReveal, commitEntropy_eq_ok hentropyLen hkeyLen hgameLen] at hverified
  have hequal : entropyCommitment entropy (playerIdOf key) game = commitment := by
    simpa using hverified
  rw [hcommitment, hhashed, ← hequal, entropyCommitment_eq]

/-- **Two entropies that open one commitment are one**, unless their
preimages collide. -/
theorem decode_entropy_of_seal {hashed : Set (List UInt8)} (hinj : Set.InjOn Sha256.sha256 hashed)
    {c d : Contribution} (hseal : c.sealing = d.sealing) (hc : c.Verifies gameId)
    (hd : d.Verifies gameId) (hcin : c.hashed gameId ∈ hashed) (hdin : d.hashed gameId ∈ hashed) :
    decodeBytes32 c.entropy = decodeBytes32 d.entropy := by
  obtain ⟨e, k, g, hentropy, huse, hcommitment⟩ := hc.hashes
  obtain ⟨e', k', g', hentropy', huse', hcommitment'⟩ := hd.hashes
  have hsame : c.commitment = d.commitment := congrArg (·.2.2) hseal
  rw [hsame, hcommitment', Option.some.injEq] at hcommitment
  have hpreimage := hinj hdin hcin hcommitment
  rw [huse, huse'] at hpreimage
  have hinputs := preimage_injective hpreimage
  injection hinputs with hentropies
  rw [hentropy, hentropy', hentropies]

/-- **The deck is that of the decoded entropies**: contributions with the
same seats and entropies in the same places make one deck, however the
hex is written. -/
theorem deckOf_of_decoded {cs ds : List Contribution}
    {combined combined' deckHash deckHash' : String} (h : DeckOf ruleSet cs combined deckHash)
    (h' : DeckOf ruleSet ds combined' deckHash') (hseats : (cs.map (·.seat)).Nodup)
    (hsame : cs.map (fun c => (c.seat, decodeBytes32 c.entropy)) =
      ds.map (fun c => (c.seat, decodeBytes32 c.entropy))) :
    combined = combined' ∧ deckHash = deckHash' := by
  obtain ⟨ring, entropies, seed, dc, hperm, hsorted, hentropies, hseed, hdc, rfl, rfl⟩ := h
  obtain ⟨ring', entropies', seed', dc', hperm', hsorted', hentropies', hseed', hdc', rfl, rfl⟩ := h'
  have hpairs : (ring.map fun c => (c.seat, decodeBytes32 c.entropy)).Perm
      (ring'.map fun c => (c.seat, decodeBytes32 c.entropy)) := by
    refine (hperm.map _).trans ?_
    rw [hsame]
    exact (hperm'.map _).symm
  have hring : ring.map (fun c => (c.seat, decodeBytes32 c.entropy)) =
      ring'.map (fun c => (c.seat, decodeBytes32 c.entropy)) := by
    refine @List.Perm.eq_of_pairwise _ (fun x y => x.1 ≤ y.1) _ _ ?_
      (List.pairwise_map.mpr hsorted) (List.pairwise_map.mpr hsorted') hpairs
    intro x y hx hy hle hge
    have hfst : ((ring.map fun c => (c.seat, decodeBytes32 c.entropy)).map Prod.fst).Nodup := by
      rw [List.map_map]
      exact (hperm.map (·.seat)).nodup_iff.mpr hseats
    exact List.inj_on_of_nodup_map hfst hx (hpairs.symm.mem_iff.mp hy) (Int.le_antisymm hle hge)
  have hall : entropies.map some = entropies'.map some := by
    rw [← hentropies, ← hentropies']
    have hsnd := congrArg (List.map Prod.snd) hring
    rw [List.map_map, List.map_map] at hsnd
    exact hsnd
  obtain rfl : entropies = entropies' :=
    List.map_injective_iff.mpr (fun _ _ h => Option.some.inj h) hall
  cases hseed.symm.trans hseed'
  cases hdc.symm.trans hdc'
  exact ⟨rfl, rfl⟩

/-! ## Runs -/

/-- What a session with its deck has of each player. -/
theorem dealt_of_phase (hrun : Run gameId ruleSet ruleSetHash recoveryDeadline hist s)
    (hphase : deckPhase s.state.stateClass = true) :
    DeckOf ruleSet (contributions s.state) s.state.combinedEntropy s.state.deckCommitmentHash ∧
      (∀ c ∈ contributions s.state, c.Verifies gameId) ∧
      ((contributions s.state).map (·.seat)).Nodup ∧ ∃ seed deck, s.Dealt seed deck := by
  have htracks := tracks_of_run hrun
  have hbacked := backed_of_run hrun
  have hall := allRevealed_of_deckPhase htracks.reveals hphase
  refine ⟨htracks.rules ▸ hbacked.deck hall, ?_, ?_, dealt_of_deckOf (hbacked.deck hall)⟩
  · intro c hc
    obtain ⟨p, hp, rfl⟩ := List.mem_map.mp hc
    have hrevealed : (contribution p).revealed = true := hall.2 p hp
    exact htracks.game ▸ ((hbacked.vouched _ hc).revealed hrevealed).2
  · rw [contributions, List.map_map]
    exact (sound_of_run hrun).table.seatsNodup

/-- **The commitments settle the deck.** Two continuations of a session
in which everybody has committed, whatever is submitted in them and in
whatever order, have one and the same deck where they have one at all:
the same seed, and the same card at every position. The assumption is
that SHA-256 does not collide on what was hashed for their entropies. -/
theorem deck_settled_by_commitments
    (hrun : Run gameId ruleSet ruleSetHash recoveryDeadline hist s)
    (hwindow : s.state.stateClass = .s4EntropyRevealWindow)
    (hrest : Path Step s rest t) (hrest' : Path Step s rest' t')
    (hphase : deckPhase t.state.stateClass = true) (hphase' : deckPhase t'.state.stateClass = true)
    {hashed : Set (List UInt8)} (hinj : Set.InjOn Sha256.sha256 hashed)
    (hmem : ∀ c ∈ contributions t.state, c.hashed gameId ∈ hashed)
    (hmem' : ∀ c ∈ contributions t'.state, c.hashed gameId ∈ hashed) :
    t.state.combinedEntropy = t'.state.combinedEntropy ∧
      t.state.deckCommitmentHash = t'.state.deckCommitmentHash ∧
      ∃ seed deck, t.Dealt seed deck ∧ t'.Dealt seed deck := by
  have hrun₁ : Run gameId ruleSet ruleSetHash recoveryDeadline _ t := hrun.trans hrest
  have hrun₂ : Run gameId ruleSet ruleSetHash recoveryDeadline _ t' := hrun.trans hrest'
  have hover : CommitsOver s := by simp [CommitsOver, hwindow]
  have hseal := (seal_of_path hover hrest).trans (seal_of_path hover hrest').symm
  obtain ⟨hdeck, hverifies, hseats, seed, deck, hdealt⟩ := dealt_of_phase hrun₁ hphase
  obtain ⟨hdeck', hverifies', -, seed', deck', hdealt'⟩ := dealt_of_phase hrun₂ hphase'
  -- seat by seat: one commitment, so one entropy
  have hsame : (contributions t.state).map (fun c => (c.seat, decodeBytes32 c.entropy)) =
      (contributions t'.state).map (fun c => (c.seat, decodeBytes32 c.entropy)) := by
    apply List.ext_getElem?
    intro i
    have hat := congrArg (·[i]?) hseal
    simp only [List.getElem?_map] at hat ⊢
    cases hc : (contributions t.state)[i]? with
    | none =>
        cases hd : (contributions t'.state)[i]? with
        | none => rfl
        | some d => simp [hc, hd] at hat
    | some c =>
        cases hd : (contributions t'.state)[i]? with
        | none => simp [hc, hd] at hat
        | some d =>
            rw [hc, hd] at hat
            have hseal : c.sealing = d.sealing := Option.some.inj hat
            have hcmem := List.mem_of_getElem? hc
            have hdmem := List.mem_of_getElem? hd
            have hentropy := decode_entropy_of_seal hinj hseal (hverifies c hcmem)
              (hverifies' d hdmem) (hmem c hcmem) (hmem' d hdmem)
            have hseat : c.seat = d.seat := congrArg Prod.fst hseal
            simp [hseat, hentropy]
  obtain ⟨hcombined, hhash⟩ := deckOf_of_decoded hdeck hdeck' hseats hsame
  have hrules : t'.ruleSet = t.ruleSet := by
    rw [(tracks_of_run hrun₂).rules, (tracks_of_run hrun₁).rules]
  obtain ⟨rfl, rfl⟩ := hdealt.unique hdealt' hrules hcombined
  exact ⟨hcombined, hhash, seed, deck, hdealt, hdealt'⟩

/-- What the two players of the sample game have contributed. -/
def sampleContributions : List Contribution :=
  [⟨0, "02" ++ hex64 'c', true,
      "9c25fd300230db19bb471fab435fcf7a6d03f773dfe99fa7dff659e4ca2a48a7", true, hex64 'a'⟩,
    ⟨1, "02" ++ hex64 'd', true,
      "e49681fb5b85053c9315f57d1e6bc12900f6d70a0261835e10624718deb9d33e", true, hex64 'b'⟩]

/-- The sample game with its two entropies in either order. -/
theorem deck_settled_by_commitments_sample :
    ∃ hist s rest rest' t t', Run sampleGame defaultRuleSet zeroHash 244 hist s ∧
      Path Step s rest t ∧ Path Step s rest' t' ∧
      t.state.combinedEntropy = t'.state.combinedEntropy ∧
      t.state.deckCommitmentHash = t'.state.deckCommitmentHash ∧
      ∃ seed deck, t.Dealt seed deck ∧ t'.Dealt seed deck := by
  -- the game up to the commitments, and what either order leads to
  have hplays : (playCalls (new sampleGame defaultRuleSet zeroHash 244) (sampleCalls.take 5)).any
      (fun r => decide (r.2.state.stateClass = .s4EntropyRevealWindow) &&
        [sampleCalls.drop 5, (sampleCalls.drop 5).reverse].all fun calls =>
          (playCalls r.2 calls).any fun r' =>
            decide (r'.2.state.stateClass = .s5DeckCommitted ∧
              contributions r'.2.state = sampleContributions)) = true := by
    decide +kernel
  rw [Option.any_eq_true] at hplays
  obtain ⟨⟨hist, s⟩, hplay, hends⟩ := hplays
  rw [Bool.and_eq_true, List.all_cons, List.all_cons, Bool.and_eq_true, Bool.and_eq_true] at hends
  obtain ⟨hwindow, hone, hother, -⟩ := hends
  rw [Option.any_eq_true] at hone hother
  obtain ⟨⟨rest, t⟩, hplay₁, hone⟩ := hone
  obtain ⟨⟨rest', t'⟩, hplay₂, hother⟩ := hother
  obtain ⟨hclass, hcs⟩ := of_decide_eq_true hone
  obtain ⟨hclass', hcs'⟩ := of_decide_eq_true hother
  have hrun := run_of_playCalls hplay
  have hrest : Path Step s rest t :=
    (path_of_play hplay₁).mono (fun hstep => .inl (Outcome.value?_eq_some.mp hstep))
  have hrest' : Path Step s rest' t' :=
    (path_of_play hplay₂).mono (fun hstep => .inl (Outcome.value?_eq_some.mp hstep))
  have hinj : Set.InjOn Sha256.sha256
      {x | x ∈ sampleContributions.map (Contribution.hashed sampleGame)} := by
    have hall : ∀ x ∈ sampleContributions.map (Contribution.hashed sampleGame),
        ∀ y ∈ sampleContributions.map (Contribution.hashed sampleGame),
          Sha256.sha256 x = Sha256.sha256 y → x = y := by
      decide +kernel
    exact fun x hx y hy hxy => hall x hx y hy hxy
  have hsettled := deck_settled_by_commitments hrun (of_decide_eq_true hwindow) hrest hrest'
    (by rw [hclass]; rfl) (by rw [hclass']; rfl) hinj
    (fun c hc => List.mem_map_of_mem (hcs ▸ hc)) (fun c hc => List.mem_map_of_mem (hcs' ▸ hc))
  exact ⟨hist, s, rest, rest', t, t', hrun, hrest, hrest', hsettled⟩

end CardTable.Go.Session
