import CardTable.Go.Gate
import CardTable.Go.Reach
import CardTable.Openings
import CardTable.Ts.Refine
import CardTable.Ts.Verify

/-!
# Commitments — who can open an entropy commitment

The gates of the two languages hash the entropy of a reveal together with
the player and the game, and compare the digest with the commitment stored
for the seat. The player goes in as the last 32 bytes of its key, so the
two keys of one x-coordinate are one player to the hash; keys of different
x-coordinates are different ones. As long as SHA-256 does not collide on
what was hashed, a commitment that one of them opened is opened by no
other, and a player who has copied it can reveal nothing.
-/

namespace CardTable

open Basis Cards
open Ts (isPubkey33 isHex64)

/-! ## Keys -/

/-- The x-coordinate of a compressed key: its digits behind the parity. -/
def keyBody (key : String) : List Char := key.toList.drop 2

/-- What the gates take of a key for the player's id. -/
def playerIdOf (key : List UInt8) : List UInt8 := key.drop (key.length - 32)

/-- **A key is a parity and 32 bytes**, and the 32 bytes are its body. -/
theorem key_bytes_of_isPubkey33 {key : String} (h : isPubkey33 key = true) :
    ∃ bytes, Hex.decode key = some bytes ∧ bytes.length = 33 ∧
      (playerIdOf bytes).length = 32 ∧ Hex.encodeChars (playerIdOf bytes) = keyBody key := by
  unfold isPubkey33 at h
  split at h
  case h_2 => cases h
  case h_1 zero parity tail hchars =>
  simp only [Bool.and_eq_true, Bool.or_eq_true, beq_iff_eq] at h
  obtain ⟨⟨rfl, hparity⟩, htail⟩ := h
  have hhex : isHex64 (String.ofList tail) = true := by
    rw [isHex64, String.toList_ofList, Bool.and_eq_true]
    exact htail
  obtain ⟨body, hbody, hlen⟩ := Ts.decodes_of_isHex64 hhex
  rw [Hex.decode, String.toList_ofList] at hbody
  have hlower : ∀ c ∈ tail, Hex.isLowerDigit c = true := List.all_eq_true.mp htail.2
  have hprefix : ∃ b : UInt8, Hex.decodeChars ('0' :: parity :: tail) = some (b :: body) := by
    rcases hparity with rfl | rfl
    · exact ⟨2, by simp [Hex.decodeChars, Hex.digitVal?, hbody]⟩
    · exact ⟨3, by simp [Hex.decodeChars, Hex.digitVal?, hbody]⟩
  obtain ⟨b, hbytes⟩ := hprefix
  have hid : playerIdOf (b :: body) = body := by
    rw [playerIdOf, List.length_cons, hlen]
    rfl
  refine ⟨b :: body, by rwa [Hex.decode, hchars], by rw [List.length_cons, hlen], ?_, ?_⟩
  · rw [hid, hlen]
  · rw [hid, keyBody, hchars]
    exact Hex.encodeChars_of_decodeChars hbody hlower

/-! ## What a gate hashes -/

/-- What is hashed into a commitment. -/
def entropyPreimage (entropy playerId gameId : List UInt8) : List UInt8 :=
  domainPreimage tagEntropyCommitment [entropy, playerId, gameId]

theorem entropyCommitment_eq (entropy playerId gameId : List UInt8) :
    entropyCommitment entropy playerId gameId =
      Sha256.sha256 (entropyPreimage entropy playerId gameId) := rfl

/-- What is hashed tells the player. -/
theorem playerId_of_preimage {e p g e' p' g' : List UInt8} (he : e.length = 32)
    (hp : p.length = 32) (hg : g.length = 32) (he' : e'.length = 32) (hp' : p'.length = 32)
    (hg' : g'.length = 32) (h : entropyPreimage e p g = entropyPreimage e' p' g') : p = p' := by
  have huse := preimage_injective (show
    (HashUse.entropyCommitment ⟨e, he⟩ ⟨p, hp⟩ ⟨g, hg⟩).preimage =
      (HashUse.entropyCommitment ⟨e', he'⟩ ⟨p', hp'⟩ ⟨g', hg'⟩).preimage from h)
  injection huse with _ hplayer _
  exact congrArg Subtype.val hplayer

/-- The bytes of a text, as `fromHex` reads it; hex is read as
`hex.DecodeString` reads it. -/
def bytesOf (text : String) : List UInt8 := ((Ts.fromHex text).value?).getD []

theorem bytesOf_of_decode {text : String} {bytes : List UInt8} (h : Hex.decode text = some bytes) :
    bytesOf text = bytes := by
  rw [bytesOf, Ts.fromHex_of_decode h]
  rfl

theorem bytesOf_of_fromHex {text : String} {bytes : List UInt8}
    (h : Ts.fromHex text = .ok bytes) : bytesOf text = bytes := by
  rw [bytesOf, h]
  rfl

/-- What a reveal of `entropy` by the player with `key` makes the gates
hash. -/
def revealPreimage (entropy key gameId : String) : List UInt8 :=
  entropyPreimage (bytesOf entropy) (playerIdOf (bytesOf key)) (bytesOf gameId)

/-! ## Openings -/

/-- A player of a list with distinct seats is found by its seat. -/
theorem find?_seat {α : Type} {seat : α → Int} {players : List α} (hnd : (players.map seat).Nodup)
    {p : α} (hp : p ∈ players) : players.find? (fun q => seat q == seat p) = some p := by
  induction players with
  | nil => cases hp
  | cons q rest ih =>
      rw [List.map_cons, List.nodup_cons] at hnd
      rcases List.mem_cons.mp hp with rfl | hp
      · rw [List.find?_cons_of_pos (by simp)]
      · have hne : seat q ≠ seat p := by
          intro heq
          exact hnd.1 (heq ▸ List.mem_map_of_mem hp)
        rw [List.find?_cons_of_neg (by simpa using hne)]
        exact ih hnd.2 hp

/-- The relay's gate accepts a reveal for the seat of this player, whose
commitment is `hash`. -/
structure Go.Session.OpensHash (s : Go.Session) (p : Go.PlayerState) (a : Go.SignedAction)
    (hash : List UInt8) : Prop where
  seated : p ∈ s.state.players
  kind : a.actionType = .entropyReveal
  seat : a.actingPlayerSeat = some p.seat
  committed : Hex.decode p.entropyCommitmentHash = some hash
  accepted : s.verifyCrypto a = .ok ()

/-- The client's gate does. -/
structure Ts.RoundState.OpensHash (state : Ts.RoundState) (ruleSet : Ts.RuleSet)
    (p : Ts.PlayerState) (a : Ts.EntropyRevealAction) (hash : List UInt8) : Prop where
  seated : p ∈ state.players
  seat : a.actingPlayerSeat = some (p.seat.val : Int)
  committed : ∃ text, p.entropyCommitmentHash = some text ∧ Ts.fromHex text = .ok hash
  accepted : Ts.verify state (.entropyReveal a) ruleSet = .ok ()

/-- Runs of `verifyAndApply`. -/
abbrev Ts.VerifiedRun (ruleSet : Ts.RuleSet) (gameId ruleSetHash : String) (deadline : SafeNat) :
    List ((Ts.SignedAction × SafeNat) × Ts.RoundState) → Ts.RoundState → Prop :=
  Path (fun state input state' => Ts.verifyAndApply state input.1 ruleSet input.2 = .ok state')
    (Ts.initialState gameId ruleSetHash deadline)

/-- In some state that one of the two languages reached, the player with
`key` opened the commitment `hash`; `hashed` is what the gate hashed. -/
inductive Opened (key : String) (hash : List UInt8) : List UInt8 → Prop where
  | go {gameId : String} {ruleSet : Go.RuleSet} {ruleSetHash : String} {deadline : UInt32}
      {hist : List ((Go.SignedAction × UInt32) × Go.Session)} {s : Go.Session}
      {p : Go.PlayerState} {a : Go.SignedAction}
      (hrun : Go.Session.Run gameId ruleSet ruleSetHash deadline hist s)
      (hkey : p.valueSigningPubkey = key) (hopens : s.OpensHash p a hash) :
      Opened key hash (revealPreimage a.entropy key s.gameId)
  | ts {gameId ruleSetHash : String} {ruleSet : Ts.RuleSet} {deadline : SafeNat}
      {hist : List ((Ts.SignedAction × SafeNat) × Ts.RoundState)} {state : Ts.RoundState}
      {p : Ts.PlayerState} {a : Ts.EntropyRevealAction}
      (hrun : Ts.VerifiedRun ruleSet gameId ruleSetHash deadline hist state)
      (hkey : p.valueSigningPubkey = key) (hopens : state.OpensHash ruleSet p a hash) :
      Opened key hash (revealPreimage a.entropy key state.gameId)

/-- What a gate that accepts has hashed, and what came of it. -/
def Hashes (hash : List UInt8) (playerId hashed : List UInt8) : Prop :=
  ∃ e g, e.length = 32 ∧ g.length = 32 ∧ hashed = entropyPreimage e playerId g ∧
    Sha256.sha256 hashed = hash

theorem Go.Session.OpensHash.hashes {s : Go.Session} {p : Go.PlayerState} {a : Go.SignedAction}
    {hash : List UInt8} (h : s.OpensHash p a hash) (hwf : s.state.table.WF) :
    Hashes hash (playerIdOf (bytesOf p.valueSigningPubkey))
      (revealPreimage a.entropy p.valueSigningPubkey s.gameId) := by
  have hgate : s.checkEntropyReveal a = .ok () := by
    have := h.accepted
    rwa [Go.Session.verifyCrypto, h.kind] at this
  obtain ⟨seat, hseat, ⟨o⟩⟩ := Go.Session.opens_of_checkEntropyReveal hgate
  obtain rfl : p.seat = seat := Option.some.inj (h.seat.symm.trans hseat)
  have hfind : s.state.players.find? (fun q => q.seat == p.seat) = some p :=
    find?_seat hwf.seatsNodup h.seated
  have hplayer : o.player = p := Option.some.inj (o.seated.symm.trans hfind)
  have hcommitment : o.commitment = hash := by
    have := o.commitmentHex
    rw [hplayer] at this
    exact Option.some.inj (this.symm.trans h.committed)
  obtain ⟨hentropy, hentropyLen⟩ := Go.Session.decodeBytes32_eq_some.mp o.entropyHex
  obtain ⟨hgame, hgameLen⟩ := Go.Session.decodeBytes32_eq_some.mp o.gameHex
  have hkeyHex := o.keyHex
  rw [hplayer] at hkeyHex
  refine ⟨o.entropy, o.game, hentropyLen, hgameLen, ?_, ?_⟩
  · rw [revealPreimage, bytesOf_of_decode hentropy, bytesOf_of_decode hgame]
  · rw [revealPreimage, bytesOf_of_decode hentropy, bytesOf_of_decode hgame,
      bytesOf_of_decode hkeyHex, ← entropyCommitment_eq, ← hcommitment]
    exact o.opened

theorem Ts.commitEntropy_inv {entropy playerId gameId c : List UInt8}
    (h : Ts.commitEntropy entropy playerId gameId = .ok c) :
    entropy.length = 32 ∧ gameId.length = 32 ∧ c = entropyCommitment entropy playerId gameId := by
  obtain ⟨e, he, hplayer⟩ := Outcome.bind_eq_ok.mp h
  obtain ⟨p, hp, hgame⟩ := Outcome.bind_eq_ok.mp hplayer
  obtain ⟨g, hg, hcommit⟩ := Outcome.bind_eq_ok.mp hgame
  obtain ⟨helen, rfl⟩ := Ts.encodeBytes32_inv he
  obtain ⟨_, rfl⟩ := Ts.encodeBytes32_inv hp
  obtain ⟨hglen, rfl⟩ := Ts.encodeBytes32_inv hg
  exact ⟨helen, hglen, (Outcome.ok.inj hcommit).symm⟩

theorem Ts.RoundState.OpensHash.hashes {state : Ts.RoundState} {ruleSet : Ts.RuleSet}
    {p : Ts.PlayerState} {a : Ts.EntropyRevealAction} {hash : List UInt8}
    (h : state.OpensHash ruleSet p a hash) (hwf : state.table.WF) :
    Hashes hash (playerIdOf (bytesOf p.valueSigningPubkey))
      (revealPreimage a.entropy p.valueSigningPubkey state.gameId) := by
  have hgate : Ts.checkEntropyReveal state a = .ok () := h.accepted
  have hfind : state.players.find? (fun q => (q.seat.val : Int) == p.seat.val) = some p :=
    find?_seat hwf.seatsNodup h.seated
  obtain ⟨stored, hstored, hcommitment⟩ := h.committed
  -- one `split` for each check of the source, in its order
  simp only [Ts.checkEntropyReveal, h.seat, hfind, hstored] at hgate
  split at hgate
  · cases hgate
  rename_i hentropy
  obtain ⟨commitment, hc, hgate⟩ := Outcome.bind_eq_ok.mp hgate
  obtain ⟨entropy, he, hgate⟩ := Outcome.bind_eq_ok.mp hgate
  obtain ⟨key, hk, hgate⟩ := Outcome.bind_eq_ok.mp hgate
  cases hcommitment.symm.trans hc
  split at hgate
  · cases hgate
  obtain ⟨game, hg, hgate⟩ := Outcome.bind_eq_ok.mp hgate
  split at hgate
  · cases hgate
  rename_i hgameLen
  obtain ⟨recomputed, hcommit, hgate⟩ := Outcome.bind_eq_ok.mp hgate
  obtain ⟨hentropyLen, hgameLen, rfl⟩ := Ts.commitEntropy_inv hcommit
  split at hgate
  · rename_i hequal
    refine ⟨entropy, game, hentropyLen, hgameLen, ?_, ?_⟩
    · rw [revealPreimage, bytesOf_of_fromHex he, bytesOf_of_fromHex hg]
    · rw [revealPreimage, bytesOf_of_fromHex he, bytesOf_of_fromHex hg, bytesOf_of_fromHex hk,
        ← entropyCommitment_eq]
      exact eq_of_beq hequal
  · cases hgate

/-! ## Reached states -/

/-- Binding the deck moves no card and no player. -/
theorem Ts.table_bindDeck {ruleSet : Ts.RuleSet} {prior next final : Ts.RoundState}
    (h : Ts.bindDeck prior next ruleSet = .ok final) : final.table = next.table := by
  rw [Ts.bindDeck] at h
  split at h
  · obtain ⟨collected, _, h⟩ := Outcome.bind_eq_ok.mp h
    cases collected with
    | none =>
        cases h
        rfl
    | some entropies =>
        obtain ⟨combined, _, h⟩ := Outcome.bind_eq_ok.mp h
        obtain ⟨dc, _, h⟩ := Outcome.bind_eq_ok.mp h
        obtain ⟨combinedEntropy, _, h⟩ := Outcome.bind_eq_ok.mp h
        obtain ⟨deckCommitmentHash, _, h⟩ := Outcome.bind_eq_ok.mp h
        cases h
        rfl
  · cases h
    rfl

theorem Ts.table_of_verifiedRun {ruleSet : Ts.RuleSet} {gameId ruleSetHash : String}
    {deadline : SafeNat} {hist : List ((Ts.SignedAction × SafeNat) × Ts.RoundState)}
    {state : Ts.RoundState} (h : Ts.VerifiedRun ruleSet gameId ruleSetHash deadline hist state) :
    state.table.WF := by
  refine h.invariant (I := fun state => state.table.WF) Table.wf_initial ?_
  intro state input state' hwf hstep
  obtain ⟨_, _, hstep⟩ := Outcome.bind_eq_ok.mp hstep
  obtain ⟨next, hnext, hbind⟩ := Outcome.bind_eq_ok.mp hstep
  show state'.table.WF
  rw [Ts.table_bindDeck hbind]
  have hmove : Ts.Step ruleSet state input next := hnext
  exact hwf.step (Ts.table_step hwf hmove)

/-- **What was hashed when a commitment was opened.** -/
theorem Opened.hashes {key : String} {hash x : List UInt8} (h : Opened key hash x) :
    Hashes hash (playerIdOf (bytesOf key)) x := by
  cases h with
  | go hrun hkey hopens =>
      subst hkey
      exact hopens.hashes (Go.Session.sound_of_run hrun).table
  | ts hrun hkey hopens =>
      subst hkey
      exact hopens.hashes (Ts.table_of_verifiedRun hrun)

/-- **Two players, two commitments.** -/
theorem Opened.hash_ne {key key' : String} (hkey : isPubkey33 key = true)
    (hkey' : isPubkey33 key' = true) (hbody : keyBody key ≠ keyBody key')
    {hashed : Set (List UInt8)} (hinj : Set.InjOn Sha256.sha256 hashed)
    {hash hash' x x' : List UInt8} (h : Opened key hash x) (h' : Opened key' hash' x')
    (hx : x ∈ hashed) (hx' : x' ∈ hashed) : hash' ≠ hash := by
  intro hsame
  obtain ⟨e, g, he, hg, hpre, hdigest⟩ := h.hashes
  obtain ⟨e', g', he', hg', hpre', hdigest'⟩ := h'.hashes
  obtain ⟨bytes, hbytes, _, hlen, hchars⟩ := key_bytes_of_isPubkey33 hkey
  obtain ⟨bytes', hbytes', _, hlen', hchars'⟩ := key_bytes_of_isPubkey33 hkey'
  rw [bytesOf_of_decode hbytes] at hpre
  rw [bytesOf_of_decode hbytes'] at hpre'
  have hpreimage : x = x' := hinj hx hx' (hdigest.trans (hsame.symm.trans hdigest'.symm))
  have hplayer : playerIdOf bytes = playerIdOf bytes' :=
    playerId_of_preimage he hlen hg he' hlen' hg' (hpre.symm.trans (hpreimage.trans hpre'))
  apply hbody
  rw [← hchars, ← hchars', hplayer]

/-! ## Copied commitments -/

/-- The gate answers every reveal. -/
theorem Go.Session.checkEntropyReveal_ne_halt (s : Go.Session) (a : Go.SignedAction) (k : Unit) :
    s.checkEntropyReveal a ≠ .halt k := by
  intro h
  simp only [Go.Session.checkEntropyReveal] at h
  -- every branch but the last is an error
  repeat' split at h
  all_goals cases h

/-- A reveal the gate does not accept is refused. -/
theorem Go.Session.submit_reveal_refused {s : Go.Session} {a : Go.SignedAction}
    (hkind : a.actionType = .entropyReveal) (h : s.verifyCrypto a ≠ .ok ()) (height : UInt32) :
    ∃ e, s.submit a height = .err e := by
  rw [Go.Session.submit]
  split
  · exact ⟨_, rfl⟩
  · have hgate : s.verifyCrypto a = s.checkEntropyReveal a := by
      rw [Go.Session.verifyCrypto, hkind]
    cases hcheck : s.checkEntropyReveal a with
    | ok u => exact absurd (hgate.trans hcheck) h
    | err e =>
        rw [hgate, hcheck]
        exact ⟨e, rfl⟩
    | halt k => exact absurd hcheck (Go.Session.checkEntropyReveal_ne_halt s a k)

/-- **An entropy commitment is opened by one player.** Once a player has
opened it, no player whose key has another body opens it, in any state of
any game; a player who has stored it is refused whatever it reveals. -/
theorem commitment_opened_by_one {key key' : String} (hkey : isPubkey33 key = true)
    (hkey' : isPubkey33 key' = true) (hbody : keyBody key ≠ keyBody key')
    {hashed : Set (List UInt8)} (hinj : Set.InjOn Sha256.sha256 hashed)
    {hash x : List UInt8} (hopened : Opened key hash x) (hx : x ∈ hashed) :
    (∀ hash' x', Opened key' hash' x' → x' ∈ hashed → hash' ≠ hash) ∧
    (∀ gameId ruleSet ruleSetHash deadline hist s,
      Go.Session.Run gameId ruleSet ruleSetHash deadline hist s →
        ∀ q ∈ s.state.players, q.valueSigningPubkey = key' →
          Hex.decode q.entropyCommitmentHash = some hash →
            ∀ a height, a.actionType = .entropyReveal → a.actingPlayerSeat = some q.seat →
              revealPreimage a.entropy key' s.gameId ∈ hashed →
                ∃ e, s.submit a height = .err e) ∧
    ∀ ruleSet gameId ruleSetHash deadline hist state,
      Ts.VerifiedRun ruleSet gameId ruleSetHash deadline hist state →
        ∀ q ∈ state.players, q.valueSigningPubkey = key' →
          (∃ text, q.entropyCommitmentHash = some text ∧ Ts.fromHex text = .ok hash) →
            ∀ (a : Ts.EntropyRevealAction) height, a.actingPlayerSeat = some (q.seat.val : Int) →
              revealPreimage a.entropy key' state.gameId ∈ hashed →
                ∀ state', Ts.verifyAndApply state (.entropyReveal a) ruleSet height ≠
                  .ok state' := by
  refine ⟨?_, ?_, ?_⟩
  · intro hash' x' hopened' hx'
    exact hopened.hash_ne hkey hkey' hbody hinj hopened' hx hx'
  · intro gameId ruleSet ruleSetHash deadline hist s hrun q hq hqkey hcopied a height hkind hseat hx'
    apply Go.Session.submit_reveal_refused hkind
    intro haccepted
    have hopens : s.OpensHash q a hash := ⟨hq, hkind, hseat, hcopied, haccepted⟩
    exact hopened.hash_ne hkey hkey' hbody hinj (.go hrun hqkey hopens) hx hx' rfl
  · intro ruleSet gameId ruleSetHash deadline hist state hrun q hq hqkey hcopied a height hseat hx'
      state' happlied
    obtain ⟨_, haccepted, _⟩ := Outcome.bind_eq_ok.mp happlied
    have hopens : state.OpensHash ruleSet q a hash := ⟨hq, hseat, hcopied, haccepted⟩
    exact hopened.hash_ne hkey hkey' hbody hinj (.ts hrun hqkey hopens) hx hx' rfl

/-! ## Sample commitments -/

/-- The commitment of the player with the key `"02" ++ Go.hex64 'c'` to
`Go.hex64 'a'`. -/
def sampleCommitment : String :=
  "9c25fd300230db19bb471fab435fcf7a6d03f773dfe99fa7dff659e4ca2a48a7"

/-- Two players take their seats, the first with that key; it commits, and
the second copies the commitment. -/
def copyCalls (key : String) : List (Go.SignedAction × UInt32) :=
  [ { Go.bareAction Go.sampleGame .join (some 0) with
      actionNonce := "1", playerPubkey := "02" ++ Go.hex64 'c', stakeAmount := 1000 },
    { Go.bareAction Go.sampleGame .join (some 1) with
      actionNonce := "2", playerPubkey := key, stakeAmount := 1000 },
    { Go.bareAction Go.sampleGame .tableLock none with actionNonce := "3" },
    { Go.bareAction Go.sampleGame .entropyCommit (some 0) with
      actionNonce := "4", commitmentHash := sampleCommitment },
    { Go.bareAction Go.sampleGame .entropyCommit (some 1) with
      actionNonce := "5", commitmentHash := sampleCommitment } ].map (·, 100)

/-- The reveal of `Go.hex64 'a'` by a seat. -/
def sampleReveal (seat : Int) : Go.SignedAction :=
  { Go.bareAction Go.sampleGame .entropyReveal (some seat) with
    actionNonce := "6", entropy := Go.hex64 'a' }

/-- The two seats hold these keys and the one commitment. -/
def Copied (s : Go.Session) (key : String) : Prop :=
  s.gameId = Go.sampleGame ∧ s.state.players.map
    (fun p => (p.seat, p.valueSigningPubkey, p.entropyCommitmentHash)) =
      [(0, "02" ++ Go.hex64 'c', sampleCommitment), (1, key, sampleCommitment)]

instance (s : Go.Session) (key : String) : Decidable (Copied s key) :=
  inferInstanceAs (Decidable (_ ∧ _))

theorem Copied.players {s : Go.Session} {key : String} (h : Copied s key) :
    ∃ p q, p ∈ s.state.players ∧ q ∈ s.state.players ∧
      (p.seat = 0 ∧ p.valueSigningPubkey = "02" ++ Go.hex64 'c' ∧
        p.entropyCommitmentHash = sampleCommitment) ∧
      q.seat = 1 ∧ q.valueSigningPubkey = key ∧ q.entropyCommitmentHash = sampleCommitment := by
  obtain ⟨p, rest, hcons, hp, hrest⟩ := List.map_eq_cons_iff.mp h.2
  obtain ⟨q, _, hcons', hq, _⟩ := List.map_eq_cons_iff.mp hrest
  simp only [Prod.mk.injEq] at hp hq
  exact ⟨p, q, by simp [hcons], by simp [hcons, hcons'], hp, hq⟩

/-- The copy is worth nothing to a player with another x-coordinate. -/
theorem commitment_opened_by_one_copied :
    ∃ hist s, Go.Session.Run Go.sampleGame Go.defaultRuleSet Go.zeroHash 244 hist s ∧
      Copied s ("02" ++ Go.hex64 'd') ∧ s.verifyCrypto (sampleReveal 0) = .ok () ∧
      ∃ e, s.submit (sampleReveal 1) 100 = .err e := by
  have hout : (Go.Session.playCalls
      (Go.Session.new Go.sampleGame Go.defaultRuleSet Go.zeroHash 244)
      (copyCalls ("02" ++ Go.hex64 'd'))).map (fun r =>
        decide (Copied r.2 ("02" ++ Go.hex64 'd') ∧
          r.2.verifyCrypto (sampleReveal 0) = .ok ())) = some true := by
    decide +kernel
  obtain ⟨r, hplay, hr⟩ := Option.map_eq_some_iff.mp hout
  obtain ⟨hcopied, haccepted⟩ := of_decide_eq_true hr
  obtain ⟨p, q, hp, hq, ⟨hpseat, hpkey, hphash⟩, hqseat, hqkey, hqhash⟩ := hcopied.players
  obtain ⟨hash, hhash, _⟩ := Ts.decodes_of_isHex64 (s := sampleCommitment) (by decide)
  have hrun := Go.Session.run_of_playCalls hplay
  have hopens : r.2.OpensHash p (sampleReveal 0) hash :=
    ⟨hp, rfl, by rw [hpseat]; rfl, by rwa [hphash], haccepted⟩
  have hopened := Opened.go hrun hpkey hopens
  -- the two players' digests of one entropy differ
  have hdiffer : Sha256.sha256
        (revealPreimage (Go.hex64 'a') ("02" ++ Go.hex64 'c') Go.sampleGame) ≠
      Sha256.sha256 (revealPreimage (Go.hex64 'a') ("02" ++ Go.hex64 'd') Go.sampleGame) := by
    decide +kernel
  have hinj : Set.InjOn Sha256.sha256
      {revealPreimage (Go.hex64 'a') ("02" ++ Go.hex64 'c') Go.sampleGame,
        revealPreimage (Go.hex64 'a') ("02" ++ Go.hex64 'd') Go.sampleGame} := by
    rintro x (rfl | rfl) y (rfl | rfl) hxy
    · rfl
    · exact absurd hxy hdiffer
    · exact absurd hxy.symm hdiffer
    · rfl
  have hvalid : isPubkey33 ("02" ++ Go.hex64 'd') = true := by decide
  have hrefused := (commitment_opened_by_one (by decide) hvalid (by decide) hinj hopened
    (.inl (by rw [hcopied.1]; rfl))).2.1
  refine ⟨r.1, r.2, hrun, hcopied, haccepted, ?_⟩
  exact hrefused _ _ _ _ _ _ hrun q hq hqkey (by rwa [hqhash]) (sampleReveal 1) 100 rfl
    (by rw [hqseat]; rfl) (.inr (by rw [hcopied.1]; rfl))

/-- To the player with the other key of the x-coordinate it is its own. -/
theorem parity_opened_twice :
    ¬∀ (gameId : String) (ruleSet : Go.RuleSet) (ruleSetHash : String) (deadline : UInt32)
      (hist : List ((Go.SignedAction × UInt32) × Go.Session)) (s : Go.Session),
      Go.Session.Run gameId ruleSet ruleSetHash deadline hist s →
        ∀ (p q : Go.PlayerState), isPubkey33 p.valueSigningPubkey = true →
          isPubkey33 q.valueSigningPubkey = true →
          p.valueSigningPubkey ≠ q.valueSigningPubkey →
            ∀ (a b : Go.SignedAction) (hash : List UInt8) (hashed : Set (List UInt8)),
              Set.InjOn Sha256.sha256 hashed →
              revealPreimage a.entropy p.valueSigningPubkey s.gameId ∈ hashed →
              revealPreimage b.entropy q.valueSigningPubkey s.gameId ∈ hashed →
                s.OpensHash p a hash → ¬ s.OpensHash q b hash := by
  intro hclaim
  have hout : (Go.Session.playCalls
      (Go.Session.new Go.sampleGame Go.defaultRuleSet Go.zeroHash 244)
      (copyCalls ("03" ++ Go.hex64 'c'))).map (fun r =>
        decide (Copied r.2 ("03" ++ Go.hex64 'c') ∧ r.2.verifyCrypto (sampleReveal 0) = .ok () ∧
          r.2.verifyCrypto (sampleReveal 1) = .ok ())) = some true := by
    decide +kernel
  obtain ⟨r, hplay, hr⟩ := Option.map_eq_some_iff.mp hout
  obtain ⟨hcopied, hfirst, hsecond⟩ := of_decide_eq_true hr
  obtain ⟨p, q, hp, hq, ⟨hpseat, hpkey, hphash⟩, hqseat, hqkey, hqhash⟩ := hcopied.players
  obtain ⟨hash, hhash, _⟩ := Ts.decodes_of_isHex64 (s := sampleCommitment) (by decide)
  have hopens : r.2.OpensHash p (sampleReveal 0) hash :=
    ⟨hp, rfl, by rw [hpseat]; rfl, by rwa [hphash], hfirst⟩
  have hopens' : r.2.OpensHash q (sampleReveal 1) hash :=
    ⟨hq, rfl, by rw [hqseat]; rfl, by rwa [hqhash], hsecond⟩
  -- one x-coordinate, one player's id
  have hkey : bytesOf ("02" ++ Go.hex64 'c') = 2 :: List.replicate 32 0xcc := by decide
  have hkey' : bytesOf ("03" ++ Go.hex64 'c') = 3 :: List.replicate 32 0xcc := by decide
  refine hclaim _ _ _ _ _ _ (Go.Session.run_of_playCalls hplay) p q (by rw [hpkey]; decide)
    (by rw [hqkey]; decide) (by rw [hpkey, hqkey]; decide) (sampleReveal 0) (sampleReveal 1) hash
    {revealPreimage (Go.hex64 'a') p.valueSigningPubkey r.2.gameId} (Set.injOn_singleton ..)
    (Set.mem_singleton _) ?_ hopens hopens'
  rw [Set.mem_singleton_iff, hpkey, hqkey, revealPreimage, revealPreimage, hkey, hkey']
  rfl

end CardTable
