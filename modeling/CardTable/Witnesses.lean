import CardTable.Openings
import CardTable.Templates

/-!
# Witnesses — what a locking script makes of a stack

The selectors of the branches are elements of the stack like all others,
the last one pushed on top. The first part runs the stake lock on the
three witnesses `spec/script-templates.md` lists for it. The second part
runs the hash check of a script on the preimage of a commitment, for any
hash function in the place of SHA-256, and compares it with the checks of
`packages/crypto-cards`.
-/

namespace CardTable.Ts

open Basis Basis.Script Cards

/-! ## The stack -/

/-- An element as a condition: false when all its bytes are zero, but for
the sign bit of the last. -/
def castToBool : List UInt8 → Bool
  | [] => false
  | [b] => b != 0 && b != 0x80
  | b :: rest => b != 0 || castToBool rest

/-- What an item of a witness leaves on the stack. -/
def Item.value : Item → List UInt8
  | .push data => data
  | .op code => if code = 0x4f then [0x81] else [code - 0x50]

/-- The stack a witness leaves, top first. -/
def stackOf (witness : List Item) : List (List UInt8) := (witness.map Item.value).reverse

/-- Data come onto the stack as they are. -/
theorem value_pushed (data : List UInt8) : Item.value (pushed data) = data := by
  match data with
  | [] => rfl
  | [b] =>
      rw [pushed]
      split
      · rename_i hsmall
        rw [Item.value, if_neg (numberCode_ne hsmall.2), numberCode_sub hsmall.2]
      · split
        · rename_i hminus
          rw [hminus]
          rfl
        · rfl
  | b :: c :: rest => rfl

@[simp] theorem stackOf_nil : stackOf [] = [] := rfl

@[simp] theorem stackOf_append (is js : List Item) :
    stackOf (is ++ js) = stackOf js ++ stackOf is := by
  simp [stackOf]

/-! ## The witnesses of the stake lock -/

/-- The branches of the stake lock. -/
inductive StakeBranch where
  | cooperative
  | winnerClaim
  | refund
  deriving DecidableEq, Repr

/-- What the witnesses are made of. -/
structure StakeSignatures where
  playerSig : List UInt8
  operatorSig : List UInt8
  settlementPreimage : List UInt8

namespace StakeBranch

/-- The witness the specification lists for the branch. -/
def witness (s : StakeSignatures) : StakeBranch → List Item
  | cooperative => [number 0, pushed s.playerSig, pushed s.operatorSig, number 1]
  | winnerClaim => [pushed s.playerSig, pushed s.settlementPreimage, number 0, number 1]
  | refund => [pushed s.playerSig, number 0, number 0]

/-- What the body of the branch is meant to find on the stack, top
first: the witness without its selectors. -/
def arguments (s : StakeSignatures) : StakeBranch → List (List UInt8)
  | cooperative => [s.operatorSig, s.playerSig, []]
  | winnerClaim => [s.settlementPreimage, s.playerSig]
  | refund => [s.playerSig]

/-- The body of the branch, each item with its position in the script. -/
def body (p : StakeLockParams) : StakeBranch → List (Nat × Item)
  | cooperative => Branching.numbered 1 (multisig [p.playerPubkey, p.operatorPubkey])
  | winnerClaim =>
      Branching.numbered 8
        (hashCheck opHash256 p.expectedSettlementHash ++ signature p.playerPubkey)
  | refund => Branching.numbered 14 (signature p.playerPubkey)

/-- The bodies are the leaves of the script. -/
theorem body_mem_leaves (p : StakeLockParams) (b : StakeBranch) :
    ∃ path, (path, b.body p) ∈ p.documented.leaves 0 := by
  cases b with
  | cooperative => exact ⟨[true], List.mem_cons_self⟩
  | winnerClaim => exact ⟨[false, true], List.mem_cons_of_mem _ List.mem_cons_self⟩
  | refund =>
      exact ⟨[false, false], List.mem_cons_of_mem _ (List.mem_cons_of_mem _ List.mem_cons_self)⟩

variable {p : StakeLockParams} {first second : List UInt8} {rest : List (List UInt8)}

/-- Nothing but the choices branches. -/
theorem plain_documented (hp : p.Valid) : p.documented.Plain :=
  (TemplateParams.wellFormed_documented (t := .stakeLock p) hp).plain

/-- A true element on top runs the cooperative body, with everything
below the element. -/
theorem execute_cooperative (hp : p.Valid) (hfirst : castToBool first = true) :
    execute castToBool 0 [] (first :: rest) p.documented.items =
      some (cooperative.body p, rest) := by
  rw [Branching.execute_eq (plain_documented hp)]
  simp [StakeLockParams.documented, Branching.descend, hfirst, body]

/-- False on top and true below it runs the claim of the winner. -/
theorem execute_winnerClaim (hp : p.Valid) (hfirst : castToBool first = false)
    (hsecond : castToBool second = true) :
    execute castToBool 0 [] (first :: second :: rest) p.documented.items =
      some (winnerClaim.body p, rest) := by
  rw [Branching.execute_eq (plain_documented hp)]
  simp [StakeLockParams.documented, Branching.descend, hfirst, hsecond, body, Branching.items,
    multisig]

/-- Two false elements on top run the refund. -/
theorem execute_refund (hp : p.Valid) (hfirst : castToBool first = false)
    (hsecond : castToBool second = false) :
    execute castToBool 0 [] (first :: second :: rest) p.documented.items =
      some (refund.body p, rest) := by
  rw [Branching.execute_eq (plain_documented hp)]
  simp [StakeLockParams.documented, Branching.descend, hfirst, hsecond, body, Branching.items,
    multisig, hashCheck, signature]

theorem stackOf_witness_cooperative (s : StakeSignatures) :
    stackOf (cooperative.witness s) = [1] :: cooperative.arguments s := by
  simp only [witness, stackOf, List.map_cons, List.map_nil, value_pushed]
  rfl

/-- The selectors of the winner's claim stand in the order they are
written in, so that the last one, `OP_1`, is on top. -/
theorem stackOf_witness_winnerClaim (s : StakeSignatures) :
    stackOf (winnerClaim.witness s) = [1] :: [] :: winnerClaim.arguments s := by
  simp only [witness, stackOf, List.map_cons, List.map_nil, value_pushed]
  rfl

theorem stackOf_witness_refund (s : StakeSignatures) :
    stackOf (refund.witness s) = [] :: [] :: refund.arguments s := by
  simp only [witness, stackOf, List.map_cons, List.map_nil, value_pushed]
  rfl

/-- The bodies start at different positions. -/
theorem body_cooperative_ne (p : StakeLockParams) :
    cooperative.body p ≠ winnerClaim.body p := by
  intro h
  have hhead := congrArg (fun l => l.head?.map Prod.fst) h
  simp [body, multisig, hashCheck, Branching.numbered] at hhead

/-- **A documented witness selects its branch unless it is the winner's.**
The script the builder returns, run on the stack of the witness, executes
the body of the branch on the documented arguments for the cooperative
close and for the refund, and never for the winner's claim. -/
theorem witness_selects_iff (p : StakeLockParams) (t : BuiltTemplate) (s : StakeSignatures)
    (b : StakeBranch) (h : buildStakeLock p = .ok t) :
    (∃ items, parse t.lockingScript = some items ∧
      execute castToBool 0 [] (stackOf (b.witness s)) items = some (b.body p, b.arguments s)) ↔
      b ≠ .winnerClaim := by
  obtain ⟨hvalid, rfl⟩ := buildStakeLock_eq_ok_iff.mp h
  have hparse : parse (write p.documented.items) = some p.documented.items :=
    TemplateParams.parse_documented (t := .stakeLock p) hvalid
  simp only [hparse, Option.some.injEq, exists_eq_left']
  cases b with
  | cooperative =>
      rw [stackOf_witness_cooperative, execute_cooperative hvalid rfl]
      simp
  | winnerClaim =>
      -- `OP_1` is on top: the outer `IF` takes it and runs the other body
      rw [stackOf_witness_winnerClaim, execute_cooperative hvalid rfl]
      simp [body_cooperative_ne p]
  | refund =>
      rw [stackOf_witness_refund, execute_refund hvalid rfl rfl]
      simp

/-- A stake lock. -/
def sampleParams : StakeLockParams where
  playerPubkey := "02aaaaaaaaaaaaaaaaaaaaaaaaaaaaaaaaaaaaaaaaaaaaaaaaaaaaaaaaaaaaaaaa"
  operatorPubkey := "03bbbbbbbbbbbbbbbbbbbbbbbbbbbbbbbbbbbbbbbbbbbbbbbbbbbbbbbbbbbbbbbb"
  expectedSettlementHash := "cccccccccccccccccccccccccccccccccccccccccccccccccccccccccccccccc"
  recoveryHeight := 800000

def sampleTemplate : BuiltTemplate where
  lockingScript := write sampleParams.documented.items
  branches := [⟨"cooperative", .immediate⟩, ⟨"winner_claim", .immediate⟩,
    ⟨"refund", absoluteHeight sampleParams.recoveryHeight⟩]

def sampleSignatures : StakeSignatures where
  playerSig := [0x30, 0x44, 0x41]
  operatorSig := [0x30, 0x45, 0x41]
  settlementPreimage := [1, 2, 3, 4]

theorem sample_built : buildStakeLock sampleParams = .ok sampleTemplate := by
  refine buildStakeLock_eq_ok_iff.mpr ⟨⟨?_, ?_, ?_⟩, rfl⟩
  · decide
  · decide
  · decide

theorem witness_selects_iff_sample :
    (∃ items, parse sampleTemplate.lockingScript = some items ∧
      execute castToBool 0 [] (stackOf (refund.witness sampleSignatures)) items =
        some (refund.body sampleParams, refund.arguments sampleSignatures)) ↔
      refund ≠ winnerClaim :=
  witness_selects_iff sampleParams sampleTemplate sampleSignatures refund sample_built

/-- **The winner's witness closes cooperatively**: `OP_0 OP_1` leaves the
true selector on top, so the multisig runs on the preimage. -/
theorem winner_witness_cooperates :
    buildStakeLock sampleParams = .ok sampleTemplate ∧
      ∃ items, parse sampleTemplate.lockingScript = some items ∧
        execute castToBool 0 [] (stackOf (winnerClaim.witness sampleSignatures)) items =
          some (cooperative.body sampleParams, [[], [1, 2, 3, 4], [0x30, 0x44, 0x41]]) ∧
        execute castToBool 0 [] (stackOf (winnerClaim.witness sampleSignatures)) items ≠
          some (winnerClaim.body sampleParams, winnerClaim.arguments sampleSignatures) := by
  have hvalid := (buildStakeLock_eq_ok_iff.mp sample_built).1
  have hrun : execute castToBool 0 [] (stackOf (winnerClaim.witness sampleSignatures))
      sampleParams.documented.items =
        some (cooperative.body sampleParams, [[], [1, 2, 3, 4], [0x30, 0x44, 0x41]]) := by
    rw [stackOf_witness_winnerClaim, execute_cooperative hvalid rfl]
    rfl
  have hparse : parse sampleTemplate.lockingScript = some sampleParams.documented.items :=
    TemplateParams.parse_documented (t := .stakeLock sampleParams) hvalid
  refine ⟨sample_built, sampleParams.documented.items, hparse, hrun, ?_⟩
  rw [hrun]
  intro h
  exact body_cooperative_ne sampleParams (congrArg Prod.fst (Option.some.inj h))

end StakeBranch

/-! ## Commitments under any hash -/

/-- What is hashed into an entropy commitment. -/
def entropyPreimage (entropy playerId gameId : List UInt8) : List UInt8 :=
  domainPreimage tagEntropyCommitment [entropy, playerId, gameId]

/-- A hash in the place of SHA-256: a function to 32 bytes. -/
structure HashFunction where
  hash : List UInt8 → List UInt8
  length_hash : ∀ bytes, (hash bytes).length = 32

namespace HashFunction

/-- SHA-256 itself. -/
def sha256 : HashFunction := ⟨Sha256.sha256, Sha256.length_sha256⟩

variable (H : HashFunction)

/-- `domainHash`. -/
def domainHash (typeTag : Nat) (parts : List (List UInt8)) : List UInt8 :=
  H.hash (encodeU16LE typeTag ++ parts.flatten)

/-- `commitCard`. -/
def commitCard (ordinal : Int) (cardNonce deckNonce : List UInt8) : Js (List UInt8) :=
  if ordinal < 0 ∨ 53 < ordinal then
    .halt s!"commitCard: ordinal out of 0..53 range: {ordinal}"
  else do
    let cn ← encodeBytes32 cardNonce
    let dn ← encodeBytes32 deckNonce
    pure (H.domainHash tagCard [encodeU8 ordinal.toNat, cn, dn])

/-- `verifyRevealProof`. -/
def verifyRevealProof (expected : List UInt8) (proof : CardProof) : Js Bool := do
  let recomputed ← H.commitCard proof.ordinal proof.cardNonce proof.deckNonce
  pure (recomputed == expected)

/-- `commitEntropy`. -/
def commitEntropy (entropy playerId gameId : List UInt8) : Js (List UInt8) := do
  let e ← encodeBytes32 entropy
  let p ← encodeBytes32 playerId
  let g ← encodeBytes32 gameId
  pure (H.domainHash tagEntropyCommitment [e, p, g])

/-- `verifyEntropyReveal`. -/
def verifyEntropyReveal (commitment entropy playerId gameId : List UInt8) : Js Bool := do
  let recomputed ← H.commitEntropy entropy playerId gameId
  pure (recomputed == commitment)

/-- With SHA-256 these are the checks of the package. -/
theorem verifyRevealProof_sha256 (expected : List UInt8) (proof : CardProof) :
    sha256.verifyRevealProof expected proof =
      Ts.verifyRevealProof expected proof.ordinal proof.cardNonce proof.deckNonce := rfl

theorem commitEntropy_sha256 : sha256.commitEntropy = Ts.commitEntropy := rfl

variable {H}

/-- **An accepted proof hashes to the commitment**, once. -/
theorem hash_of_verifyRevealProof {c : List UInt8} {proof : CardProof}
    (h : H.verifyRevealProof c proof = .ok true) : H.hash proof.preimage = c := by
  obtain ⟨recomputed, hcommit, heq⟩ := Outcome.bind_eq_ok.mp h
  simp only [commitCard] at hcommit
  split at hcommit
  · cases hcommit
  obtain ⟨cn, hcn, hrest⟩ := Outcome.bind_eq_ok.mp hcommit
  obtain ⟨dn, hdn, hhash⟩ := Outcome.bind_eq_ok.mp hrest
  obtain ⟨_, rfl⟩ := Ts.encodeBytes32_inv hcn
  obtain ⟨_, rfl⟩ := Ts.encodeBytes32_inv hdn
  have hsame : recomputed = c := by simpa using heq
  rw [← hsame, ← Outcome.ok.inj hhash]
  rfl

theorem hash_of_verifyEntropyReveal {c entropy playerId gameId : List UInt8}
    (h : H.verifyEntropyReveal c entropy playerId gameId = .ok true) :
    H.hash (entropyPreimage entropy playerId gameId) = c := by
  obtain ⟨recomputed, hcommit, heq⟩ := Outcome.bind_eq_ok.mp h
  obtain ⟨e, he, hcommit⟩ := Outcome.bind_eq_ok.mp hcommit
  obtain ⟨p, hp, hcommit⟩ := Outcome.bind_eq_ok.mp hcommit
  obtain ⟨g, hg, hhash⟩ := Outcome.bind_eq_ok.mp hcommit
  obtain ⟨_, rfl⟩ := Ts.encodeBytes32_inv he
  obtain ⟨_, rfl⟩ := Ts.encodeBytes32_inv hp
  obtain ⟨_, rfl⟩ := Ts.encodeBytes32_inv hg
  have hsame : recomputed = c := by simpa using heq
  rw [← hsame, ← Outcome.ok.inj hhash]
  rfl

end HashFunction

/-! ## Hash checks on the stack -/

section HashCheck

variable (H : HashFunction)

/-- An item of a hash check on the stack; `none` when the script fails. -/
def runItem (item : Item) (stack : List (List UInt8)) : Option (List (List UInt8)) :=
  match item, stack with
  | .push data, stack => some (data :: stack)
  | .op 0xa8, top :: stack => some (H.hash top :: stack)
  | .op 0xaa, top :: stack => some (H.hash (H.hash top) :: stack)
  | .op 0x88, top :: below :: stack => if top = below then some stack else none
  | _, _ => none

/-- The items of a body one after the other. -/
def runItems : List Item → List (List UInt8) → Option (List (List UInt8))
  | [], stack => some stack
  | item :: rest, stack => (runItem H item stack).bind (runItems rest)

/-- A body up to its `OP_EQUALVERIFY`. -/
def upToEqualVerify : List Item → List Item
  | [] => []
  | item :: rest => if item = opEqualVerify then [item] else item :: upToEqualVerify rest

/-- **The preimage satisfies the hash check**: the selectors lead to a
body of the script, and what of it stands up to the `OP_EQUALVERIFY`
consumes the preimage and does not fail. -/
def PassesHashCheck (script : List UInt8) (selectors : List Bool) (preimage : List UInt8) : Prop :=
  ∃ items done, parse script = some items ∧
    execute id 0 [] selectors items = some (done, []) ∧
    runItems H (upToEqualVerify (done.map Prod.snd)) [preimage] = some []

variable {H}

theorem upToEqualVerify_hashCheck {hashOp : Item} {hash : String} {rest : List Item}
    (hop : hashOp ≠ opEqualVerify) :
    upToEqualVerify (hashCheck hashOp hash ++ rest) = hashCheck hashOp hash := by
  have hdata : data hash ≠ opEqualVerify := by simp [data, opEqualVerify]
  simp [hashCheck, upToEqualVerify, hop, hdata]

theorem runItems_hash256 (hash : String) (preimage : List UInt8) :
    runItems H (hashCheck opHash256 hash) [preimage] =
      if hexBytes hash = H.hash (H.hash preimage) then some [] else none := by
  simp [hashCheck, runItems, opHash256, opEqualVerify, data, runItem]

theorem runItems_sha256 (hash : String) (preimage : List UInt8) :
    runItems H (hashCheck opSha256 hash) [preimage] =
      if hexBytes hash = H.hash preimage then some [] else none := by
  simp [hashCheck, runItems, opSha256, opEqualVerify, data, runItem]

theorem map_snd_numbered (pos : Nat) (body : List Item) :
    (Branching.numbered pos body).map Prod.snd = body := by
  induction body generalizing pos with
  | nil => rfl
  | cons item body ih => rw [Branching.numbered, List.map_cons, ih]

/-- The check of a script whose selectors lead to a body. -/
theorem passesHashCheck_iff {script : List UInt8} {t : Branching} {selectors : List Bool}
    {pos : Nat} {body : List Item} {preimage : List UInt8} (hparse : parse script = some t.items)
    (hplain : t.Plain)
    (hleaf : t.descend id 0 selectors = some (Branching.numbered pos body, [])) :
    PassesHashCheck H script selectors preimage ↔
      runItems H (upToEqualVerify body) [preimage] = some [] := by
  have hrun : execute id 0 [] selectors t.items = some (Branching.numbered pos body, []) := by
    rw [Branching.execute_eq hplain, hleaf]
  constructor
  · rintro ⟨items, done, hitems, hdone, hcheck⟩
    rw [hparse] at hitems
    obtain rfl := Option.some.inj hitems
    rw [hrun] at hdone
    obtain rfl := congrArg Prod.fst (Option.some.inj hdone)
    rwa [map_snd_numbered] at hcheck
  · intro hcheck
    refine ⟨t.items, _, hparse, hrun, ?_⟩
    rwa [map_snd_numbered]

/-- A body that starts with `OP_HASH256`. -/
theorem passesHashCheck_hash256 {script : List UInt8} {t : Branching} {selectors : List Bool}
    {pos : Nat} {c : List UInt8} {rest : List Item} {preimage : List UInt8}
    (hparse : parse script = some t.items) (hplain : t.Plain)
    (hleaf : t.descend id 0 selectors =
      some (Branching.numbered pos (hashCheck opHash256 (Hex.encode c) ++ rest), [])) :
    PassesHashCheck H script selectors preimage ↔ c = H.hash (H.hash preimage) := by
  rw [passesHashCheck_iff hparse hplain hleaf, upToEqualVerify_hashCheck (by decide),
    runItems_hash256, hexBytes_encode]
  simp

/-- A body that starts with `OP_SHA256`. -/
theorem passesHashCheck_sha256 {script : List UInt8} {t : Branching} {selectors : List Bool}
    {pos : Nat} {c : List UInt8} {rest : List Item} {preimage : List UInt8}
    (hparse : parse script = some t.items) (hplain : t.Plain)
    (hleaf : t.descend id 0 selectors =
      some (Branching.numbered pos (hashCheck opSha256 (Hex.encode c) ++ rest), [])) :
    PassesHashCheck H script selectors preimage ↔ c = H.hash preimage := by
  rw [passesHashCheck_iff hparse hplain hleaf, upToEqualVerify_hashCheck (by decide),
    runItems_sha256, hexBytes_encode]
  simp

end HashCheck

/-! ## Reveals on and off the chain -/

/-- A preimage to be shown on the chain: what was committed to, and the
parameters of the script that checks it, less the commitment. -/
inductive Reveal where
  /-- a card, checked by `buildRevealProofScript` -/
  | proof (proof : CardProof) (signerPubkey : String)
  /-- a card, checked by the reveal branch of `buildCardCustody` -/
  | custody (proof : CardProof) (holderPubkey originalFunderPubkey : String)
      (recoveryHeight : SafeNat)
  /-- entropy, checked by the reveal branch of `buildEntropyCommit` -/
  | entropy (entropy playerId gameId : List UInt8) (playerPubkey : String)
      (otherPubkeys : List String) (decisionTimeoutBlocks : JsNumber) (recoveryHeight : SafeNat)

namespace Reveal

/-- The tagged preimage. -/
def preimage : Reveal → List UInt8
  | proof opening _ => opening.preimage
  | custody opening _ _ _ => opening.preimage
  | entropy e p g _ _ _ _ => entropyPreimage e p g

/-- The check off the chain accepts it against the commitment. -/
def Accepted (H : HashFunction) (c : List UInt8) : Reveal → Prop
  | proof opening _ => H.verifyRevealProof c opening = .ok true
  | custody opening _ _ _ => H.verifyRevealProof c opening = .ok true
  | entropy e p g _ _ _ _ => H.verifyEntropyReveal c e p g = .ok true

/-- The template that locks to the commitment. -/
def template (c : List UInt8) : Reveal → TemplateParams
  | proof _ signer => .revealProof ⟨Hex.encode c, signer⟩
  | custody _ holder funder height => .cardCustody ⟨Hex.encode c, holder, funder, height⟩
  | entropy _ _ _ player others blocks height =>
      .entropyCommit ⟨Hex.encode c, player, others, blocks, height⟩

/-- The selectors of the reveal branch. -/
def selectors : Reveal → List Bool
  | proof _ _ => []
  | custody _ _ _ _ => [true]
  | entropy _ _ _ _ _ _ _ => [true]

/-- The reveal is one of entropy. -/
def OfEntropy : Reveal → Prop
  | proof _ _ => False
  | custody _ _ _ _ => False
  | entropy _ _ _ _ _ _ _ => True

/-- **The two checks agree for entropy, and for a card only at a fixed
point of the hash.** The scripts for cards hash the preimage once more
than `verifyRevealProof` does. -/
theorem passes_iff (H : HashFunction) (r : Reveal) (c script : List UInt8)
    (haccepted : r.Accepted H c) (hscript : (r.template c).build = .ok script) :
    PassesHashCheck H script r.selectors r.preimage ↔ r.OfEntropy ∨ H.hash c = c := by
  obtain ⟨hvalid, rfl⟩ := TemplateParams.build_eq_ok_iff.mp hscript
  have hparse := TemplateParams.parse_documented hvalid
  have hplain := (TemplateParams.wellFormed_documented hvalid).plain
  cases r with
  | proof opening signer =>
      have hhash := HashFunction.hash_of_verifyRevealProof haccepted
      refine (passesHashCheck_hash256 hparse hplain rfl).trans ?_
      rw [preimage, hhash]
      simp [OfEntropy, eq_comm]
  | custody opening holder funder height =>
      have hhash := HashFunction.hash_of_verifyRevealProof haccepted
      refine (passesHashCheck_hash256 hparse hplain rfl).trans ?_
      rw [preimage, hhash]
      simp [OfEntropy, eq_comm]
  | entropy e p g player others blocks height =>
      have hhash := HashFunction.hash_of_verifyEntropyReveal haccepted
      refine (passesHashCheck_sha256 hparse hplain rfl).trans ?_
      rw [preimage, hhash]
      simp [OfEntropy]

def sevens (_ : List UInt8) : List UInt8 := List.replicate 32 7

theorem length_sevens (bytes : List UInt8) : (sevens bytes).length = 32 := List.length_replicate

/-- A hash with a fixed point. -/
def constantHash : HashFunction := ⟨sevens, length_sevens⟩

/-- A card with its two nonces, and the key of the player who shows it. -/
def sampleOpening : Reveal :=
  .proof ⟨7, List.replicate 32 1, List.replicate 32 2⟩
    "02aaaaaaaaaaaaaaaaaaaaaaaaaaaaaaaaaaaaaaaaaaaaaaaaaaaaaaaaaaaaaaaa"

theorem sampleOpening_valid {c : List UInt8} (hc : c.length = 32) :
    (sampleOpening.template c).Valid := by
  refine ⟨isHex64_encode hc, ?_⟩
  show isPubkey33 "02aaaaaaaaaaaaaaaaaaaaaaaaaaaaaaaaaaaaaaaaaaaaaaaaaaaaaaaaaaaaaaaa" = true
  decide

theorem passes_iff_sample :
    PassesHashCheck constantHash
        (write (sampleOpening.template (List.replicate 32 7)).documented.items)
        sampleOpening.selectors sampleOpening.preimage ↔
      sampleOpening.OfEntropy ∨
        constantHash.hash (List.replicate 32 7) = List.replicate 32 7 :=
  passes_iff constantHash sampleOpening (List.replicate 32 7) _ rfl
    (TemplateParams.build_eq_ok_iff.mpr ⟨sampleOpening_valid List.length_replicate, rfl⟩)

/-- The commitment of the sample. -/
def sampleCommitment : List UInt8 := Sha256.sha256 sampleOpening.preimage

/-- **An honest reveal the script refuses**: accepted off the chain, and
its preimage fails the check of the script locked to the same
commitment. -/
theorem honest_card_refused :
    sampleOpening.Accepted HashFunction.sha256 sampleCommitment ∧
      ∃ script, (sampleOpening.template sampleCommitment).build = .ok script ∧
        ¬PassesHashCheck HashFunction.sha256 script sampleOpening.selectors
          sampleOpening.preimage := by
  have hvalid : (sampleOpening.template sampleCommitment).Valid :=
    sampleOpening_valid (Sha256.length_sha256 _)
  have haccepted : sampleOpening.Accepted HashFunction.sha256 sampleCommitment := by
    have hcommit : HashFunction.sha256.commitCard 7 (List.replicate 32 1) (List.replicate 32 2) =
        .ok sampleCommitment := by
      rw [HashFunction.commitCard, if_neg (by decide), encodeBytes32_eq_ok List.length_replicate,
        encodeBytes32_eq_ok List.length_replicate]
      rfl
    show HashFunction.sha256.verifyRevealProof sampleCommitment _ = _
    rw [HashFunction.verifyRevealProof, hcommit, Outcome.ok_bind, beq_self_eq_true]
    rfl
  have htwice : Sha256.sha256 sampleOpening.preimage ≠
      Sha256.sha256 (Sha256.sha256 sampleOpening.preimage) := by
    decide +kernel
  refine ⟨haccepted, _, TemplateParams.build_eq_ok_iff.mpr ⟨hvalid, rfl⟩, ?_⟩
  intro hpass
  have hparse := TemplateParams.parse_documented hvalid
  have hplain := (TemplateParams.wellFormed_documented hvalid).plain
  exact htwice ((passesHashCheck_hash256 hparse hplain rfl).mp hpass)

end Reveal

end CardTable.Ts
