import CardTable.Ts.ScriptWriter

/-!
# Ts.Templates — the script builders

`packages/script-templates/src`, one builder a template. Each writes the
locking script item by item and returns it, most of them with the table
of the branches and their lock times.
-/

namespace CardTable.Ts

open Basis Basis.Script

/-- `BranchSpec`. -/
structure BranchSpec where
  name : String
  locktime : ScriptLockTimeSpec
  deriving DecidableEq, Repr

/-- A locking script with its branches: `BuiltTemplate`, `BuiltStakeLock`
and their peers. -/
structure BuiltTemplate where
  lockingScript : List UInt8
  branches : List BranchSpec
  deriving DecidableEq, Repr

/-- A locking script with its lock time: `BuiltTimeoutBranch`,
`BuiltRecoveryBranch`. -/
structure BuiltBranch where
  lockingScript : List UInt8
  locktime : ScriptLockTimeSpec
  deriving DecidableEq, Repr

/-! ## table-root.ts -/

structure TableRootParams where
  seatedPubkeys : List String
  recoveryHeight : SafeNat

def buildTableRoot (p : TableRootParams) : Js BuiltTemplate :=
  if p.seatedPubkeys.length = 0 then .halt "buildTableRoot: at least one pubkey required"
  else if 16 < p.seatedPubkeys.length then
    let count := p.seatedPubkeys.length
    .halt s!"buildTableRoot: seat count {count} exceeds v1 max of 16"
  else do
    let w := ScriptWriter.new
    let w ← w.pushNumber p.seatedPubkeys.length
    let w ← w.pushPubkeys p.seatedPubkeys
    let w ← w.pushNumber p.seatedPubkeys.length
    let w ← w.op OP.OP_CHECKMULTISIG
    pure
      { lockingScript := w.bytes
        branches := [⟨"cooperative", .immediate⟩, ⟨"recovery", absoluteHeight p.recoveryHeight⟩] }

/-! ## stake-lock.ts -/

structure StakeLockParams where
  playerPubkey : String
  operatorPubkey : String
  expectedSettlementHash : String
  recoveryHeight : SafeNat

def buildStakeLock (p : StakeLockParams) : Js BuiltTemplate := do
  let w := ScriptWriter.new
  let w ← w.op OP.OP_IF
  -- 1. cooperative settle: 2-of-2 player + operator
  let w ← w.pushNumber 2
  let w ← w.pushPubkey p.playerPubkey
  let w ← w.pushPubkey p.operatorPubkey
  let w ← w.pushNumber 2
  let w ← w.op OP.OP_CHECKMULTISIG
  let w ← w.op OP.OP_ELSE
  let w ← w.op OP.OP_IF
  -- 2. winner claim: settlement preimage + player sig
  let w ← w.op OP.OP_HASH256
  let w ← w.pushHash32 p.expectedSettlementHash
  let w ← w.op OP.OP_EQUALVERIFY
  let w ← w.pushPubkey p.playerPubkey
  let w ← w.op OP.OP_CHECKSIG
  let w ← w.op OP.OP_ELSE
  -- 3. refund: player signature
  let w ← w.pushPubkey p.playerPubkey
  let w ← w.op OP.OP_CHECKSIG
  let w ← w.op OP.OP_ENDIF
  let w ← w.op OP.OP_ENDIF
  pure
    { lockingScript := w.bytes
      branches := [⟨"cooperative", .immediate⟩, ⟨"winner_claim", .immediate⟩,
        ⟨"refund", absoluteHeight p.recoveryHeight⟩] }

/-! ## pot-lock.ts -/

structure PotLockParams where
  seatedPubkeys : List String
  winnerProofHash : String
  winnerPubkey : String
  refundPubkey : String
  recoveryHeight : SafeNat

def buildPotLock (p : PotLockParams) : Js BuiltTemplate :=
  if p.seatedPubkeys.length = 0 then .halt "buildPotLock: at least one pubkey required"
  else if 16 < p.seatedPubkeys.length then
    .halt "buildPotLock: seat count > 16 not supported in v1"
  else do
    let w := ScriptWriter.new
    let w ← w.op OP.OP_IF
    -- cooperative n-of-n
    let w ← w.pushNumber p.seatedPubkeys.length
    let w ← w.pushPubkeys p.seatedPubkeys
    let w ← w.pushNumber p.seatedPubkeys.length
    let w ← w.op OP.OP_CHECKMULTISIG
    let w ← w.op OP.OP_ELSE
    let w ← w.op OP.OP_IF
    -- winner claim: SHA-256 preimage + winner sig
    let w ← w.op OP.OP_SHA256
    let w ← w.pushHash32 p.winnerProofHash
    let w ← w.op OP.OP_EQUALVERIFY
    let w ← w.pushPubkey p.winnerPubkey
    let w ← w.op OP.OP_CHECKSIG
    let w ← w.op OP.OP_ELSE
    -- refund: bare signature
    let w ← w.pushPubkey p.refundPubkey
    let w ← w.op OP.OP_CHECKSIG
    let w ← w.op OP.OP_ENDIF
    let w ← w.op OP.OP_ENDIF
    pure
      { lockingScript := w.bytes
        branches := [⟨"cooperative", .immediate⟩, ⟨"winner_claim", .immediate⟩,
          ⟨"refund", absoluteHeight p.recoveryHeight⟩] }

/-! ## entropy-commit.ts -/

structure EntropyCommitParams where
  commitmentHash : String
  playerPubkey : String
  otherPubkeys : List String
  decisionTimeoutBlocks : JsNumber
  recoveryHeight : SafeNat

def buildEntropyCommit (p : EntropyCommitParams) : Js BuiltTemplate := do
  let w := ScriptWriter.new
  let w ← w.op OP.OP_IF
  -- 1. reveal branch
  let w ← w.op OP.OP_SHA256
  let w ← w.pushHash32 p.commitmentHash
  let w ← w.op OP.OP_EQUALVERIFY
  let w ← w.pushPubkey p.playerPubkey
  let w ← w.op OP.OP_CHECKSIG
  let w ← w.op OP.OP_ELSE
  let w ← w.op OP.OP_IF
  -- 2. cooperative fallback; with no counterparties `OP_RETURN` poisons it
  let w ←
    if p.otherPubkeys.length = 0 then w.op OP.OP_RETURN
    else if 16 < p.otherPubkeys.length then
      .halt "buildEntropyCommit: other_pubkeys > 16 not supported in v1"
    else do
      let w ← w.pushNumber p.otherPubkeys.length
      let w ← w.pushPubkeys p.otherPubkeys
      let w ← w.pushNumber p.otherPubkeys.length
      w.op OP.OP_CHECKMULTISIG
  let w ← w.op OP.OP_ELSE
  -- 3. refund: bare player signature
  let w ← w.pushPubkey p.playerPubkey
  let w ← w.op OP.OP_CHECKSIG
  let w ← w.op OP.OP_ENDIF
  let w ← w.op OP.OP_ENDIF
  let fallback ← relativeBlocks p.decisionTimeoutBlocks
  pure
    { lockingScript := w.bytes
      branches := [⟨"reveal", .immediate⟩, ⟨"cooperative_fallback", fallback⟩,
        ⟨"refund", absoluteHeight p.recoveryHeight⟩] }

/-! ## card-custody.ts -/

structure CardCustodyParams where
  faceCommitment : String
  holderPubkey : String
  originalFunderPubkey : String
  recoveryHeight : SafeNat

def buildCardCustody (p : CardCustodyParams) : Js BuiltTemplate := do
  let w := ScriptWriter.new
  let w ← w.op OP.OP_IF
  let w ← w.op OP.OP_HASH256
  let w ← w.pushHash32 p.faceCommitment
  let w ← w.op OP.OP_EQUALVERIFY
  let w ← w.pushPubkey p.holderPubkey
  let w ← w.op OP.OP_CHECKSIG
  let w ← w.op OP.OP_ELSE
  let w ← w.op OP.OP_IF
  -- fold surrender: bare holder sig, no preimage
  let w ← w.pushPubkey p.holderPubkey
  let w ← w.op OP.OP_CHECKSIG
  let w ← w.op OP.OP_ELSE
  -- recovery refund: bare funder sig
  let w ← w.pushPubkey p.originalFunderPubkey
  let w ← w.op OP.OP_CHECKSIG
  let w ← w.op OP.OP_ENDIF
  let w ← w.op OP.OP_ENDIF
  pure
    { lockingScript := w.bytes
      branches := [⟨"reveal", .immediate⟩, ⟨"fold_surrender", .immediate⟩,
        ⟨"recovery_refund", absoluteHeight p.recoveryHeight⟩] }

/-! ## fold-surrender.ts -/

structure FoldSurrenderParams where
  originalFunderPubkey : String
  recoveryHeight : SafeNat

def buildFoldSurrender (p : FoldSurrenderParams) : Js BuiltTemplate := do
  let w := ScriptWriter.new
  let w ← w.pushPubkey p.originalFunderPubkey
  let w ← w.op OP.OP_CHECKSIG
  pure
    { lockingScript := w.bytes
      branches := [⟨"recovery_refund", absoluteHeight p.recoveryHeight⟩] }

/-! ## round-state.ts -/

structure RoundStateParams where
  successorTemplateHash : String
  timeoutTemplateHash : String
  actingPlayerPubkey : String
  seatedPubkeys : List String
  decisionTimeoutBlocks : JsNumber
  recoveryHeight : SafeNat

def buildRoundState (p : RoundStateParams) : Js BuiltTemplate :=
  if p.seatedPubkeys.length = 0 then
    .halt "buildRoundState: at least one seated pubkey required"
  else if 16 < p.seatedPubkeys.length then
    .halt "buildRoundState: seat count > 16 not supported in v1"
  else do
    let w := ScriptWriter.new
    let w ← w.op OP.OP_IF
    -- action branch
    let w ← w.op OP.OP_HASH256
    let w ← w.pushHash32 p.successorTemplateHash
    let w ← w.op OP.OP_EQUALVERIFY
    let w ← w.pushPubkey p.actingPlayerPubkey
    let w ← w.op OP.OP_CHECKSIG
    let w ← w.op OP.OP_ELSE
    let w ← w.op OP.OP_IF
    -- timeout branch: preimage + multisig
    let w ← w.op OP.OP_HASH256
    let w ← w.pushHash32 p.timeoutTemplateHash
    let w ← w.op OP.OP_EQUALVERIFY
    let w ← w.pushNumber p.seatedPubkeys.length
    let w ← w.pushPubkeys p.seatedPubkeys
    let w ← w.pushNumber p.seatedPubkeys.length
    let w ← w.op OP.OP_CHECKMULTISIG
    let w ← w.op OP.OP_ELSE
    -- recovery branch: multisig only
    let w ← w.pushNumber p.seatedPubkeys.length
    let w ← w.pushPubkeys p.seatedPubkeys
    let w ← w.pushNumber p.seatedPubkeys.length
    let w ← w.op OP.OP_CHECKMULTISIG
    let w ← w.op OP.OP_ENDIF
    let w ← w.op OP.OP_ENDIF
    let timeout ← relativeBlocks p.decisionTimeoutBlocks
    pure
      { lockingScript := w.bytes
        branches := [⟨"action", .immediate⟩, ⟨"timeout", timeout⟩,
          ⟨"recovery", absoluteHeight p.recoveryHeight⟩] }

/-! ## settle-claim.ts, reveal-proof.ts -/

/-- The two scripts that check a preimage and a signature: they differ in
the names of their parameters. -/
def hashAndSignature (hash pubkey : String) : Js (List UInt8) := do
  let w := ScriptWriter.new
  let w ← w.op OP.OP_HASH256
  let w ← w.pushHash32 hash
  let w ← w.op OP.OP_EQUALVERIFY
  let w ← w.pushPubkey pubkey
  let w ← w.op OP.OP_CHECKSIG
  pure w.bytes

structure SettleClaimParams where
  settlementCommitment : String
  winnerPubkey : String

def buildSettleClaimScript (p : SettleClaimParams) : Js (List UInt8) :=
  hashAndSignature p.settlementCommitment p.winnerPubkey

structure RevealProofParams where
  cardCommitment : String
  signerPubkey : String

def buildRevealProofScript (p : RevealProofParams) : Js (List UInt8) :=
  hashAndSignature p.cardCommitment p.signerPubkey

/-! ## recovery.ts -/

structure RecoveryBranchParams where
  recoveryHeight : SafeNat
  signerPubkey : String

def buildRecoveryBranchTemplate (p : RecoveryBranchParams) : Js BuiltBranch := do
  let w := ScriptWriter.new
  let w ← w.pushPubkey p.signerPubkey
  let w ← w.op OP.OP_CHECKSIG
  pure { lockingScript := w.bytes, locktime := absoluteHeight p.recoveryHeight }

/-! ## timeout-branch.ts -/

structure TimeoutBranchParams where
  decisionTimeoutBlocks : JsNumber
  timeoutTemplateHash : String
  authoriserPubkeys : List String

def buildTimeoutBranch (p : TimeoutBranchParams) : Js BuiltBranch :=
  if p.authoriserPubkeys.length = 0 then
    .halt "buildTimeoutBranch: at least one authoriser required"
  else if 16 < p.authoriserPubkeys.length then
    .halt "buildTimeoutBranch: authoriser count > 16 not supported in v1"
  else do
    let w := ScriptWriter.new
    let w ← w.op OP.OP_HASH256
    let w ← w.pushHash32 p.timeoutTemplateHash
    let w ← w.op OP.OP_EQUALVERIFY
    let w ← w.pushNumber p.authoriserPubkeys.length
    let w ← w.pushPubkeys p.authoriserPubkeys
    let w ← w.pushNumber p.authoriserPubkeys.length
    let w ← w.op OP.OP_CHECKMULTISIG
    let locktime ← relativeBlocks p.decisionTimeoutBlocks
    pure { lockingScript := w.bytes, locktime := locktime }

end CardTable.Ts
