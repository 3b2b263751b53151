import CardTable.Fallback
import CardTable.Templates
import CardTable.Transaction

/-!
# Gates — the time gates of the pre-signed transactions

`packages/state-engine/src/fallback-build.ts` and `tx-orchestrator.ts`.
The enumeration names a lock time for each branch. The bridge to the
scripts takes the numbers from its context instead, and the transaction
builders encode what the bridge hands on: a delay in the low bits of
`nSequence`, a height in `nLockTime`.
-/

namespace CardTable.Ts

open Basis Tx

/-! ## fallback-build.ts -/

/-- What the orchestrator supplies to materialise the graph. -/
structure BuildContext where
  decisionTimeoutBlocks : JsNumber
  recoveryHeight : SafeNat
  timeoutAuthorisers : List String
  timeoutTemplateHash : String
  recoverySigner : String

/-- A materialised branch. -/
structure BuiltFallbackBranch where
  branch : FallbackBranch
  lockingScript : Option (List UInt8)
  locktime : Option ScriptLockTimeSpec
  deriving DecidableEq, Repr

/-- The callback of `materialiseFallbackGraph`. -/
def materialiseBranch (ctx : BuildContext) (b : FallbackBranch) : Js BuiltFallbackBranch :=
  match b.kind with
  | .timeout => do
      let built ← buildTimeoutBranch
        { decisionTimeoutBlocks := ctx.decisionTimeoutBlocks
          timeoutTemplateHash := ctx.timeoutTemplateHash
          authoriserPubkeys := ctx.timeoutAuthorisers }
      pure ⟨b, some built.lockingScript, some built.locktime⟩
  | .recovery => do
      let built ← buildRecoveryBranchTemplate
        { recoveryHeight := ctx.recoveryHeight, signerPubkey := ctx.recoverySigner }
      pure ⟨b, some built.lockingScript, some built.locktime⟩
  -- cooperative branches use the templates of their states
  | .cooperative => .ok ⟨b, none, none⟩

def materialiseFallbackGraph (branches : List FallbackBranch) (ctx : BuildContext) :
    Js (List BuiltFallbackBranch) :=
  match branches with
  | [] => .ok []
  | b :: rest => do
      let built ← materialiseBranch ctx b
      let more ← materialiseFallbackGraph rest ctx
      pure (built :: more)

/-! ## tx-orchestrator.ts -/

/-- Where a transaction spends from. -/
structure PrevOutpoint where
  prevTxid : List UInt8
  prevVout : UInt32
  prevValue : UInt64

/-- Where its value goes. -/
structure SuccessorOutput where
  value : UInt64
  lockingScript : List UInt8

def txVersion : Int32 := 2
def sequenceFinal : UInt32 := 0xffffffff

def nSequenceForBlocks (blocks : Int) : Js UInt32 :=
  if blocks < 0 ∨ 0xffff < blocks then
    .halt s!"nSequenceForBlocks: out of [0, 65535]: {blocks}"
  else .ok (UInt32.ofNat (blocks.toNat &&& 0x0000ffff))

def FallbackKind.text : FallbackKind → String
  | .cooperative => "cooperative"
  | .timeout => "timeout"
  | .recovery => "recovery"

/-- The unsigned transaction from an outpoint to its successor. -/
def unsignedTx (prev : PrevOutpoint) (successor : SuccessorOutput) (sequence lockTime : UInt32) :
    BsvTransaction where
  version := txVersion
  inputs :=
    [{ prevTxid := prev.prevTxid, prevVout := prev.prevVout, unlockingScript := []
       sequence := sequence }]
  outputs := [{ value := successor.value, lockingScript := successor.lockingScript }]
  lockTime := lockTime

def buildTimeoutTx (branch : BuiltFallbackBranch) (prev : PrevOutpoint)
    (successor : SuccessorOutput) : Js BsvTransaction :=
  if branch.branch.kind ≠ .timeout then
    let got := branch.branch.kind.text
    .halt s!"buildTimeoutTx: expected branch kind 'timeout', got '{got}'"
  else match branch.locktime with
  | some (.relativeBlocks blocks) => do
      let sequence ← nSequenceForBlocks blocks
      pure (unsignedTx prev successor sequence 0)
  | _ => .halt "buildTimeoutTx: branch.locktime must be relative_blocks"

def buildRecoveryTx (branch : BuiltFallbackBranch) (prev : PrevOutpoint)
    (successor : SuccessorOutput) : Js BsvTransaction :=
  if branch.branch.kind ≠ .recovery then
    let got := branch.branch.kind.text
    .halt s!"buildRecoveryTx: expected branch kind 'recovery', got '{got}'"
  else match branch.locktime with
  | some (.absoluteHeight height _) =>
      if 500000000 ≤ height.val then
        let got := height.val
        .halt
          s!"buildRecoveryTx: height {got} would be interpreted as a Unix timestamp by consensus"
      else .ok (unsignedTx prev successor (sequenceFinal - 1) (UInt32.ofNat height.val))
  | _ => .halt "buildRecoveryTx: branch.locktime must be absolute_height"

/-! ## What a gate is -/

/-- The transaction carries the lock time. A delay is a single input
whose `nSequence` counts blocks (bits 31 and 22 clear) in its low 16
bits; a height is an `nLockTime` below the timestamps, made active by an
input that is not final. -/
def Carries (tx : BsvTransaction) : LockTimeSpec → Prop
  | .immediate => False
  | .relativeBlocks blocks => tx.version = 2 ∧ tx.lockTime = 0 ∧ ∃ i, tx.inputs = [i] ∧
      i.sequence.toNat.testBit 31 = false ∧ i.sequence.toNat.testBit 22 = false ∧
      ((i.sequence.toNat % 65536 : Nat) : Int) = blocks
  | .absoluteHeight height => tx.lockTime.toNat = height.val ∧ height.val < 500000000 ∧
      ∃ i, tx.inputs = [i] ∧ i.sequence ≠ 0xffffffff

/-- The lock time the context has for a branch. -/
def BuildContext.lockTimeSpec (ctx : BuildContext) : FallbackKind → LockTimeSpec
  | .cooperative => .immediate
  | .timeout => .relativeBlocks ctx.decisionTimeoutBlocks.value
  | .recovery => .absoluteHeight ctx.recoveryHeight

/-- A transaction carries at most one delay. -/
theorem Carries.relativeBlocks_inj {tx : BsvTransaction} {m n : Int}
    (hm : Carries tx (.relativeBlocks m)) : Carries tx (.relativeBlocks n) ↔ n = m := by
  obtain ⟨hversion, hlock, i, hinputs, h31, h22, rfl⟩ := hm
  constructor
  · rintro ⟨_, _, j, hj, _, _, rfl⟩
    rw [hinputs] at hj
    obtain rfl := List.singleton_inj.mp hj
    rfl
  · rintro rfl
    exact ⟨hversion, hlock, i, hinputs, h31, h22, rfl⟩

/-- A transaction carries at most one height. -/
theorem Carries.absoluteHeight_inj {tx : BsvTransaction} {g h : SafeNat}
    (hg : Carries tx (.absoluteHeight g)) : Carries tx (.absoluteHeight h) ↔ h = g := by
  constructor
  · rintro ⟨hlock, _⟩
    exact SafeNat.ext (hlock.symm.trans hg.1)
  · rintro rfl
    exact hg

/-! ## What the builders return -/

variable {ctx : BuildContext} {b : FallbackBranch} {built : BuiltFallbackBranch}
  {prev : PrevOutpoint} {successor : SuccessorOutput} {tx : BsvTransaction}

/-- **A materialised branch carries the numbers of the context.** -/
theorem materialiseBranch_eq_ok (h : materialiseBranch ctx b = .ok built) :
    built.branch = b ∧ built.locktime =
      match b.kind with
      | .cooperative => none
      | .timeout => some (.relativeBlocks ctx.decisionTimeoutBlocks.value)
      | .recovery => some (absoluteHeight ctx.recoveryHeight) := by
  unfold materialiseBranch at h
  cases hkind : b.kind with
  | cooperative =>
      rw [hkind] at h
      cases h
      exact ⟨rfl, rfl⟩
  | timeout =>
      rw [hkind] at h
      obtain ⟨t, ht, hbuilt⟩ := Outcome.bind_eq_ok.mp h
      obtain ⟨_, rfl⟩ := buildTimeoutBranch_eq_ok_iff.mp ht
      cases hbuilt
      exact ⟨rfl, rfl⟩
  | recovery =>
      rw [hkind] at h
      obtain ⟨t, ht, hbuilt⟩ := Outcome.bind_eq_ok.mp h
      obtain ⟨_, rfl⟩ := buildRecoveryBranchTemplate_eq_ok_iff.mp ht
      cases hbuilt
      exact ⟨rfl, rfl⟩

/-- A branch of the materialised graph was materialised from one that was
enumerated. -/
theorem mem_materialiseFallbackGraph {branches : List FallbackBranch}
    {graph : List BuiltFallbackBranch} (h : materialiseFallbackGraph branches ctx = .ok graph)
    (hmem : built ∈ graph) : ∃ b ∈ branches, materialiseBranch ctx b = .ok built := by
  induction branches generalizing graph with
  | nil =>
      cases h
      cases hmem
  | cons b rest ih =>
      obtain ⟨first, hfirst, h⟩ := Outcome.bind_eq_ok.mp h
      obtain ⟨more, hmore, h⟩ := Outcome.bind_eq_ok.mp h
      cases h
      rcases List.mem_cons.mp hmem with rfl | hmem
      · exact ⟨b, List.mem_cons_self, hfirst⟩
      · obtain ⟨c, hc, hbuilt⟩ := ih hmore hmem
        exact ⟨c, List.mem_cons_of_mem _ hc, hbuilt⟩

theorem nSequenceForBlocks_eq_ok {blocks : Int} {sequence : UInt32}
    (h : nSequenceForBlocks blocks = .ok sequence) : (sequence.toNat : Int) = blocks ∧
      sequence.toNat < 65536 := by
  unfold nSequenceForBlocks at h
  split at h
  · cases h
  · rename_i hrange
    cases h
    have hmask : blocks.toNat &&& 0x0000ffff = blocks.toNat % 65536 :=
      Nat.and_two_pow_sub_one_eq_mod blocks.toNat 16
    rw [hmask, UInt32.toNat_ofNat']
    omega

/-- A delay fits its sixteen bits. -/
theorem carries_relativeBlocks {blocks : Int} {sequence : UInt32}
    (h : nSequenceForBlocks blocks = .ok sequence) :
    Carries (unsignedTx prev successor sequence 0) (.relativeBlocks blocks) := by
  obtain ⟨hval, hlt⟩ := nSequenceForBlocks_eq_ok h
  refine ⟨rfl, rfl, _, rfl, ?_, ?_, ?_⟩
  · exact Nat.testBit_lt_two_pow (by dsimp only; omega)
  · exact Nat.testBit_lt_two_pow (by dsimp only; omega)
  · dsimp only
    rw [Nat.mod_eq_of_lt hlt, hval]

/-- A transaction of a timeout branch. -/
theorem buildTimeoutTx_eq_ok (hbuilt : materialiseBranch ctx b = .ok built)
    (h : buildTimeoutTx built prev successor = .ok tx) :
    b.kind = .timeout ∧ Carries tx (.relativeBlocks ctx.decisionTimeoutBlocks.value) := by
  obtain ⟨rfl, hlocktime⟩ := materialiseBranch_eq_ok hbuilt
  unfold buildTimeoutTx at h
  split at h
  · cases h
  · rename_i hkind
    have hkind : built.branch.kind = .timeout := Decidable.not_not.mp hkind
    rw [hkind] at hlocktime
    dsimp only at hlocktime
    rw [hlocktime] at h
    obtain ⟨sequence, hsequence, htx⟩ := Outcome.bind_eq_ok.mp h
    cases htx
    exact ⟨hkind, carries_relativeBlocks hsequence⟩

/-- A transaction of a recovery branch. -/
theorem buildRecoveryTx_eq_ok (hbuilt : materialiseBranch ctx b = .ok built)
    (h : buildRecoveryTx built prev successor = .ok tx) :
    b.kind = .recovery ∧ Carries tx (.absoluteHeight ctx.recoveryHeight) := by
  obtain ⟨rfl, hlocktime⟩ := materialiseBranch_eq_ok hbuilt
  unfold buildRecoveryTx at h
  split at h
  · cases h
  · rename_i hkind
    have hkind : built.branch.kind = .recovery := Decidable.not_not.mp hkind
    rw [hkind] at hlocktime
    dsimp only at hlocktime
    rw [hlocktime] at h
    dsimp only [absoluteHeight] at h
    split at h
    · cases h
    · rename_i hheight
      cases h
      refine ⟨hkind, ?_, Nat.not_le.mp hheight, _, rfl, ?_⟩
      · show (UInt32.ofNat ctx.recoveryHeight.val).toNat = _
        rw [UInt32.toNat_ofNat']
        omega
      · exact (by decide : sequenceFinal - 1 ≠ 0xffffffff)

/-! ## The enumerated gate -/

/-- The context has the number the branch was enumerated with: the delay
of the rule set, the recovery deadline of the table. -/
def BuildContext.Agrees (ctx : BuildContext) (rules : FallbackRules) (deadline : SafeNat) :
    FallbackKind → Prop
  | .cooperative => True
  | .timeout => ctx.decisionTimeoutBlocks.value = rules.decisionTimeoutBlocks
  | .recovery => ctx.recoveryHeight = deadline

variable {rules : FallbackRules} {state : RoundState} {gameId ruleSetHash : String}
  {deadline : SafeNat} {hist : List ((SignedAction × SafeNat) × RoundState)}

/-- The lock times of a graph, by kind. -/
theorem lockTimeSpec_of_mem (hdeadline : state.recoveryDeadlineBlockHeight = some deadline)
    (h : b ∈ enumerateFallbackGraph state rules) : b.lockTimeSpec =
      match b.kind with
      | .cooperative => .immediate
      | .timeout => .relativeBlocks rules.decisionTimeoutBlocks
      | .recovery => .absoluteHeight deadline := by
  simp only [enumerateFallbackGraph, List.mem_append, hdeadline] at h
  rcases h with (h | h) | h
  · split at h
    · cases h
    · cases List.mem_singleton.mp h
      rfl
  · split at h
    · cases h
    · cases List.mem_singleton.mp h
      rfl
  · cases List.mem_singleton.mp h
    rfl

/-- **A pre-signed transaction carries the gate of the context**, and the
gate the branch was enumerated with exactly when the context has the same
number. -/
theorem carries_context
    (hrun : Run rules.toRuleSet (initialState gameId ruleSetHash deadline) hist state)
    {graph : List BuiltFallbackBranch}
    (hgraph : materialiseFallbackGraph (enumerateFallbackGraph state rules) ctx = .ok graph)
    (hmem : built ∈ graph)
    (htx : buildTimeoutTx built prev successor = .ok tx ∨
      buildRecoveryTx built prev successor = .ok tx) :
    Carries tx (ctx.lockTimeSpec built.branch.kind) ∧
      (Carries tx built.branch.lockTimeSpec ↔ ctx.Agrees rules deadline built.branch.kind) := by
  obtain ⟨_, hrecovery, _⟩ := identity_of_run hrun
  obtain ⟨b, hb, hbuilt⟩ := mem_materialiseFallbackGraph hgraph hmem
  have hspec := lockTimeSpec_of_mem hrecovery hb
  obtain ⟨rfl, _⟩ := materialiseBranch_eq_ok hbuilt
  rcases htx with htimeout | hrecover
  · obtain ⟨hkind, hcarries⟩ := buildTimeoutTx_eq_ok hbuilt htimeout
    rw [hkind] at hspec ⊢
    rw [hspec, hcarries.relativeBlocks_inj]
    exact ⟨hcarries, eq_comm⟩
  · obtain ⟨hkind, hcarries⟩ := buildRecoveryTx_eq_ok hbuilt hrecover
    rw [hkind] at hspec ⊢
    rw [hspec, hcarries.absoluteHeight_inj]
    exact ⟨hcarries, eq_comm⟩

/-! ## A context with a height of its own -/

/-- A context for recovery at the given height. -/
def sampleContext (height : SafeNat) : BuildContext where
  decisionTimeoutBlocks := .integer 6
  recoveryHeight := height
  timeoutAuthorisers := ["02aaaaaaaaaaaaaaaaaaaaaaaaaaaaaaaaaaaaaaaaaaaaaaaaaaaaaaaaaaaaaaaa"]
  timeoutTemplateHash := "cccccccccccccccccccccccccccccccccccccccccccccccccccccccccccccccc"
  recoverySigner := "03bbbbbbbbbbbbbbbbbbbbbbbbbbbbbbbbbbbbbbbbbbbbbbbbbbbbbbbbbbbbbbbb"

/-- The recovery branch of a new table whose deadline is 244. -/
def sampleBranch : FallbackBranch :=
  ⟨.recovery, .s1SeatOpen, .recovery, .absoluteHeight 244,
    "global recovery; signed by every seated player at session start"⟩

/-- The branch with the script and the height of the context. -/
def sampleBuilt (height : SafeNat) : BuiltFallbackBranch where
  branch := sampleBranch
  lockingScript := some (Basis.Script.write (RecoveryBranchParams.documented
    ⟨height, (sampleContext height).recoverySigner⟩).items)
  locktime := some (absoluteHeight height)

/-- The whole graph of the new table: to join, and to recover. -/
def sampleGraph (height : SafeNat) : List BuiltFallbackBranch :=
  [⟨⟨.cooperative, .s1SeatOpen, .join, .immediate,
      "happy path; signed at session start by the acting player or relevant quorum"⟩, none, none⟩,
    sampleBuilt height]

theorem sampleGraph_built (height : SafeNat) :
    materialiseFallbackGraph
        (enumerateFallbackGraph (initialState "g" "" 244) sampleFallbackRules)
        (sampleContext height) = .ok (sampleGraph height) := by
  have hkey : isPubkey33 "03bbbbbbbbbbbbbbbbbbbbbbbbbbbbbbbbbbbbbbbbbbbbbbbbbbbbbbbbbbbbbbbb" = true := by
    decide
  have hrecovery : buildRecoveryBranchTemplate
      ⟨height, (sampleContext height).recoverySigner⟩ = .ok _ :=
    buildRecoveryBranchTemplate_eq_ok_iff.mpr ⟨hkey, rfl⟩
  have hbranches : enumerateFallbackGraph (initialState "g" "" 244) sampleFallbackRules =
      [⟨.cooperative, .s1SeatOpen, .join, .immediate,
        "happy path; signed at session start by the acting player or relevant quorum"⟩,
        sampleBranch] := by
    decide
  rw [hbranches]
  simp only [materialiseFallbackGraph, materialiseBranch, sampleBranch]
  have hsame : (sampleContext height).recoveryHeight = height := rfl
  rw [hsame, hrecovery]
  rfl

def samplePrev : PrevOutpoint := ⟨List.replicate 32 9, 0, 1000⟩
def sampleSuccessor : SuccessorOutput := ⟨900, [0x51]⟩

/-- The recovery transaction of the sample. -/
def sampleTx (height : SafeNat) : BsvTransaction :=
  unsignedTx samplePrev sampleSuccessor (sequenceFinal - 1) (UInt32.ofNat height.val)

theorem carries_context_sample :
    Carries (sampleTx 244) ((sampleContext 244).lockTimeSpec .recovery) ∧
      (Carries (sampleTx 244) (.absoluteHeight 244) ↔
        (sampleContext 244).Agrees sampleFallbackRules 244 .recovery) :=
  have hrun : Run sampleFallbackRules.toRuleSet (initialState "g" "" 244) [] _ := .start
  have hmem : sampleBuilt 244 ∈ sampleGraph 244 := List.mem_cons_of_mem _ List.mem_cons_self
  have htx : buildRecoveryTx (sampleBuilt 244) samplePrev sampleSuccessor = .ok (sampleTx 244) :=
    rfl
  carries_context hrun (sampleGraph_built 244) hmem (.inr htx)

/-- **A height of the context's own.** The branch says 244, the context
245, and the transaction waits for 245. -/
theorem recovery_gate_of_context :
    sampleBranch ∈ enumerateFallbackGraph (initialState "g" "" 244) sampleFallbackRules ∧
      materialiseFallbackGraph
          (enumerateFallbackGraph (initialState "g" "" 244) sampleFallbackRules)
          (sampleContext 245) = .ok (sampleGraph 245) ∧
      (sampleBuilt 245).branch = sampleBranch ∧ sampleBuilt 245 ∈ sampleGraph 245 ∧
      buildRecoveryTx (sampleBuilt 245) samplePrev sampleSuccessor = .ok (sampleTx 245) ∧
      ¬Carries (sampleTx 245) sampleBranch.lockTimeSpec := by
  have hgraph := sampleGraph_built 245
  have hmem : sampleBuilt 245 ∈ sampleGraph 245 := List.mem_cons_of_mem _ List.mem_cons_self
  refine ⟨?_, hgraph, rfl, hmem, rfl, ?_⟩
  · decide
  · intro hcarries
    exact absurd hcarries.1 (by decide)

end CardTable.Ts
