import CardTable.Ts.Templates

/-!
# Templates — what the script builders write

`spec/script-templates.md` lists one script a template. `documented`
writes that list down as nested alternatives over opcodes and pushes. A
builder that accepts its parameters writes exactly these items; the bytes
are read back as them whatever the keys and hashes are, and every leaf is
reached by one choice of selectors.
-/

namespace CardTable.Ts

open Basis Basis.Script

/-! ## Opcodes and delays -/

def opReturn : Item := .op 0x6a
def opEqualVerify : Item := .op 0x88
def opSha256 : Item := .op 0xa8
def opHash256 : Item := .op 0xaa
def opCheckSig : Item := .op 0xac
def opCheckMultisig : Item := .op 0xae

namespace JsNumber

/-- A delay `relativeBlocks` takes. -/
def Positive : JsNumber → Prop
  | .integer n => 1 ≤ n
  | .other _ => False

instance (n : JsNumber) : Decidable n.Positive :=
  match n with
  | .integer k => inferInstanceAs (Decidable (1 ≤ k))
  | .other _ => inferInstanceAs (Decidable False)

end JsNumber

/-! ## The writer in a chain of calls -/

namespace ScriptWriter

variable {α : Type} {w : ScriptWriter} {f : ScriptWriter → Js α} {a : α}

@[simp] theorem op_if : w.op OP.OP_IF = .ok (w.emit opIf) := rfl
@[simp] theorem op_else : w.op OP.OP_ELSE = .ok (w.emit opElse) := rfl
@[simp] theorem op_endIf : w.op OP.OP_ENDIF = .ok (w.emit opEndIf) := rfl
@[simp] theorem op_return : w.op OP.OP_RETURN = .ok (w.emit opReturn) := rfl
@[simp] theorem op_equalVerify : w.op OP.OP_EQUALVERIFY = .ok (w.emit opEqualVerify) := rfl
@[simp] theorem op_sha256 : w.op OP.OP_SHA256 = .ok (w.emit opSha256) := rfl
@[simp] theorem op_hash256 : w.op OP.OP_HASH256 = .ok (w.emit opHash256) := rfl
@[simp] theorem op_checkSig : w.op OP.OP_CHECKSIG = .ok (w.emit opCheckSig) := rfl
@[simp] theorem op_checkMultisig :
    w.op OP.OP_CHECKMULTISIG = .ok (w.emit opCheckMultisig) := rfl

@[simp] theorem pushNumber_two : w.pushNumber 2 = .ok (w.emit (number 2)) :=
  pushNumber_eq (n := 2) (Nat.le_of_ble_eq_true rfl)

@[simp] theorem pushPubkey_bind {key : String} : (w.pushPubkey key >>= f) = .ok a ↔
    isPubkey33 key = true ∧ f (w.emit (data key)) = .ok a := by
  by_cases h : isPubkey33 key = true
  · simp [pushPubkey_eq h, h]
  · rw [pushPubkey, if_pos (by simpa using h)]
    simp [h]

@[simp] theorem pushHash32_bind {hash : String} : (w.pushHash32 hash >>= f) = .ok a ↔
    isHex64 hash = true ∧ f (w.emit (data hash)) = .ok a := by
  by_cases h : isHex64 hash = true
  · simp [pushHash32_eq h, h]
  · rw [pushHash32, if_pos (by simpa using h)]
    simp [h]

@[simp] theorem pushPubkeys_bind {keys : List String} : (w.pushPubkeys keys >>= f) = .ok a ↔
    (∀ key ∈ keys, isPubkey33 key = true) ∧ f (w.put (write (keys.map data))) = .ok a := by
  induction keys generalizing w with
  | nil => simp [pushPubkeys, put]
  | cons key keys ih =>
      have hbind : (w.pushPubkeys (key :: keys) >>= f) =
          (w.pushPubkey key >>= fun w => w.pushPubkeys keys >>= f) := by
        rw [pushPubkeys, bind_assoc]
      rw [hbind, pushPubkey_bind, ih, List.forall_mem_cons, and_assoc]
      simp [emit, put]

end ScriptWriter

@[simp] theorem relativeBlocks_bind {α : Type} {n : JsNumber} {f : ScriptLockTimeSpec → Js α}
    {a : α} : (relativeBlocks n >>= f) = .ok a ↔
      n.Positive ∧ f (.relativeBlocks n.value) = .ok a := by
  cases n with
  | other shown => simp [relativeBlocks, JsNumber.Positive]
  | integer k =>
      by_cases h : k < 1
      · simp [relativeBlocks, JsNumber.Positive, h]
      · simp [relativeBlocks, JsNumber.Positive, JsNumber.value, h, Int.not_lt.mp h]

/-- The two checks on the number of keys. -/
theorem guarded_iff {α : Type} {keys : List String} {none many : String} {x : Js α} {a : α}
    {P : Prop} (h : keys.length ≤ 16 → (x = .ok a ↔ P)) :
    (if keys.length = 0 then .halt none else if 16 < keys.length then .halt many else x) =
        .ok a ↔ (1 ≤ keys.length ∧ keys.length ≤ 16) ∧ P := by
  by_cases hlow : keys.length = 0
  · simp [hlow]
  · rw [if_neg hlow]
    by_cases hhigh : 16 < keys.length
    · rw [if_pos hhigh]
      simp [Nat.not_le.mpr hhigh]
    · rw [if_neg hhigh, h (Nat.not_lt.mp hhigh)]
      have hcount : 1 ≤ keys.length ∧ keys.length ≤ 16 := by omega
      exact (and_iff_right hcount).symm

/-! ## What the specification lists -/

/-- `<N> <pk_1> ... <pk_N> <N> OP_CHECKMULTISIG`. -/
def multisig (keys : List String) : List Item :=
  number keys.length :: keys.map data ++ [number keys.length, opCheckMultisig]

/-- `<pk> OP_CHECKSIG`. -/
def signature (key : String) : List Item := [data key, opCheckSig]

/-- `OP_HASH256 <hash> OP_EQUALVERIFY`, or with `OP_SHA256`. -/
def hashCheck (hashOp : Item) (hash : String) : List Item := [hashOp, data hash, opEqualVerify]

/-- What the builders ask of the keys of a multisig. -/
def Keys (keys : List String) : Prop :=
  (1 ≤ keys.length ∧ keys.length ≤ 16) ∧ ∀ key ∈ keys, isPubkey33 key = true

section Listed

attribute [local simp] Branching.items multisig signature hashCheck

namespace TableRootParams

def Valid (p : TableRootParams) : Prop :=
  Keys p.seatedPubkeys

def documented (p : TableRootParams) : Branching :=
  .leaf (multisig p.seatedPubkeys)

end TableRootParams

theorem buildTableRoot_eq_ok_iff {p : TableRootParams} {t : BuiltTemplate} :
    buildTableRoot p = .ok t ↔ p.Valid ∧ t =
      { lockingScript := write p.documented.items
        branches := [⟨"cooperative", .immediate⟩,
          ⟨"recovery", absoluteHeight p.recoveryHeight⟩] } := by
  rw [TableRootParams.Valid, Keys, and_assoc]
  refine guarded_iff fun hmany => ?_
  rw [eq_comm (a := t)]
  simp [ScriptWriter.pushNumber_eq hmany, TableRootParams.documented]

namespace StakeLockParams

def Valid (p : StakeLockParams) : Prop :=
  isPubkey33 p.playerPubkey = true ∧ isPubkey33 p.operatorPubkey = true ∧
    isHex64 p.expectedSettlementHash = true

def documented (p : StakeLockParams) : Branching :=
  .choice (.leaf (multisig [p.playerPubkey, p.operatorPubkey]))
    (.choice
      (.leaf (hashCheck opHash256 p.expectedSettlementHash ++ signature p.playerPubkey))
      (.leaf (signature p.playerPubkey)))

end StakeLockParams

theorem buildStakeLock_eq_ok_iff {p : StakeLockParams} {t : BuiltTemplate} :
    buildStakeLock p = .ok t ↔ p.Valid ∧ t =
      { lockingScript := write p.documented.items
        branches := [⟨"cooperative", .immediate⟩, ⟨"winner_claim", .immediate⟩,
          ⟨"refund", absoluteHeight p.recoveryHeight⟩] } := by
  rw [eq_comm (a := t)]
  simp [buildStakeLock, StakeLockParams.Valid, StakeLockParams.documented]
  tauto

namespace PotLockParams

def Valid (p : PotLockParams) : Prop :=
  Keys p.seatedPubkeys ∧ isHex64 p.winnerProofHash = true ∧
    isPubkey33 p.winnerPubkey = true ∧ isPubkey33 p.refundPubkey = true

def documented (p : PotLockParams) : Branching :=
  .choice (.leaf (multisig p.seatedPubkeys))
    (.choice (.leaf (hashCheck opSha256 p.winnerProofHash ++ signature p.winnerPubkey))
      (.leaf (signature p.refundPubkey)))

end PotLockParams

theorem buildPotLock_eq_ok_iff {p : PotLockParams} {t : BuiltTemplate} :
    buildPotLock p = .ok t ↔ p.Valid ∧ t =
      { lockingScript := write p.documented.items
        branches := [⟨"cooperative", .immediate⟩, ⟨"winner_claim", .immediate⟩,
          ⟨"refund", absoluteHeight p.recoveryHeight⟩] } := by
  rw [PotLockParams.Valid, Keys, and_assoc, and_assoc]
  refine guarded_iff fun hmany => ?_
  rw [eq_comm (a := t)]
  simp [ScriptWriter.pushNumber_eq hmany, PotLockParams.documented]
  tauto

namespace EntropyCommitParams

def Valid (p : EntropyCommitParams) : Prop :=
  isHex64 p.commitmentHash = true ∧ isPubkey33 p.playerPubkey = true ∧
    (p.otherPubkeys.length ≤ 16 ∧ ∀ key ∈ p.otherPubkeys, isPubkey33 key = true) ∧
    p.decisionTimeoutBlocks.Positive

def documented (p : EntropyCommitParams) : Branching :=
  .choice (.leaf (hashCheck opSha256 p.commitmentHash ++ signature p.playerPubkey))
    (.choice
      (.leaf (if p.otherPubkeys = [] then [opReturn] else multisig p.otherPubkeys))
      (.leaf (signature p.playerPubkey)))

end EntropyCommitParams

theorem buildEntropyCommit_eq_ok_iff {p : EntropyCommitParams} {t : BuiltTemplate} :
    buildEntropyCommit p = .ok t ↔ p.Valid ∧ t =
      { lockingScript := write p.documented.items
        branches := [⟨"reveal", .immediate⟩,
          ⟨"cooperative_fallback", .relativeBlocks p.decisionTimeoutBlocks.value⟩,
          ⟨"refund", absoluteHeight p.recoveryHeight⟩] } := by
  rw [eq_comm (a := t)]
  by_cases hnone : p.otherPubkeys = []
  · simp [buildEntropyCommit, EntropyCommitParams.Valid, EntropyCommitParams.documented, hnone]
    tauto
  · by_cases hmany : 16 < p.otherPubkeys.length
    · simp [buildEntropyCommit, EntropyCommitParams.Valid, hnone, hmany, Nat.not_le.mpr hmany]
    · simp [buildEntropyCommit, EntropyCommitParams.Valid, EntropyCommitParams.documented, hnone,
        hmany, ScriptWriter.pushNumber_eq (Nat.not_lt.mp hmany), Nat.not_lt.mp hmany]
      tauto

namespace CardCustodyParams

def Valid (p : CardCustodyParams) : Prop :=
  isHex64 p.faceCommitment = true ∧ isPubkey33 p.holderPubkey = true ∧
    isPubkey33 p.originalFunderPubkey = true

def documented (p : CardCustodyParams) : Branching :=
  .choice (.leaf (hashCheck opHash256 p.faceCommitment ++ signature p.holderPubkey))
    (.choice (.leaf (signature p.holderPubkey)) (.leaf (signature p.originalFunderPubkey)))

end CardCustodyParams

theorem buildCardCustody_eq_ok_iff {p : CardCustodyParams} {t : BuiltTemplate} :
    buildCardCustody p = .ok t ↔ p.Valid ∧ t =
      { lockingScript := write p.documented.items
        branches := [⟨"reveal", .immediate⟩, ⟨"fold_surrender", .immediate⟩,
          ⟨"recovery_refund", absoluteHeight p.recoveryHeight⟩] } := by
  rw [eq_comm (a := t)]
  simp [buildCardCustody, CardCustodyParams.Valid, CardCustodyParams.documented]
  tauto

namespace FoldSurrenderParams

def Valid (p : FoldSurrenderParams) : Prop :=
  isPubkey33 p.originalFunderPubkey = true

def documented (p : FoldSurrenderParams) : Branching :=
  .leaf (signature p.originalFunderPubkey)

end FoldSurrenderParams

theorem buildFoldSurrender_eq_ok_iff {p : FoldSurrenderParams} {t : BuiltTemplate} :
    buildFoldSurrender p = .ok t ↔ p.Valid ∧ t =
      { lockingScript := write p.documented.items
        branches := [⟨"recovery_refund", absoluteHeight p.recoveryHeight⟩] } := by
  rw [eq_comm (a := t)]
  simp [buildFoldSurrender, FoldSurrenderParams.Valid, FoldSurrenderParams.documented]

namespace RoundStateParams

def Valid (p : RoundStateParams) : Prop :=
  Keys p.seatedPubkeys ∧ isHex64 p.successorTemplateHash = true ∧
    isHex64 p.timeoutTemplateHash = true ∧ isPubkey33 p.actingPlayerPubkey = true ∧
    p.decisionTimeoutBlocks.Positive

def documented (p : RoundStateParams) : Branching :=
  .choice
    (.leaf (hashCheck opHash256 p.successorTemplateHash ++ signature p.actingPlayerPubkey))
    (.choice (.leaf (hashCheck opHash256 p.timeoutTemplateHash ++ multisig p.seatedPubkeys))
      (.leaf (multisig p.seatedPubkeys)))

end RoundStateParams

theorem buildRoundState_eq_ok_iff {p : RoundStateParams} {t : BuiltTemplate} :
    buildRoundState p = .ok t ↔ p.Valid ∧ t =
      { lockingScript := write p.documented.items
        branches := [⟨"action", .immediate⟩,
          ⟨"timeout", .relativeBlocks p.decisionTimeoutBlocks.value⟩,
          ⟨"recovery", absoluteHeight p.recoveryHeight⟩] } := by
  rw [RoundStateParams.Valid, Keys, and_assoc, and_assoc]
  refine guarded_iff fun hmany => ?_
  rw [eq_comm (a := t)]
  simp [ScriptWriter.pushNumber_eq hmany, RoundStateParams.documented]
  tauto

theorem hashAndSignature_eq_ok_iff {hash key : String} {script : List UInt8} :
    hashAndSignature hash key = .ok script ↔
      (isHex64 hash = true ∧ isPubkey33 key = true) ∧
        script = write (hashCheck opHash256 hash ++ signature key) := by
  rw [eq_comm (a := script)]
  simp [hashAndSignature]
  tauto

namespace SettleClaimParams

def Valid (p : SettleClaimParams) : Prop :=
  isHex64 p.settlementCommitment = true ∧ isPubkey33 p.winnerPubkey = true

def documented (p : SettleClaimParams) : Branching :=
  .leaf (hashCheck opHash256 p.settlementCommitment ++ signature p.winnerPubkey)

end SettleClaimParams

theorem buildSettleClaimScript_eq_ok_iff {p : SettleClaimParams} {script : List UInt8} :
    buildSettleClaimScript p = .ok script ↔ p.Valid ∧ script = write p.documented.items :=
  hashAndSignature_eq_ok_iff

namespace RevealProofParams

def Valid (p : RevealProofParams) : Prop :=
  isHex64 p.cardCommitment = true ∧ isPubkey33 p.signerPubkey = true

def documented (p : RevealProofParams) : Branching :=
  .leaf (hashCheck opHash256 p.cardCommitment ++ signature p.signerPubkey)

end RevealProofParams

theorem buildRevealProofScript_eq_ok_iff {p : RevealProofParams} {script : List UInt8} :
    buildRevealProofScript p = .ok script ↔ p.Valid ∧ script = write p.documented.items :=
  hashAndSignature_eq_ok_iff

namespace RecoveryBranchParams

def Valid (p : RecoveryBranchParams) : Prop :=
  isPubkey33 p.signerPubkey = true

def documented (p : RecoveryBranchParams) : Branching :=
  .leaf (signature p.signerPubkey)

end RecoveryBranchParams

theorem buildRecoveryBranchTemplate_eq_ok_iff {p : RecoveryBranchParams} {t : BuiltBranch} :
    buildRecoveryBranchTemplate p = .ok t ↔ p.Valid ∧ t =
      { lockingScript := write p.documented.items
        locktime := absoluteHeight p.recoveryHeight } := by
  rw [eq_comm (a := t)]
  simp [buildRecoveryBranchTemplate, RecoveryBranchParams.Valid, RecoveryBranchParams.documented]

namespace TimeoutBranchParams

def Valid (p : TimeoutBranchParams) : Prop :=
  Keys p.authoriserPubkeys ∧ isHex64 p.timeoutTemplateHash = true ∧
    p.decisionTimeoutBlocks.Positive

def documented (p : TimeoutBranchParams) : Branching :=
  .leaf (hashCheck opHash256 p.timeoutTemplateHash ++ multisig p.authoriserPubkeys)

end TimeoutBranchParams

theorem buildTimeoutBranch_eq_ok_iff {p : TimeoutBranchParams} {t : BuiltBranch} :
    buildTimeoutBranch p = .ok t ↔ p.Valid ∧ t =
      { lockingScript := write p.documented.items
        locktime := .relativeBlocks p.decisionTimeoutBlocks.value } := by
  rw [TimeoutBranchParams.Valid, Keys, and_assoc, and_assoc]
  refine guarded_iff fun hmany => ?_
  rw [eq_comm (a := t)]
  simp [ScriptWriter.pushNumber_eq hmany, TimeoutBranchParams.documented]
  tauto

end Listed

/-! ## Every template is well formed -/

/-- An item a template is made of: written by one length byte at most,
and neither a branch nor one of the two inert opcodes. -/
structure Ordinary (item : Item) : Prop where
  short : item.Short
  plain : item.isControl = false
  noTimelock : item ≠ .op 0xb1 ∧ item ≠ .op 0xb2

/-- Nested alternatives of ordinary items, none of them empty. -/
inductive WellFormed : Branching → Prop where
  | leaf {body : List Item} : body ≠ [] → (∀ item ∈ body, Ordinary item) →
      WellFormed (.leaf body)
  | choice {yes no : Branching} : WellFormed yes → WellFormed no →
      WellFormed (.choice yes no)

namespace WellFormed

theorem plain {t : Branching} (h : WellFormed t) : t.Plain := by
  induction h with
  | leaf _ hbody => exact fun item hitem => (hbody item hitem).plain
  | choice _ _ ihyes ihno => exact ⟨ihyes, ihno⟩

theorem busy {t : Branching} (h : WellFormed t) : t.Busy := by
  induction h with
  | leaf hne _ => exact hne
  | choice _ _ ihyes ihno => exact ⟨ihyes, ihno⟩

/-- What holds of ordinary items and of the three control codes holds of
every item of a template. -/
theorem forall_items {P : Item → Prop} (hordinary : ∀ item, Ordinary item → P item)
    (hif : P opIf) (helse : P opElse) (hend : P opEndIf) {t : Branching} (h : WellFormed t) :
    ∀ item ∈ t.items, P item := by
  induction h with
  | leaf _ hbody => exact fun item hitem => hordinary item (hbody item hitem)
  | choice _ _ ihyes ihno =>
      intro item hitem
      simp only [Branching.items, List.cons_append, List.mem_append, List.mem_cons,
        List.not_mem_nil, or_false] at hitem
      rcases hitem with rfl | (hyes | rfl | hno) | rfl
      · exact hif
      · exact ihyes item hyes
      · exact helse
      · exact ihno item hno
      · exact hend

theorem short {t : Branching} (h : WellFormed t) : ∀ item ∈ t.items, item.Short := by
  have hlarge : ∀ {code : UInt8}, 78 < code → (Item.op code).Short := fun h => h
  exact h.forall_items (fun _ h => h.short) (hlarge (by decide)) (hlarge (by decide))
    (hlarge (by decide))

end WellFormed

theorem ordinary_op {code : UInt8} (h : 78 < code)
    (hcode : code ∉ [0x63, 0x64, 0x67, 0x68, 0xb1, 0xb2]) : Ordinary (.op code) := by
  simp only [List.mem_cons, List.not_mem_nil, or_false, not_or] at hcode
  obtain ⟨hif, hnotif, helse, hend, hcltv, hcsv⟩ := hcode
  constructor
  · exact h
  · simp [Item.isControl, opIf, opNotIf, opElse, opEndIf, hif, hnotif, helse, hend]
  · simp [hcltv, hcsv]

/-- **Pushed data are ordinary whatever they contain.** -/
theorem ordinary_push {bytes : List UInt8} (h : bytes.length ≤ 75) : Ordinary (.push bytes) := by
  constructor
  · exact h
  · simp [Item.isControl, opIf, opNotIf, opElse, opEndIf]
  · simp

theorem ordinary_number {n : Nat} (h : n ≤ 16) : Ordinary (number n) := by
  by_cases hzero : n = 0
  · rw [number, if_pos hzero]
    exact ordinary_push (Nat.zero_le 75)
  · rw [number, if_neg hzero]
    apply ordinary_op (numberCode_gt h)
    simp only [List.mem_cons, List.not_mem_nil, or_false, ← UInt8.toNat_inj, toNat_numberCode h]
    simp
    omega

theorem ordinary_key {key : String} (h : isPubkey33 key = true) : Ordinary (data key) :=
  ordinary_push (by rw [length_hexBytes_pubkey h]; exact Nat.le_of_ble_eq_true rfl)

theorem ordinary_hash {hash : String} (h : isHex64 hash = true) : Ordinary (data hash) :=
  ordinary_push (by rw [length_hexBytes_hash h]; exact Nat.le_of_ble_eq_true rfl)

theorem ordinary_multisig {keys : List String} (hcount : keys.length ≤ 16)
    (hkeys : ∀ key ∈ keys, isPubkey33 key = true) : ∀ item ∈ multisig keys, Ordinary item := by
  intro item hitem
  simp only [multisig, List.cons_append, List.mem_cons, List.mem_append, List.mem_map,
    List.not_mem_nil, or_false] at hitem
  rcases hitem with rfl | ⟨key, hkey, rfl⟩ | rfl | rfl
  · exact ordinary_number hcount
  · exact ordinary_key (hkeys key hkey)
  · exact ordinary_number hcount
  · exact ordinary_op (by decide) (by decide)

theorem ordinary_signature {key : String} (h : isPubkey33 key = true) :
    ∀ item ∈ signature key, Ordinary item := by
  intro item hitem
  simp only [signature, List.mem_cons, List.not_mem_nil, or_false] at hitem
  rcases hitem with rfl | rfl
  · exact ordinary_key h
  · exact ordinary_op (by decide) (by decide)

/-- A hash check and what comes behind it. -/
theorem ordinary_hashCheck {hashOp : Item} {hash : String} {rest : List Item}
    (hop : hashOp = opHash256 ∨ hashOp = opSha256) (hhash : isHex64 hash = true)
    (hrest : ∀ item ∈ rest, Ordinary item) :
    ∀ item ∈ hashCheck hashOp hash ++ rest, Ordinary item := by
  intro item hitem
  simp only [hashCheck, List.cons_append, List.nil_append, List.mem_cons] at hitem
  rcases hitem with rfl | rfl | rfl | hitem
  · rcases hop with rfl | rfl
    · exact ordinary_op (by decide) (by decide)
    · exact ordinary_op (by decide) (by decide)
  · exact ordinary_hash hhash
  · exact ordinary_op (by decide) (by decide)
  · exact hrest item hitem

/-! ## The eleven builders -/

/-- A template with its parameters. -/
inductive TemplateParams where
  | tableRoot (p : TableRootParams)
  | stakeLock (p : StakeLockParams)
  | potLock (p : PotLockParams)
  | entropyCommit (p : EntropyCommitParams)
  | cardCustody (p : CardCustodyParams)
  | foldSurrender (p : FoldSurrenderParams)
  | roundState (p : RoundStateParams)
  | settleClaim (p : SettleClaimParams)
  | revealProof (p : RevealProofParams)
  | recovery (p : RecoveryBranchParams)
  | timeout (p : TimeoutBranchParams)

namespace TemplateParams

/-- The locking script the builder returns. -/
def build : TemplateParams → Js (List UInt8)
  | tableRoot p => (buildTableRoot p).map (·.lockingScript)
  | stakeLock p => (buildStakeLock p).map (·.lockingScript)
  | potLock p => (buildPotLock p).map (·.lockingScript)
  | entropyCommit p => (buildEntropyCommit p).map (·.lockingScript)
  | cardCustody p => (buildCardCustody p).map (·.lockingScript)
  | foldSurrender p => (buildFoldSurrender p).map (·.lockingScript)
  | roundState p => (buildRoundState p).map (·.lockingScript)
  | settleClaim p => buildSettleClaimScript p
  | revealProof p => buildRevealProofScript p
  | recovery p => (buildRecoveryBranchTemplate p).map (·.lockingScript)
  | timeout p => (buildTimeoutBranch p).map (·.lockingScript)

/-- The parameters the builder accepts. -/
def Valid : TemplateParams → Prop
  | tableRoot p => p.Valid
  | stakeLock p => p.Valid
  | potLock p => p.Valid
  | entropyCommit p => p.Valid
  | cardCustody p => p.Valid
  | foldSurrender p => p.Valid
  | roundState p => p.Valid
  | settleClaim p => p.Valid
  | revealProof p => p.Valid
  | recovery p => p.Valid
  | timeout p => p.Valid

/-- The script the specification lists; for the standalone timeout branch
the timeout body of `round-state`. -/
def documented : TemplateParams → Branching
  | tableRoot p => p.documented
  | stakeLock p => p.documented
  | potLock p => p.documented
  | entropyCommit p => p.documented
  | cardCustody p => p.documented
  | foldSurrender p => p.documented
  | roundState p => p.documented
  | settleClaim p => p.documented
  | revealProof p => p.documented
  | recovery p => p.documented
  | timeout p => p.documented

/-- **A builder writes its template**: it takes the valid parameters and
no others. -/
theorem build_eq_ok_iff {t : TemplateParams} {script : List UInt8} :
    t.build = .ok script ↔ t.Valid ∧ script = write t.documented.items := by
  have hmap : ∀ {α : Type} {x : Js α} {valid : Prop} {made : α} {locking : α → List UInt8},
      (∀ a, x = .ok a ↔ valid ∧ a = made) →
        (x.map locking = .ok script ↔ valid ∧ script = locking made) := by
    intro α x valid made locking hx
    constructor
    · intro h
      cases x with
      | ok a =>
          obtain ⟨hvalid, rfl⟩ := (hx a).mp rfl
          exact ⟨hvalid, (Outcome.ok.inj h).symm⟩
      | err e => cases h
      | halt k => cases h
    · rintro ⟨hvalid, rfl⟩
      rw [(hx made).mpr ⟨hvalid, rfl⟩]
      rfl
  cases t with
  | tableRoot p => exact hmap fun _ => buildTableRoot_eq_ok_iff
  | stakeLock p => exact hmap fun _ => buildStakeLock_eq_ok_iff
  | potLock p => exact hmap fun _ => buildPotLock_eq_ok_iff
  | entropyCommit p => exact hmap fun _ => buildEntropyCommit_eq_ok_iff
  | cardCustody p => exact hmap fun _ => buildCardCustody_eq_ok_iff
  | foldSurrender p => exact hmap fun _ => buildFoldSurrender_eq_ok_iff
  | roundState p => exact hmap fun _ => buildRoundState_eq_ok_iff
  | settleClaim p => exact buildSettleClaimScript_eq_ok_iff
  | revealProof p => exact buildRevealProofScript_eq_ok_iff
  | recovery p => exact hmap fun _ => buildRecoveryBranchTemplate_eq_ok_iff
  | timeout p => exact hmap fun _ => buildTimeoutBranch_eq_ok_iff

theorem wellFormed_multisig {keys : List String} (h : Keys keys) :
    WellFormed (.leaf (multisig keys)) :=
  .leaf (List.cons_ne_nil _ _) (ordinary_multisig h.1.2 h.2)

theorem wellFormed_signature {key : String} (h : isPubkey33 key = true) :
    WellFormed (.leaf (signature key)) :=
  .leaf (List.cons_ne_nil _ _) (ordinary_signature h)

theorem wellFormed_hashCheck {hashOp : Item} {hash : String} {rest : List Item}
    (hop : hashOp = opHash256 ∨ hashOp = opSha256) (hhash : isHex64 hash = true)
    (hrest : ∀ item ∈ rest, Ordinary item) :
    WellFormed (.leaf (hashCheck hashOp hash ++ rest)) :=
  .leaf (List.cons_ne_nil _ _) (ordinary_hashCheck hop hhash hrest)

theorem wellFormed_documented {t : TemplateParams} (h : t.Valid) : WellFormed t.documented := by
  cases t with
  | tableRoot p => exact wellFormed_multisig h
  | stakeLock p =>
      obtain ⟨hplayer, hoperator, hhash⟩ := h
      have hkeys : Keys [p.playerPubkey, p.operatorPubkey] := by
        refine ⟨⟨Nat.le_of_ble_eq_true rfl, Nat.le_of_ble_eq_true rfl⟩, ?_⟩
        simp [hplayer, hoperator]
      exact .choice (wellFormed_multisig hkeys)
        (.choice (wellFormed_hashCheck (.inl rfl) hhash (ordinary_signature hplayer))
          (wellFormed_signature hplayer))
  | potLock p =>
      obtain ⟨hkeys, hhash, hwinner, hrefund⟩ := h
      exact .choice (wellFormed_multisig hkeys)
        (.choice (wellFormed_hashCheck (.inr rfl) hhash (ordinary_signature hwinner))
          (wellFormed_signature hrefund))
  | entropyCommit p =>
      obtain ⟨hhash, hplayer, ⟨hcount, hkeys⟩, _⟩ := h
      have hfallback : WellFormed
          (.leaf (if p.otherPubkeys = [] then [opReturn] else multisig p.otherPubkeys)) := by
        by_cases hnone : p.otherPubkeys = []
        · rw [if_pos hnone]
          refine .leaf (List.cons_ne_nil _ _) fun item hitem => ?_
          obtain rfl := List.mem_singleton.mp hitem
          exact ordinary_op (by decide) (by decide)
        · rw [if_neg hnone]
          exact wellFormed_multisig ⟨⟨List.length_pos_iff.mpr hnone, hcount⟩, hkeys⟩
      exact .choice (wellFormed_hashCheck (.inr rfl) hhash (ordinary_signature hplayer))
        (.choice hfallback (wellFormed_signature hplayer))
  | cardCustody p =>
      obtain ⟨hhash, hholder, hfunder⟩ := h
      exact .choice (wellFormed_hashCheck (.inl rfl) hhash (ordinary_signature hholder))
        (.choice (wellFormed_signature hholder) (wellFormed_signature hfunder))
  | foldSurrender p => exact wellFormed_signature h
  | roundState p =>
      obtain ⟨hkeys, hsuccessor, htimeout, hacting, _⟩ := h
      exact .choice (wellFormed_hashCheck (.inl rfl) hsuccessor (ordinary_signature hacting))
        (.choice
          (wellFormed_hashCheck (.inl rfl) htimeout (ordinary_multisig hkeys.1.2 hkeys.2))
          (wellFormed_multisig hkeys))
  | settleClaim p => exact wellFormed_hashCheck (.inl rfl) h.1 (ordinary_signature h.2)
  | revealProof p => exact wellFormed_hashCheck (.inl rfl) h.1 (ordinary_signature h.2)
  | recovery p => exact wellFormed_signature h
  | timeout p =>
      obtain ⟨hkeys, hhash, _⟩ := h
      exact wellFormed_hashCheck (.inl rfl) hhash (ordinary_multisig hkeys.1.2 hkeys.2)

/-- The bytes of a template are read back as its items. -/
theorem parse_documented {t : TemplateParams} (h : t.Valid) :
    parse (write t.documented.items) = some t.documented.items :=
  (codes_write (wellFormed_documented h).short).parse_eq

/-- **Every builder emits exactly its template.** The bytes it returns are
read, under the push rules, as the opcodes and pushes the specification
lists; `IF`, `ELSE` and `ENDIF` are balanced, no opcode is one of the two
inert timelock codes, and each leaf is executed for exactly one choice of
the selectors. -/
theorem build_documented (t : TemplateParams) (h : t.Valid) :
    ∃ script, t.build = .ok script ∧ parse script = some t.documented.items ∧
      Balanced t.documented.items ∧
      (∀ item ∈ t.documented.items, item ≠ .op 0xb1 ∧ item ≠ .op 0xb2) ∧
      ∀ leaf ∈ t.documented.leaves 0,
        ∃! sel : List Bool, execute id 0 [] sel t.documented.items = some (leaf.2, []) := by
  have hform := wellFormed_documented h
  refine ⟨_, build_eq_ok_iff.mpr ⟨h, rfl⟩, parse_documented h, Branching.balanced hform.plain,
    ?_, ?_⟩
  · exact hform.forall_items (fun _ h => h.noTimelock) (by decide) (by decide) (by decide)
  · rintro ⟨path, done⟩ hleaf
    exact Branching.executed_once hform.plain hform.busy hleaf

/-- A round state for one seat. -/
def sample : TemplateParams :=
  .roundState
    { successorTemplateHash := "b1b2b1b2b1b2b1b2b1b2b1b2b1b2b1b2b1b2b1b2b1b2b1b2b1b2b1b2b1b2b1b2"
      timeoutTemplateHash := "6768676867686768676867686768676867686768676867686768676867686768"
      actingPlayerPubkey :=
        "02b1b2b1b2b1b2b1b2b1b2b1b2b1b2b1b2b1b2b1b2b1b2b1b2b1b2b1b2b1b2b1b2"
      seatedPubkeys := ["03b1b2b1b2b1b2b1b2b1b2b1b2b1b2b1b2b1b2b1b2b1b2b1b2b1b2b1b2b1b2b1b2"]
      decisionTimeoutBlocks := .integer 6
      recoveryHeight := 800000 }

/-- The keys and hashes of the sample are full of opcode bytes. -/
theorem build_documented_sample : sample.Valid ∧
    ∃ script, sample.build = .ok script ∧ parse script = some sample.documented.items ∧
      Balanced sample.documented.items ∧
      (∀ item ∈ sample.documented.items, item ≠ .op 0xb1 ∧ item ≠ .op 0xb2) ∧
      ∀ leaf ∈ sample.documented.leaves 0,
        ∃! sel : List Bool, execute id 0 [] sel sample.documented.items = some (leaf.2, []) :=
  have hvalid : sample.Valid := by
    refine ⟨⟨by decide, ?_⟩, by decide, by decide, by decide, by decide⟩
    intro key hkey
    obtain rfl := List.mem_singleton.mp hkey
    decide
  ⟨hvalid, build_documented sample hvalid⟩

end TemplateParams

end CardTable.Ts
