import CardTable.Templates

/-!
# Bindings — what a locking script commits to

A locking script is all the chain sees of a template and its parameters.
It is made of a few clauses, and its bytes determine the clauses with
every key and every hash in them. What no clause mentions, the heights
and the delays, is left to the transaction that spends, and templates of
the same clauses cannot be told apart.
-/

namespace CardTable.Ts

open Basis Basis.Script

/-! ## Texts and their bytes -/

/-- Lowercase hex texts of the same bytes are the same text. -/
theorem hex_text_inj {s t : String} {bytes : List UInt8} (hs : Hex.decode s = some bytes)
    (ht : Hex.decode t = some bytes) (hslower : ∀ c ∈ s.toList, Hex.isLowerDigit c = true)
    (htlower : ∀ c ∈ t.toList, Hex.isLowerDigit c = true) : s = t :=
  String.toList_inj.mp ((Hex.encodeChars_of_decodeChars hs hslower).symm.trans
    (Hex.encodeChars_of_decodeChars ht htlower))

theorem lower_of_isHex64 {hash : String} (h : isHex64 hash = true) :
    ∀ c ∈ hash.toList, Hex.isLowerDigit c = true := by
  rw [isHex64, Bool.and_eq_true, List.all_eq_true] at h
  exact h.2

theorem lower_of_isPubkey33 {key : String} (h : isPubkey33 key = true) :
    ∀ c ∈ key.toList, Hex.isLowerDigit c = true := by
  unfold isPubkey33 at h
  split at h
  · rename_i zero parity tail hkey
    simp only [Bool.and_eq_true, Bool.or_eq_true, beq_iff_eq, List.all_eq_true] at h
    obtain ⟨⟨rfl, hparity⟩, -, htail⟩ := h
    rw [hkey, List.forall_mem_cons, List.forall_mem_cons]
    refine ⟨by decide, ?_, htail⟩
    rcases hparity with rfl | rfl
    · decide
    · decide
  · cases h

theorem key_inj {key key' : String} (h : isPubkey33 key = true) (h' : isPubkey33 key' = true)
    (heq : data key = data key') : key = key' := by
  obtain ⟨bytes, hbytes, -⟩ := decodes_of_isPubkey33 h
  obtain ⟨bytes', hbytes', -⟩ := decodes_of_isPubkey33 h'
  rw [data, data, hexBytes_eq hbytes, hexBytes_eq hbytes'] at heq
  obtain rfl := Item.push.inj heq
  exact hex_text_inj hbytes hbytes' (lower_of_isPubkey33 h) (lower_of_isPubkey33 h')

theorem keys_inj {keys keys' : List String} (h : ∀ key ∈ keys, isPubkey33 key = true)
    (h' : ∀ key ∈ keys', isPubkey33 key = true) (heq : keys.map data = keys'.map data) :
    keys = keys' := by
  induction keys generalizing keys' with
  | nil => exact (List.map_eq_nil_iff.mp heq.symm).symm
  | cons key keys ih =>
      cases keys' with
      | nil => cases heq
      | cons key' keys' =>
          rw [List.forall_mem_cons] at h h'
          rw [List.map_cons, List.map_cons, List.cons.injEq] at heq
          rw [key_inj h.1 h'.1 heq.1, ih h.2 h'.2 heq.2]

theorem hash_inj {hash hash' : String} (h : isHex64 hash = true) (h' : isHex64 hash' = true)
    (heq : data hash = data hash') : hash = hash' := by
  obtain ⟨bytes, hbytes, -⟩ := decodes_of_isHex64 h
  obtain ⟨bytes', hbytes', -⟩ := decodes_of_isHex64 h'
  rw [data, data, hexBytes_eq hbytes, hexBytes_eq hbytes'] at heq
  obtain rfl := Item.push.inj heq
  exact hex_text_inj hbytes hbytes' (lower_of_isHex64 h) (lower_of_isHex64 h')

/-! ## Clauses -/

/-- What a leaf of a script asks for. -/
inductive Clause where
  /-- signatures of all the keys -/
  | all (keys : List String)
  | signed (key : String)
  /-- a preimage under one or two rounds of SHA-256, and a signature -/
  | opened (twice : Bool) (hash key : String)
  /-- a preimage under two rounds, and signatures of all the keys -/
  | openedBy (hash : String) (keys : List String)
  /-- nothing satisfies it -/
  | never
  deriving DecidableEq, Repr

namespace Clause

def hashOp (twice : Bool) : Item := if twice then opHash256 else opSha256

/-- The items of a clause. -/
def items : Clause → List Item
  | all keys => multisig keys
  | signed key => signature key
  | opened twice hash key => hashCheck (hashOp twice) hash ++ signature key
  | openedBy hash keys => hashCheck opHash256 hash ++ multisig keys
  | never => [opReturn]

def Valid : Clause → Prop
  | all keys => Keys keys
  | signed key => isPubkey33 key = true
  | opened _ hash key => isHex64 hash = true ∧ isPubkey33 key = true
  | openedBy hash keys => isHex64 hash = true ∧ Keys keys
  | never => True

/-- The number of keys stands for itself. -/
theorem number_inj {n m : Nat} (hn : n ≤ 16) (hm : m ≤ 16) (h : number n = number m) : n = m := by
  by_cases hzero : n = 0
  · by_cases hzero' : m = 0
    · rw [hzero, hzero']
    · rw [number, number, if_pos hzero, if_neg hzero'] at h
      cases h
  · by_cases hzero' : m = 0
    · rw [number, number, if_neg hzero, if_pos hzero'] at h
      cases h
    · rw [number, number, if_neg hzero, if_neg hzero'] at h
      have hval := congrArg UInt8.toNat (Item.op.inj h)
      rw [toNat_numberCode hn, toNat_numberCode hm] at hval
      omega

theorem multisig_inj {keys keys' : List String} (h : Keys keys) (h' : Keys keys')
    (heq : multisig keys = multisig keys') : keys = keys' := by
  rw [multisig, multisig, List.cons_append, List.cons_append, List.cons.injEq] at heq
  have hlen := number_inj h.1.2 h'.1.2 heq.1
  exact keys_inj h.2 h'.2 (List.append_inj_left heq.2 (by simpa using hlen))

/-- The first item of a multisig is an opcode below those of the other
clauses. -/
theorem multisig_head {keys : List String} (h : Keys keys) :
    ∃ code, (multisig keys).head? = some (.op code) ∧ code.toNat ≤ 0x60 := by
  have hne : keys.length ≠ 0 := by have := h.1.1; omega
  have hle := h.1.2
  refine ⟨UInt8.ofNat (0x50 + keys.length), ?_, ?_⟩
  · rw [multisig, number, if_neg hne]
    rfl
  · rw [toNat_numberCode hle]
    omega

/-- The kind of a clause. -/
def kind : Clause → Nat
  | all _ => 0
  | signed _ => 1
  | opened _ _ _ => 2
  | openedBy _ _ => 3
  | never => 4

/-- The kind read off the items: by the first, and behind a hash check by
the fourth. -/
def kindOf (script : List Item) : Nat :=
  match script.head?, (script[3]? : Option Item) with
  | some (.push _), _ => 1
  | some (.op code), fourth =>
      if code.toNat ≤ 0x60 then 0
      else match fourth with
        | none => 4
        | some (.push _) => 2
        | some (.op _) => 3
  | none, _ => 4

theorem kindOf_items {c : Clause} (h : c.Valid) : kindOf c.items = c.kind := by
  cases c with
  | all keys =>
      obtain ⟨code, hhead, hle⟩ := multisig_head h
      simp only [kindOf, items, hhead, hle, if_true]
      rfl
  | signed key => rfl
  | opened twice hash key =>
      cases twice with
      | true => rfl
      | false => rfl
  | openedBy hash keys =>
      obtain ⟨code, hhead, -⟩ := multisig_head h.2
      have hfourth : (hashCheck opHash256 hash ++ multisig keys)[3]? = some (.op code) := by
        rw [List.getElem?_append_right (by simp [hashCheck]), ← hhead, List.head?_eq_getElem?]
        rfl
      simp only [kindOf, items, hfourth]
      rfl
  | never => rfl

/-- **A clause is determined by its items.** -/
theorem items_inj {c d : Clause} (hc : c.Valid) (hd : d.Valid) (heq : c.items = d.items) :
    c = d := by
  have hkind : c.kind = d.kind := by rw [← kindOf_items hc, ← kindOf_items hd, heq]
  cases c with
  | all keys =>
      cases d with
      | all keys' => rw [multisig_inj hc hd heq]
      | _ => cases hkind
  | signed key =>
      cases d with
      | signed key' => rw [key_inj hc hd (List.cons.inj heq).1]
      | _ => cases hkind
  | opened twice hash key =>
      cases d with
      | opened twice' hash' key' =>
          simp only [items, hashCheck, signature, List.cons_append, List.nil_append,
            List.cons.injEq] at heq
          obtain ⟨hop, hhash, -, hkey, -⟩ := heq
          have htwice : twice = twice' := by
            cases twice with
            | true =>
                cases twice' with
                | true => rfl
                | false => cases hop
            | false =>
                cases twice' with
                | true => cases hop
                | false => rfl
          rw [htwice, hash_inj hc.1 hd.1 hhash, key_inj hc.2 hd.2 hkey]
      | _ => cases hkind
  | openedBy hash keys =>
      cases d with
      | openedBy hash' keys' =>
          simp only [items, hashCheck, List.cons_append, List.nil_append, List.cons.injEq] at heq
          obtain ⟨-, hhash, -, hkeys⟩ := heq
          rw [hash_inj hc.1 hd.1 hhash, multisig_inj hc.2 hd.2 hkeys]
      | _ => cases hkind
  | never =>
      cases d with
      | never => rfl
      | _ => cases hkind

theorem wellFormed {c : Clause} (h : c.Valid) : WellFormed (.leaf c.items) := by
  cases c with
  | all keys => exact TemplateParams.wellFormed_multisig h
  | signed key => exact TemplateParams.wellFormed_signature h
  | opened twice hash key =>
      refine TemplateParams.wellFormed_hashCheck ?_ h.1 (ordinary_signature h.2)
      cases twice with
      | true => exact .inl rfl
      | false => exact .inr rfl
  | openedBy hash keys =>
      exact TemplateParams.wellFormed_hashCheck (.inl rfl) h.1
        (ordinary_multisig h.2.1.2 h.2.2)
  | never =>
      refine .leaf (List.cons_ne_nil _ _) fun item hitem => ?_
      obtain rfl := List.mem_singleton.mp hitem
      exact ordinary_op (by decide) (by decide)

end Clause

/-! ## Scripts -/

/-- Clauses in nested alternatives. -/
inductive Clauses where
  | leaf (c : Clause)
  | choice (yes no : Clauses)
  deriving DecidableEq, Repr

namespace Clauses

def branching : Clauses → Branching
  | leaf c => .leaf c.items
  | choice yes no => .choice yes.branching no.branching

def Valid : Clauses → Prop
  | leaf c => c.Valid
  | choice yes no => yes.Valid ∧ no.Valid

theorem wellFormed {s : Clauses} (h : s.Valid) : WellFormed s.branching := by
  induction s with
  | leaf c => exact c.wellFormed h
  | choice yes no ihyes ihno => exact .choice (ihyes h.1) (ihno h.2)

theorem branching_inj {s t : Clauses} (hs : s.Valid) (ht : t.Valid)
    (heq : s.branching = t.branching) : s = t := by
  induction s generalizing t with
  | leaf c =>
      cases t with
      | leaf d => rw [Clause.items_inj hs ht (Branching.leaf.inj heq)]
      | choice yes no => cases heq
  | choice yes no ihyes ihno =>
      cases t with
      | leaf d => cases heq
      | choice yes' no' =>
          obtain ⟨hyes, hno⟩ := Branching.choice.inj heq
          rw [ihyes hs.1 ht.1 hyes, ihno hs.2 ht.2 hno]

/-- **The bytes of a script determine its clauses.** -/
theorem write_inj {s t : Clauses} (hs : s.Valid) (ht : t.Valid)
    (heq : write s.branching.items = write t.branching.items) : s = t := by
  have hparse := congrArg parse heq
  rw [(codes_write (wellFormed hs).short).parse_eq, (codes_write (wellFormed ht).short).parse_eq,
    Option.some.injEq] at hparse
  exact branching_inj hs ht
    (Branching.items_inj (wellFormed hs).plain (wellFormed ht).plain hparse)

end Clauses

/-! ## What a template commits to -/

/-- The keys and hashes a locking script is made for: no heights, no
delays, and one form for the templates that share their clauses. -/
inductive Commitment where
  | tableRoot (seated : List String)
  | stakeLock (player operator settlement : String)
  | potLock (seated : List String) (proof winner refund : String)
  | entropyCommit (commitment player : String) (others : List String)
  | cardCustody (face holder funder : String)
  | roundState (successor default acting : String) (seated : List String)
  /-- `settle-claim` and `reveal-proof` -/
  | preimage (hash signer : String)
  /-- `fold-surrender` and `recovery` -/
  | signature (signer : String)
  | timeout (template : String) (authorisers : List String)
  deriving DecidableEq, Repr

namespace Commitment

/-- The script made for a commitment. -/
def clauses : Commitment → Clauses
  | tableRoot seated => .leaf (.all seated)
  | stakeLock player operator settlement => .choice (.leaf (.all [player, operator]))
      (.choice (.leaf (.opened true settlement player)) (.leaf (.signed player)))
  | potLock seated proof winner refund => .choice (.leaf (.all seated))
      (.choice (.leaf (.opened false proof winner)) (.leaf (.signed refund)))
  | entropyCommit commitment player others => .choice (.leaf (.opened false commitment player))
      (.choice (.leaf (if others = [] then .never else .all others)) (.leaf (.signed player)))
  | cardCustody face holder funder => .choice (.leaf (.opened true face holder))
      (.choice (.leaf (.signed holder)) (.leaf (.signed funder)))
  | roundState successor default acting seated =>
      .choice (.leaf (.opened true successor acting))
        (.choice (.leaf (.openedBy default seated)) (.leaf (.all seated)))
  | preimage hash signer => .leaf (.opened true hash signer)
  | signature signer => .leaf (.signed signer)
  | timeout template authorisers => .leaf (.openedBy template authorisers)

/-- Different commitments have different clauses. -/
theorem clauses_inj {c d : Commitment} (h : c.clauses = d.clauses) : c = d := by
  cases c with
  | tableRoot seated =>
      cases d with
      | tableRoot seated' =>
          cases h
          rfl
      | _ => cases h
  | stakeLock player operator settlement =>
      cases d with
      | stakeLock player' operator' settlement' =>
          cases h
          rfl
      | _ => cases h
  | potLock seated proof winner refund =>
      cases d with
      | potLock seated' proof' winner' refund' =>
          cases h
          rfl
      | _ => cases h
  | entropyCommit commitment player others =>
      cases d with
      | entropyCommit commitment' player' others' =>
          simp only [clauses, Clauses.choice.injEq, Clauses.leaf.injEq, Clause.opened.injEq,
            Clause.signed.injEq] at h
          obtain ⟨⟨-, rfl, rfl⟩, hothers, -⟩ := h
          have hsame : others = others' := by
            by_cases hnone : others = []
            · by_cases hnone' : others' = []
              · rw [hnone, hnone']
              · rw [if_pos hnone, if_neg hnone'] at hothers
                cases hothers
            · by_cases hnone' : others' = []
              · rw [if_neg hnone, if_pos hnone'] at hothers
                cases hothers
              · rw [if_neg hnone, if_neg hnone'] at hothers
                exact Clause.all.inj hothers
          rw [hsame]
      | _ => cases h
  | cardCustody face holder funder =>
      cases d with
      | cardCustody face' holder' funder' =>
          cases h
          rfl
      | _ => cases h
  | roundState successor default acting seated =>
      cases d with
      | roundState successor' default' acting' seated' =>
          cases h
          rfl
      | _ => cases h
  | preimage hash signer =>
      cases d with
      | preimage hash' signer' =>
          cases h
          rfl
      | _ => cases h
  | signature signer =>
      cases d with
      | signature signer' =>
          cases h
          rfl
      | _ => cases h
  | timeout template authorisers =>
      cases d with
      | timeout template' authorisers' =>
          cases h
          rfl
      | _ => cases h

end Commitment

namespace TemplateParams

/-- What a template commits to. -/
def commitment : TemplateParams → Commitment
  | tableRoot p => .tableRoot p.seatedPubkeys
  | stakeLock p => .stakeLock p.playerPubkey p.operatorPubkey p.expectedSettlementHash
  | potLock p => .potLock p.seatedPubkeys p.winnerProofHash p.winnerPubkey p.refundPubkey
  | entropyCommit p => .entropyCommit p.commitmentHash p.playerPubkey p.otherPubkeys
  | cardCustody p => .cardCustody p.faceCommitment p.holderPubkey p.originalFunderPubkey
  | foldSurrender p => .signature p.originalFunderPubkey
  | roundState p => .roundState p.successorTemplateHash p.timeoutTemplateHash
      p.actingPlayerPubkey p.seatedPubkeys
  | settleClaim p => .preimage p.settlementCommitment p.winnerPubkey
  | revealProof p => .preimage p.cardCommitment p.signerPubkey
  | recovery p => .signature p.signerPubkey
  | timeout p => .timeout p.timeoutTemplateHash p.authoriserPubkeys

theorem branching_commitment (t : TemplateParams) :
    t.commitment.clauses.branching = t.documented := by
  cases t with
  | entropyCommit p =>
      by_cases hnone : p.otherPubkeys = []
      · simp [commitment, Commitment.clauses, Clauses.branching, Clause.items, documented,
          EntropyCommitParams.documented, Clause.hashOp, hnone]
      · simp [commitment, Commitment.clauses, Clauses.branching, Clause.items, documented,
          EntropyCommitParams.documented, Clause.hashOp, hnone]
  | _ => rfl

theorem valid_commitment {t : TemplateParams} (h : t.Valid) : t.commitment.clauses.Valid := by
  cases t with
  | tableRoot p => exact h
  | stakeLock p =>
      obtain ⟨hplayer, hoperator, hhash⟩ := h
      refine ⟨⟨⟨Nat.le_of_ble_eq_true rfl, Nat.le_of_ble_eq_true rfl⟩, ?_⟩, ⟨hhash, hplayer⟩,
        hplayer⟩
      simp [hplayer, hoperator]
  | potLock p =>
      obtain ⟨hkeys, hhash, hwinner, hrefund⟩ := h
      exact ⟨hkeys, ⟨hhash, hwinner⟩, hrefund⟩
  | entropyCommit p =>
      obtain ⟨hhash, hplayer, ⟨hcount, hkeys⟩, -⟩ := h
      refine ⟨⟨hhash, hplayer⟩, ?_, hplayer⟩
      show Clause.Valid (if p.otherPubkeys = [] then .never else .all p.otherPubkeys)
      by_cases hnone : p.otherPubkeys = []
      · rw [if_pos hnone]
        trivial
      · rw [if_neg hnone]
        exact ⟨⟨List.length_pos_iff.mpr hnone, hcount⟩, hkeys⟩
  | cardCustody p =>
      obtain ⟨hhash, hholder, hfunder⟩ := h
      exact ⟨⟨hhash, hholder⟩, hholder, hfunder⟩
  | foldSurrender p => exact h
  | roundState p =>
      obtain ⟨hkeys, hsuccessor, htimeout, hacting, -⟩ := h
      exact ⟨⟨hsuccessor, hacting⟩, ⟨htimeout, hkeys⟩, hkeys⟩
  | settleClaim p => exact h
  | revealProof p => exact h
  | recovery p => exact h
  | timeout p => exact ⟨h.2.1, h.1⟩

/-- **What a locking script binds.** Two templates with valid parameters
have the same locking script exactly when they commit to the same keys
and hashes in the same places: a script fixes each of them, whatever
template it was made by, and neither a height nor a delay. -/
theorem script_binds {t u : TemplateParams} (ht : t.Valid) (hu : u.Valid) :
    t.build = u.build ↔ t.commitment = u.commitment := by
  have hbuild : t.build = .ok (write t.documented.items) := build_eq_ok_iff.mpr ⟨ht, rfl⟩
  have hbuild' : u.build = .ok (write u.documented.items) := build_eq_ok_iff.mpr ⟨hu, rfl⟩
  rw [hbuild, hbuild', ← branching_commitment t, ← branching_commitment u]
  constructor
  · intro h
    exact Commitment.clauses_inj
      (Clauses.write_inj (valid_commitment ht) (valid_commitment hu) (Outcome.ok.inj h))
  · intro h
    rw [h]

/-- A folded card and a recovery of one player share a script, at any
heights; with another key it is another. -/
theorem script_binds_sample :
    let fold : String → TemplateParams := fun key => .foldSurrender ⟨key, 100⟩
    let key := "02b1b2b1b2b1b2b1b2b1b2b1b2b1b2b1b2b1b2b1b2b1b2b1b2b1b2b1b2b1b2b1b2"
    let other := "03b1b2b1b2b1b2b1b2b1b2b1b2b1b2b1b2b1b2b1b2b1b2b1b2b1b2b1b2b1b2b1b2"
    (fold key).build = (recovery ⟨244, key⟩).build ∧ (fold key).build ≠ (fold other).build := by
  intro fold key other
  have hkey : isPubkey33 key = true := by decide
  have hother : isPubkey33 other = true := by decide
  have hfold : (fold key).Valid := hkey
  have hrecovery : (recovery ⟨244, key⟩).Valid := hkey
  have hdiffer : (fold other).Valid := hother
  refine ⟨(script_binds hfold hrecovery).mpr rfl, ?_⟩
  rw [ne_eq, script_binds hfold hdiffer]
  decide

end TemplateParams

end CardTable.Ts
