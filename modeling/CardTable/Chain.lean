import CardTable.Closing
import CardTable.Go.Serialise
import CardTable.Ts.Serialise

/-!
# Chain — what the prior hash of a state points to

Every handler copies the `state_hash` of the state it was given into the
`prior_state_hash` of its successor. `state_hash` is documented as the
hash of the canonical encoding, and `chainsFromHash` checks the two
against each other; but a session starts with 64 zeros there, left for
its callers to fill in, and no handler and no caller ever does.
-/

namespace CardTable

open Basis Basis.Sha256

/-- The 64 zeros are the text of 32 zero bytes, and of nothing else. -/
theorem encode_eq_zeros_iff {bytes : List UInt8} :
    Hex.encode bytes = Go.zeroHash ↔ bytes = List.replicate 32 0 := by
  have hzeros : Hex.decode Go.zeroHash = some (List.replicate 32 0) := by decide
  constructor
  · intro h
    have hdecode := Hex.decode_encode bytes
    rw [h, hzeros] at hdecode
    exact (Option.some.inj hdecode).symm
  · intro heq
    subst heq
    decide

/-- The comparison both languages make, against 64 zeros. -/
theorem zeros_match_iff {ε : Type} {encoded : Except ε (List UInt8)} :
    ((encoded >>= fun bytes => pure (Hex.encode (sha256 bytes))) >>= fun expected =>
        pure (Go.zeroHash == expected)) = .ok true ↔
      ∃ bytes, encoded = .ok bytes ∧ sha256 bytes = List.replicate 32 0 := by
  simp only [except_bind_eq_ok]
  constructor
  -- the text that is compared is the text of a digest
  · intro h
    obtain ⟨_, ⟨bytes, hencoded, hhash⟩, hequal⟩ := h
    cases hhash
    have hequal : (Go.zeroHash == Hex.encode (sha256 bytes)) = true := by
      injection hequal
    exact ⟨bytes, hencoded, encode_eq_zeros_iff.mp (beq_iff_eq.mp hequal).symm⟩
  · intro h
    obtain ⟨bytes, hencoded, hdigest⟩ := h
    refine ⟨_, ⟨bytes, hencoded, rfl⟩, ?_⟩
    rw [encode_eq_zeros_iff.mpr hdigest]
    rfl

/-! ## TypeScript -/

namespace Ts

variable {ruleSet : RuleSet} {gameId ruleSetHash : String} {deadline height : SafeNat}
  {state state' : RoundState} {action : SignedAction}
  {hist : List ((SignedAction × SafeNat) × RoundState)}

/-- Every handler writes the old state's `state_hash` and keeps it. -/
theorem Accepts.chains (h : Accepts ruleSet height state action state') :
    state'.priorStateHash = some state.stateHash ∧ state'.stateHash = state.stateHash := by
  cases h with
  | _ => exact ⟨rfl, rfl⟩

/-- **No run fills the hash in.** -/
theorem stateHash_of_run
    (h : Run ruleSet (initialState gameId ruleSetHash deadline) hist state) :
    state.stateHash = zeroHash := by
  refine h.invariant (I := fun s => s.stateHash = zeroHash) rfl ?_
  intro s input s' hs hstep
  obtain ⟨_, haccepts⟩ := accepts_of_applyAction hstep
  exact haccepts.chains.2.trans hs

/-- What `chainsFromHash` finds behind a state whose hash was never
filled in. -/
theorem chainsFromHash_iff (hzero : state.stateHash = zeroHash)
    (hprior : state'.priorStateHash = some state.stateHash) :
    chainsFromHash (some state) state' = .ok true ↔
      ∃ bytes, encodeRoundState state = .ok bytes ∧ sha256 bytes = List.replicate 32 0 := by
  simp only [chainsFromHash, hprior, hzero, computeStateHash]
  exact zeros_match_iff

end Ts

/-! ## Go -/

namespace Go

variable {ruleSet : RuleSet} {gameId ruleSetHash : String} {deadline height : UInt32}
  {state state' : RoundState} {action : SignedAction}
  {hist : List ((SignedAction × UInt32) × RoundState)}

theorem Accepts.chains (h : Accepts ruleSet height state action state') :
    state'.priorStateHash = some state.stateHash ∧ state'.stateHash = state.stateHash := by
  cases h with
  | _ => exact ⟨rfl, rfl⟩

theorem stateHash_of_run
    (h : Run ruleSet (initialState gameId ruleSetHash deadline) hist state) :
    state.stateHash = zeroHash := by
  refine h.invariant (I := fun s => s.stateHash = zeroHash) rfl ?_
  intro s input s' hs hstep
  obtain ⟨_, haccepts⟩ := accepts_of_applyAction hstep
  exact haccepts.chains.2.trans hs

theorem chainsFromHash_iff (hzero : state.stateHash = zeroHash)
    (hprior : state'.priorStateHash = some state.stateHash) :
    chainsFromHash (some state) state' = .ok true ↔
      ∃ bytes, encodeRoundState state = .ok bytes ∧ sha256 bytes = List.replicate 32 0 := by
  simp only [chainsFromHash, hprior, hzero, computeStateHash]
  exact zeros_match_iff

end Go

/-! ## Both engines -/

/-- **When a step chains.** After any run, the successor of an accepted
action points to the state before it exactly when the digest of that
state's encoding is 32 zero bytes. -/
theorem chains_iff_zero_digest (gameId ruleSetHash : String) :
    (∀ ruleSet deadline hist state action height state',
      Ts.Run ruleSet (Ts.initialState gameId ruleSetHash deadline) hist state →
      Ts.Step ruleSet state (action, height) state' →
      (Ts.chainsFromHash (some state) state' = .ok true ↔
        ∃ bytes, Ts.encodeRoundState state = .ok bytes ∧
          sha256 bytes = List.replicate 32 0)) ∧
    (∀ ruleSet deadline hist state action height state',
      Go.Run ruleSet (Go.initialState gameId ruleSetHash deadline) hist state →
      Go.Step ruleSet state (action, height) state' →
      (Go.chainsFromHash (some state) state' = .ok true ↔
        ∃ bytes, Go.encodeRoundState state = .ok bytes ∧
          sha256 bytes = List.replicate 32 0)) := by
  constructor
  · intro ruleSet deadline hist state action height state' hrun hstep
    obtain ⟨_, haccepts⟩ := Ts.accepts_of_applyAction hstep
    exact Ts.chainsFromHash_iff (Ts.stateHash_of_run hrun) haccepts.chains.1
  · intro ruleSet deadline hist state action height state' hrun hstep
    obtain ⟨_, haccepts⟩ := Go.accepts_of_applyAction hstep
    exact Go.chainsFromHash_iff (Go.stateHash_of_run hrun) haccepts.chains.1

/-- A fresh table and its recovery at the deadline. -/
def sampleTable : Ts.RoundState :=
  Ts.initialState (String.ofList (List.replicate 64 'a'))
    (String.ofList (List.replicate 64 'b')) 244

def sampleRecovery : Ts.SignedAction :=
  .recovery ⟨{ Ts.actionBy none with gameId := String.ofList (List.replicate 64 'a') }, ""⟩

def sampleRecovered : Ts.RoundState :=
  { sampleTable with
    stateClass := .recovered, allowedActions := [], priorStateHash := some Ts.zeroHash }

theorem sampleTable_recovers :
    Ts.Step Ts.defaultRuleSet sampleTable (sampleRecovery, 244) sampleRecovered := rfl

theorem chains_iff_zero_digest_sample :
    Ts.chainsFromHash (some sampleTable) sampleRecovered = .ok true ↔
      ∃ bytes, Ts.encodeRoundState sampleTable = .ok bytes ∧
        sha256 bytes = List.replicate 32 0 :=
  (chains_iff_zero_digest _ _).1 _ _ _ _ _ _ _ .start sampleTable_recovers

/-- The recovered table does not point back to the one it recovered. -/
theorem recovery_unchained :
    ¬∀ (ruleSet : Ts.RuleSet) (gameId ruleSetHash : String) (deadline height : SafeNat)
      (hist : List ((Ts.SignedAction × SafeNat) × Ts.RoundState)) (state state' : Ts.RoundState)
      (action : Ts.SignedAction) (bytes : List UInt8),
      Ts.Run ruleSet (Ts.initialState gameId ruleSetHash deadline) hist state →
      Ts.encodeRoundState state = .ok bytes →
      Ts.Step ruleSet state (action, height) state' →
        Ts.chainsFromHash (some state) state' = .ok true := by
  intro hclaim
  have hbroken : (Ts.encodeRoundState sampleTable).toOption.isSome = true ∧
      (Ts.chainsFromHash (some sampleTable) sampleRecovered).toOption = some false := by
    decide +kernel
  obtain ⟨hsome, hfalse⟩ := hbroken
  cases hencoded : Ts.encodeRoundState sampleTable with
  | error e =>
      rw [hencoded] at hsome
      cases hsome
  | ok bytes =>
      have htrue : Ts.chainsFromHash (some sampleTable) sampleRecovered = .ok true :=
        hclaim _ _ _ _ _ _ _ _ _ _ .start hencoded sampleTable_recovers
      rw [htrue] at hfalse
      cases hfalse

end CardTable
