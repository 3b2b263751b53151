import CardTable.Go.Sighash
import CardTable.Ts.Sighash
import Mathlib.Data.List.Nodup

/-!
# Signing — what both languages sign

The digest is the same in TypeScript and Go, and it commits to the whole
transaction.
-/

namespace CardTable

open Basis Tx

/-- **A signature commits to the whole transaction.** Both languages make
the same digest of an input. Two signatures of all inputs and outputs with
one digest are alike, where the hash does not collide among the texts they
are made of. -/
theorem sighash_commits {n : Nat} (hn : n < 2 ^ 64) :
    (∀ s : SighashInputs, s.Bounded n →
      ∀ d, Ts.computeSighash s = .ok d ↔ Go.computeSighash s = .ok d) ∧
    ∀ s s' : SighashInputs, s.Bounded n → s'.Bounded n →
      s.hashType = sighashAllForkID → s'.hashType = sighashAllForkID →
      Set.InjOn sha256d (s.hashed ∪ s'.hashed) →
      ∀ d, Ts.computeSighash s = .ok d → Ts.computeSighash s' = .ok d → s.Alike s' := by
  constructor
  · intro s hs d
    rw [Ts.computeSighash_eq_ok, Go.computeSighash_eq_ok hn hs]
  · intro s s' hs hs' htype htype' hinj d hd hd'
    obtain ⟨i, hi, rfl⟩ := Ts.computeSighash_eq_ok.mp hd
    obtain ⟨i', hi', hdigest⟩ := Ts.computeSighash_eq_ok.mp hd'
    exact alike_of_digest hn hs hs' htype htype' hi.2 hi'.2 hinj hdigest

/-- An input, with the script that unlocks it. -/
def sampleInput (unlockingScript : List UInt8) : TxInput :=
  ⟨List.replicate 32 7, 1, unlockingScript, 0xffffffff⟩

def sampleSigned (unlockingScript : List UInt8) : SighashInputs :=
  ⟨⟨1, [sampleInput unlockingScript], [], 0⟩, 0, [0x51], 546, sighashAllForkID⟩

/-- The texts hashed for it; the script is in none of them. -/
def sampleTexts : List (List UInt8) :=
  let s := sampleSigned []
  [prevouts s.tx, sequences s.tx, outputs s.tx, preimage s (sampleInput [])]

theorem hashed_sampleSigned (script : List UInt8) :
    (sampleSigned script).hashed ⊆ {x | x ∈ sampleTexts} := by
  intro x hx
  rcases hx with rfl | rfl | rfl | ⟨i, hi, rfl⟩
  · exact List.mem_cons_self
  · exact List.mem_cons_of_mem _ List.mem_cons_self
  · exact List.mem_cons_of_mem _ (List.mem_cons_of_mem _ List.mem_cons_self)
  · obtain rfl : sampleInput script = i := Option.some.inj hi
    exact List.mem_cons_of_mem _ (List.mem_cons_of_mem _ (List.mem_cons_of_mem _
      List.mem_cons_self))

theorem sighash_commits_sample : (∃ d, Ts.computeSighash (sampleSigned []) = .ok d ∧
      Ts.computeSighash (sampleSigned [0]) = .ok d ∧
      Go.computeSighash (sampleSigned [0]) = .ok d) ∧
    (sampleSigned []).Alike (sampleSigned [0]) := by
  have hempty : (sampleSigned []).Bounded 1 :=
    ⟨⟨by decide, by decide, by decide, by decide, by decide⟩, by decide⟩
  have hone : (sampleSigned [0]).Bounded 1 :=
    ⟨⟨by decide, by decide, by decide, by decide, by decide⟩, by decide⟩
  have hflag : sighashAllForkID &&& sighashForkID ≠ 0 := by decide
  have hsigns : ∀ script, Ts.computeSighash (sampleSigned script) =
      .ok (sha256d (preimage (sampleSigned []) (sampleInput []))) := fun script =>
    Ts.computeSighash_eq_ok.mpr ⟨sampleInput script, ⟨hflag, rfl⟩, rfl⟩
  have hnodup : (sampleTexts.map sha256d).Nodup := by decide +kernel
  have hinj : Set.InjOn sha256d ((sampleSigned []).hashed ∪ (sampleSigned [0]).hashed) := by
    refine Set.InjOn.mono (Set.union_subset (hashed_sampleSigned _) (hashed_sampleSigned _)) ?_
    exact fun x hx y hy => List.inj_on_of_nodup_map hnodup hx hy
  obtain ⟨hagree, hcommits⟩ := sighash_commits (n := 1) (by decide)
  exact ⟨⟨_, hsigns _, hsigns _, (hagree _ hone _).mp (hsigns _)⟩,
    hcommits _ _ hempty hone rfl rfl hinj _ (hsigns _) (hsigns _)⟩

end CardTable
