import CardTable.Basis.Selection
import CardTable.Ts.CryptoCards
import Mathlib.Data.Prod.Lex
import Mathlib.Data.String.Basic

/-!
# Conflict — the winner of two competing transactions

`packages/state-engine/src/ordering.ts` and
`apps/relay-go/pkg/engine/ordering.go`. Each party compares the
candidates it has seen two at a time, in the order they reach it, and all
must settle on one. Both functions select by one key: confirmed first,
then seen by the quorum, then the smaller transaction id.

The ids are compared as JavaScript and Go compare strings, by UTF-16 code
units and by bytes. On hex texts these are the same order.
-/

namespace CardTable

open Basis

/-- `CandidateSnapshot`, in Go `TxConflictCandidate`. -/
structure ConflictCandidate where
  txid : String
  observedByQuorum : Bool
  confirmedInBlock : Bool
  deriving DecidableEq

namespace Ts

/-- `pickConflictWinner`; `<` on strings compares code units. -/
def pickConflictWinner (a b : ConflictCandidate) : ConflictCandidate :=
  if a.confirmedInBlock ≠ b.confirmedInBlock then
    if a.confirmedInBlock then a else b
  else if a.observedByQuorum ≠ b.observedByQuorum then
    if a.observedByQuorum then a else b
  else if codeUnits a.txid < codeUnits b.txid then a else b

end Ts

namespace Go

/-- `PickConflictWinner`; `<=` on strings compares bytes, which is the
order of the code points. -/
def pickConflictWinner (a b : ConflictCandidate) : ConflictCandidate :=
  if a.confirmedInBlock ∧ ¬ b.confirmedInBlock then a
  else if b.confirmedInBlock ∧ ¬ a.confirmedInBlock then b
  else if a.observedByQuorum ∧ ¬ b.observedByQuorum then a
  else if b.observedByQuorum ∧ ¬ a.observedByQuorum then b
  else if a.txid ≤ b.txid then a
  else b

end Go

/-! ## The choice rule -/

/-- The key of the choice rule: what comes first is smaller. -/
def ConflictCandidate.rank (c : ConflictCandidate) : Bool ×ₗ Bool ×ₗ String :=
  toLex (!c.confirmedInBlock, toLex (!c.observedByQuorum, c.txid))

theorem rank_le_iff {a b : ConflictCandidate} :
    a.rank ≤ b.rank ↔
      (a.confirmedInBlock = true ∧ b.confirmedInBlock = false) ∨
        (a.confirmedInBlock = b.confirmedInBlock ∧
          ((a.observedByQuorum = true ∧ b.observedByQuorum = false) ∨
            (a.observedByQuorum = b.observedByQuorum ∧ a.txid ≤ b.txid))) := by
  have hlt : ∀ x y : Bool, (!x) < (!y) ↔ x = true ∧ y = false := by decide
  have heq : ∀ x y : Bool, (!x) = (!y) ↔ x = y := by decide
  simp only [ConflictCandidate.rank, Prod.Lex.toLex_le_toLex, hlt, heq]

/-- The key is the whole candidate. -/
theorem rank_inj {a b : ConflictCandidate} (h : a.rank = b.rank) : a = b := by
  have hpair := Prod.mk.inj (toLex_inj.mp h)
  have hrest := Prod.mk.inj (toLex_inj.mp hpair.2)
  cases a
  cases b
  simp only [ConflictCandidate.mk.injEq]
  exact ⟨hrest.2, Bool.not_inj hrest.1, Bool.not_inj hpair.1⟩

/-- **Go selects by the choice rule.** -/
theorem go_selects : Selects Go.pickConflictWinner ConflictCandidate.rank := by
  have hpick : ∀ a b, (Go.pickConflictWinner a b = a ∧ a.rank ≤ b.rank) ∨
      (Go.pickConflictWinner a b = b ∧ b.rank ≤ a.rank) := by
    intro a b
    rw [rank_le_iff, rank_le_iff]
    simp only [Go.pickConflictWinner]
    split
    · rename_i h
      exact .inl ⟨rfl, .inl (by simpa using h)⟩
    · rename_i hab
      split
      · rename_i h
        exact .inr ⟨rfl, .inl (by simpa using h)⟩
      · rename_i hba
        have hconfirmed : a.confirmedInBlock = b.confirmedInBlock := by
          cases ha : a.confirmedInBlock <;> cases hb : b.confirmedInBlock <;> simp_all
        split
        · rename_i h
          exact .inl ⟨rfl, .inr ⟨hconfirmed, .inl (by simpa using h)⟩⟩
        · rename_i hab'
          split
          · rename_i h
            exact .inr ⟨rfl, .inr ⟨hconfirmed.symm, .inl (by simpa using h)⟩⟩
          · rename_i hba'
            have hquorum : a.observedByQuorum = b.observedByQuorum := by
              cases ha : a.observedByQuorum <;> cases hb : b.observedByQuorum <;> simp_all
            split
            · rename_i h
              exact .inl ⟨rfl, .inr ⟨hconfirmed, .inr ⟨hquorum, h⟩⟩⟩
            · rename_i h
              exact .inr ⟨rfl, .inr ⟨hconfirmed.symm, .inr ⟨hquorum.symm, (not_le.mp h).le⟩⟩⟩
  constructor
  · intro a b
    exact (hpick a b).imp (·.1) (·.1)
  · intro a b
    rcases hpick a b with h | h
    · rw [h.1]
    · rw [h.1]
      exact h.2
  · intro a b
    rcases hpick a b with h | h
    · rw [h.1]
      exact h.2
    · rw [h.1]

/-! ## Hex texts -/

/-- A text of hex digits of either case. -/
def HexText (text : String) : Prop := ∀ c ∈ text.toList, ∃ v, Hex.digitVal? c.toNat = some v

theorem HexText.ascii {text : String} (h : HexText text) : ∀ c ∈ text.toList, c.toNat < 128 := by
  intro c hc
  obtain ⟨v, hv⟩ := h c hc
  simp only [Hex.digitVal?] at hv
  split at hv
  · omega
  · split at hv
    · omega
    · split at hv
      · omega
      · cases hv

/-- On hex texts the code units are in the order of the texts. -/
theorem codeUnits_lt_iff {t u : String} (ht : HexText t) (hu : HexText u) :
    Ts.codeUnits t < Ts.codeUnits u ↔ t < u := by
  have hmono : ∀ {xs ys : List Char}, xs < ys → xs.map Char.toNat < ys.map Char.toNat :=
    fun h => List.map_lt (fun _ _ hcd => hcd) h
  rw [Ts.codeUnits, Ts.codeUnits, Ts.units_of_ascii ht.ascii, Ts.units_of_ascii hu.ascii,
    String.lt_iff_toList_lt]
  constructor
  · intro h
    by_contra hnot
    rcases lt_or_eq_of_le (not_lt.mp hnot) with hback | heq
    · exact lt_asymm h (hmono hback)
    · rw [heq] at h
      exact lt_irrefl _ h
  · exact hmono

/-- On hex texts both functions choose alike; equal ids with equal flags
are one candidate. -/
theorem pick_eq {a b : ConflictCandidate} (ha : HexText a.txid) (hb : HexText b.txid) :
    Ts.pickConflictWinner a b = Go.pickConflictWinner a b := by
  obtain ⟨t, quorum, confirmed⟩ := a
  obtain ⟨u, quorum', confirmed'⟩ := b
  simp only [Ts.pickConflictWinner, Go.pickConflictWinner, codeUnits_lt_iff ha hb]
  by_cases hconfirmed : confirmed = confirmed'
  · subst hconfirmed
    by_cases hquorum : quorum = quorum'
    · subst hquorum
      rcases lt_trichotomy t u with h | h | h
      · simp [h, h.le]
      · simp [h]
      · simp [not_lt.mpr h.le, not_le.mpr h]
    · cases quorum with
      | true => simp [(Bool.eq_false_of_not_eq_true fun h => hquorum h.symm : quorum' = false)]
      | false => simp [(Bool.eq_true_of_not_eq_false fun h => hquorum h.symm : quorum' = true)]
  · cases confirmed with
    | true =>
        simp [(Bool.eq_false_of_not_eq_true fun h => hconfirmed h.symm : confirmed' = false)]
    | false =>
        simp [(Bool.eq_true_of_not_eq_false fun h => hconfirmed h.symm : confirmed' = true)]

/-- **The choice is order-free.** The candidates, however many and in
whatever order and bracketing they are compared, have one winner: the
least under the choice rule. Both functions find it. -/
theorem conflict_choice (c : ConflictCandidate) (cs : List ConflictCandidate)
    (hhex : ∀ d ∈ c :: cs, HexText d.txid) :
    ∃ w ∈ c :: cs, (∀ d ∈ c :: cs, w.rank ≤ d.rank) ∧
      cs.foldl Ts.pickConflictWinner c = w ∧ cs.foldl Go.pickConflictWinner c = w ∧
      ∀ t : Bracketing ConflictCandidate, t.leaves.Perm (c :: cs) →
        t.fold Ts.pickConflictWinner = w ∧ t.fold Go.pickConflictWinner = w := by
  have hleaves := Bracketing.leaves_ofList c cs
  have hmem := go_selects.mem_leaves (Bracketing.ofList c cs)
  have hleast := go_selects.le_of_mem (Bracketing.ofList c cs)
  rw [hleaves] at hmem hleast
  have hall : ∀ t : Bracketing ConflictCandidate, t.leaves.Perm (c :: cs) →
      t.fold Ts.pickConflictWinner = (Bracketing.ofList c cs).fold Go.pickConflictWinner ∧
        t.fold Go.pickConflictWinner = (Bracketing.ofList c cs).fold Go.pickConflictWinner := by
    intro t hperm
    have hgo : t.fold Go.pickConflictWinner = _ :=
      go_selects.fold_eq (hperm.mem_iff.mpr hmem)
        (fun a ha => hleast a (hperm.mem_iff.mp ha)) (fun _ _ _ _ => rank_inj)
    have hts : t.fold Ts.pickConflictWinner = t.fold Go.pickConflictWinner :=
      go_selects.fold_congr t fun a ha b hb =>
        pick_eq (hhex a (hperm.mem_iff.mp ha)) (hhex b (hperm.mem_iff.mp hb))
    exact ⟨hts.trans hgo, hgo⟩
  obtain ⟨hts, hgo⟩ := hall (Bracketing.ofList c cs) (by rw [hleaves])
  refine ⟨_, hmem, hleast, ?_, ?_, hall⟩
  · rw [← Bracketing.fold_ofList]
    exact hts
  · rw [← Bracketing.fold_ofList]

/-- Three candidates: the confirmed one wins over smaller ids. -/
theorem conflict_choice_sample :
    let cs : List ConflictCandidate := [⟨"b2", true, true⟩, ⟨"a1", true, false⟩]
    ∃ w ∈ (⟨"00", false, false⟩ :: cs : List ConflictCandidate),
      (∀ d ∈ (⟨"00", false, false⟩ :: cs : List ConflictCandidate), w.rank ≤ d.rank) ∧
      cs.foldl Ts.pickConflictWinner ⟨"00", false, false⟩ = w ∧
      cs.foldl Go.pickConflictWinner ⟨"00", false, false⟩ = w ∧
      ∀ t : Bracketing ConflictCandidate, t.leaves.Perm (⟨"00", false, false⟩ :: cs) →
        t.fold Ts.pickConflictWinner = w ∧ t.fold Go.pickConflictWinner = w :=
  conflict_choice _ _ (by simp [HexText, Hex.digitVal?])

end CardTable
