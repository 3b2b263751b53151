import CardTable.Go.Session
import Mathlib.Order.Bounds.Basic

/-!
# Go.Reorg — replaying the transcript after a chain reorganisation

`apps/relay-go/internal/chain/reorg.go`. A chain is a list of blocks,
genesis first; what the engine sees of it is the flat list of its
actions, each with the height of its block. `Reindex` does not undo
anything: it replays the blocks both chains share and goes on with the
rest of the new chain.

A replay is a fold of the engine that stops at its first error, so it can
be cut anywhere. Where `Reindex` cuts it depends on the old chain; what
it computes does not (`reindex_eq`). The orphaned actions do depend on
the old chain, and are read off its abandoned blocks alone.
-/

namespace CardTable.Go

/-- `Block`: one block's confirmed contribution to the transcript. -/
structure Block where
  hash : String
  height : UInt32
  actions : List SignedAction
  deriving DecidableEq

/-- The loop of `DeepestCommonAncestor` at index `i`. -/
def ancestorFrom (i : Nat) : List Block → List Block → Nat
  | o :: old, n :: new => if o.hash = n.hash then ancestorFrom (i + 1) old new else i
  | _, _ => i

/-- `DeepestCommonAncestor`: how many leading blocks agree, by hash. -/
def deepestCommonAncestor (oldChain newChain : List Block) : Nat :=
  ancestorFrom 0 oldChain newChain

/-- `flatten`: the actions and their confirmation heights, block by
block. -/
def flatten (blocks : List Block) : List SignedAction × List UInt32 :=
  (blocks.flatMap (·.actions), blocks.flatMap fun b => b.actions.map fun _ => b.height)

/-- `ReindexResult`. -/
structure ReindexResult where
  state : RoundState
  orphaned : List SignedAction
  ancestorBlocks : Nat
  deriving DecidableEq

/-- `Reindex`. -/
def reindex (initial : RoundState) (ruleSet : RuleSet) (oldChain newChain : List Block) :
    Except ProtocolError ReindexResult :=
  let anc := deepestCommonAncestor oldChain newChain
  -- (1) collect the actions orphaned by the reorg
  let orphaned := (oldChain.drop anc).flatMap (·.actions)
  -- (2) rewind: the state at the common ancestor
  let (prefixActions, prefixHeights) := flatten (newChain.take anc)
  match replay initial ruleSet prefixActions prefixHeights with
  | (_, _, some perr) => .error perr
  | (ancestorState, _, none) =>
    -- (3) forward-apply the new chain's suffix
    let (suffixActions, suffixHeights) := flatten (newChain.drop anc)
    match replay ancestorState ruleSet suffixActions suffixHeights with
    | (_, _, some perr) => .error perr
    | (finalState, _, none) => .ok ⟨finalState, orphaned, anc⟩

/-! ## A replay is a fold that can be cut -/

/-- What a caller of `Replay` looks at: the error if there is one, the
state otherwise. -/
def verdict : RoundState × Int × Option ProtocolError → Except ProtocolError RoundState
  | (_, _, some perr) => .error perr
  | (state, _, none) => .ok state

/-- One action of a replay. -/
def replayOne (ruleSet : RuleSet) (state : RoundState) (called : SignedAction × UInt32) :
    Except ProtocolError RoundState :=
  applyAction state called.1 ruleSet called.2

theorem verdict_replayFrom (ruleSet : RuleSet) (state : RoundState) (i : Int)
    (called : List (SignedAction × UInt32)) :
    verdict (replayFrom ruleSet state i called) = called.foldlM (replayOne ruleSet) state := by
  induction called generalizing state i with
  | nil => rfl
  | cons c rest ih =>
      obtain ⟨a, height⟩ := c
      rw [List.foldlM_cons]
      simp only [replayFrom, replayOne]
      cases applyAction state a ruleSet height with
      | error e => rfl
      | ok next => exact ih next (i + 1)

/-- The transcript of a chain, each action with its height. -/
def transcriptOf (blocks : List Block) : List (SignedAction × UInt32) :=
  blocks.flatMap fun b => b.actions.map (·, b.height)

theorem transcriptOf_append (xs ys : List Block) :
    transcriptOf (xs ++ ys) = transcriptOf xs ++ transcriptOf ys :=
  List.flatMap_append

theorem flatten_fst (blocks : List Block) :
    (flatten blocks).1 = (transcriptOf blocks).map Prod.fst := by
  simp [flatten, transcriptOf, List.map_flatMap, Function.comp_def]

theorem flatten_snd (blocks : List Block) :
    (flatten blocks).2 = (transcriptOf blocks).map Prod.snd := by
  simp [flatten, transcriptOf, List.map_flatMap, Function.comp_def]

/-- The two lists of `flatten` always fit, so the replay of a chain is
the fold over its transcript. -/
theorem verdict_replay_flatten (initial : RoundState) (ruleSet : RuleSet) (blocks : List Block) :
    verdict (replay initial ruleSet (flatten blocks).1 (flatten blocks).2) =
      (transcriptOf blocks).foldlM (replayOne ruleSet) initial := by
  have hzip : (flatten blocks).1.zip (flatten blocks).2 = transcriptOf blocks := by
    rw [flatten_fst, flatten_snd, List.zip_map']
    simp
  have hlength : (flatten blocks).1.length = (flatten blocks).2.length := by
    rw [flatten_fst, flatten_snd, List.length_map, List.length_map]
  rw [replay, if_neg (fun h => h hlength), hzip, verdict_replayFrom]

/-- **`Reindex` in one replay**: it is the replay of the whole new chain;
the old chain enters the two reports only. -/
theorem reindex_eq (initial : RoundState) (ruleSet : RuleSet) (oldChain newChain : List Block) :
    reindex initial ruleSet oldChain newChain =
      (verdict (replay initial ruleSet (flatten newChain).1 (flatten newChain).2)).map
        fun state => ⟨state,
          (oldChain.drop (deepestCommonAncestor oldChain newChain)).flatMap (·.actions),
          deepestCommonAncestor oldChain newChain⟩ := by
  -- cut the new chain where `Reindex` does
  have hcut : transcriptOf newChain =
      transcriptOf (newChain.take (deepestCommonAncestor oldChain newChain)) ++
        transcriptOf (newChain.drop (deepestCommonAncestor oldChain newChain)) := by
    rw [← transcriptOf_append, List.take_append_drop]
  rw [verdict_replay_flatten, hcut, List.foldlM_append, ← verdict_replay_flatten]
  simp only [reindex]
  split
  · rename_i perr hrewound
    rw [hrewound]
    rfl
  · rename_i ancestorState j hrewound
    rw [hrewound]
    show _ = Except.map _ (List.foldlM (replayOne ruleSet) ancestorState _)
    rw [← verdict_replay_flatten]
    split
    · rename_i perr hforward
      rw [hforward]
      rfl
    · rename_i finalState k hforward
      rw [hforward]
      rfl

/-! ## The common ancestor -/

/-- The first `n` entries of two lists are there and agree. -/
def SharedPrefix {α : Type} (xs ys : List α) (n : Nat) : Prop :=
  n ≤ xs.length ∧ n ≤ ys.length ∧ xs.take n = ys.take n

theorem ancestorFrom_eq_add (i : Nat) (oldChain newChain : List Block) :
    ancestorFrom i oldChain newChain = i + deepestCommonAncestor oldChain newChain := by
  induction oldChain generalizing i newChain with
  | nil => rfl
  | cons o old ih =>
      cases newChain with
      | nil => rfl
      | cons n new =>
          simp only [deepestCommonAncestor, ancestorFrom]
          split
          · rw [ih (i + 1), ih (0 + 1)]
            omega
          · rfl

theorem deepestCommonAncestor_cons (o n : Block) (old new : List Block) :
    deepestCommonAncestor (o :: old) (n :: new) =
      if o.hash = n.hash then deepestCommonAncestor old new + 1 else 0 := by
  simp only [deepestCommonAncestor, ancestorFrom]
  split
  · rw [ancestorFrom_eq_add, deepestCommonAncestor]
    omega
  · rfl

/-- The ancestor is the longest shared prefix of the two hash
sequences. -/
theorem deepestCommonAncestor_isGreatest (oldChain newChain : List Block) :
    IsGreatest {n | SharedPrefix (oldChain.map (·.hash)) (newChain.map (·.hash)) n}
      (deepestCommonAncestor oldChain newChain) := by
  induction oldChain generalizing newChain with
  | nil =>
      refine ⟨⟨Nat.le_refl 0, Nat.zero_le _, rfl⟩, ?_⟩
      intro m hm
      exact hm.1
  | cons o old ih =>
      cases newChain with
      | nil =>
          refine ⟨⟨Nat.zero_le _, Nat.le_refl 0, rfl⟩, ?_⟩
          intro m hm
          exact hm.2.1
      | cons n new =>
          obtain ⟨⟨hold, hnew, htake⟩, hmost⟩ := ih new
          rw [deepestCommonAncestor_cons]
          split
          -- one more block in common
          · rename_i hhash
            refine ⟨⟨?_, ?_, ?_⟩, ?_⟩
            · simpa using hold
            · simpa using hnew
            · simp [hhash, htake]
            · intro m hm
              cases m with
              | zero => exact Nat.zero_le _
              | succ m =>
                  have hshorter : SharedPrefix (old.map (·.hash)) (new.map (·.hash)) m := by
                    obtain ⟨hl, hr, heq⟩ := hm
                    simp only [List.map_cons, List.length_cons, List.take_succ_cons,
                      List.cons.injEq, Nat.succ_le_succ_iff] at hl hr heq
                    exact ⟨hl, hr, heq.2⟩
                  exact Nat.succ_le_succ (hmost hshorter)
          -- the chains part here
          · rename_i hhash
            refine ⟨⟨Nat.zero_le _, Nat.zero_le _, rfl⟩, ?_⟩
            intro m hm
            cases m with
            | zero => exact Nat.le_refl 0
            | succ m =>
                obtain ⟨-, -, heq⟩ := hm
                simp only [List.map_cons, List.take_succ_cons, List.cons.injEq] at heq
                exact absurd heq.1 hhash

/-! ## Reindexing is a full replay -/

/-- **Reindexing is a full replay of the new chain**: it fails with the
replay's error or ends in the replay's state, whatever the old chain was,
and reports the longest prefix of hashes the two chains share. -/
theorem reindex_refines_replay (initial : RoundState) (ruleSet : RuleSet)
    (oldChain newChain : List Block) :
    let full := replay initial ruleSet (flatten newChain).1 (flatten newChain).2
    ((∃ r, reindex initial ruleSet oldChain newChain = .ok r) ↔ full.2.2 = none) ∧
      (∀ r, reindex initial ruleSet oldChain newChain = .ok r →
        r.state = full.1 ∧
          IsGreatest {n | SharedPrefix (oldChain.map (·.hash)) (newChain.map (·.hash)) n}
            r.ancestorBlocks) ∧
      (∀ perr, reindex initial ruleSet oldChain newChain = .error perr ↔
        full.2.2 = some perr) ∧
      ∀ otherChain, (reindex initial ruleSet otherChain newChain).map (·.state) =
        (reindex initial ruleSet oldChain newChain).map (·.state) := by
  intro full
  have hreindex : ∀ otherChain, reindex initial ruleSet otherChain newChain =
      (verdict full).map _ := fun otherChain => reindex_eq initial ruleSet otherChain newChain
  obtain ⟨state, i, perr?⟩ := full
  cases perr? with
  | some perr =>
      simp only [hreindex, verdict, Except.map]
      simp
  | none =>
      simp only [hreindex, verdict, Except.map]
      simp [deepestCommonAncestor_isGreatest]

/-! ## What was orphaned -/

/-- The blocks of the old chain both chains share, by hash. -/
def kept : List Block → List Block → List Block
  | o :: old, n :: new => if o.hash = n.hash then o :: kept old new else []
  | _, _ => []

/-- The blocks of the old chain after the fork. -/
def abandoned : List Block → List Block → List Block
  | o :: old, n :: new => if o.hash = n.hash then abandoned old new else o :: old
  | old, _ => old

theorem kept_append_abandoned (oldChain newChain : List Block) :
    kept oldChain newChain ++ abandoned oldChain newChain = oldChain := by
  induction oldChain generalizing newChain with
  | nil => rfl
  | cons o old ih =>
      cases newChain with
      | nil => rfl
      | cons n new =>
          simp only [kept, abandoned]
          split
          · rw [List.cons_append, ih]
          · rfl

theorem drop_ancestor (oldChain newChain : List Block) :
    oldChain.drop (deepestCommonAncestor oldChain newChain) = abandoned oldChain newChain := by
  induction oldChain generalizing newChain with
  | nil => simp [abandoned]
  | cons o old ih =>
      cases newChain with
      | nil => rfl
      | cons n new =>
          rw [deepestCommonAncestor_cons]
          simp only [abandoned]
          split
          · rw [List.drop_succ_cons, ih]
          · rfl

/-- The action is mined somewhere on the chain. -/
def Mined (a : SignedAction) (blocks : List Block) : Prop := ∃ b ∈ blocks, a ∈ b.actions

theorem mined_append {a : SignedAction} {xs ys : List Block} :
    Mined a (xs ++ ys) ↔ Mined a xs ∨ Mined a ys := by
  simp only [Mined, List.mem_append, or_and_right, exists_or]

theorem mined_iff_kept_or_abandoned {a : SignedAction} {oldChain : List Block}
    (newChain : List Block) :
    Mined a oldChain ↔ Mined a (kept oldChain newChain) ∨ Mined a (abandoned oldChain newChain) := by
  rw [← mined_append, kept_append_abandoned]

theorem mem_orphaned {initial : RoundState} {ruleSet : RuleSet} {oldChain newChain : List Block}
    {r : ReindexResult} (h : reindex initial ruleSet oldChain newChain = .ok r)
    {a : SignedAction} : a ∈ r.orphaned ↔ Mined a (abandoned oldChain newChain) := by
  rw [reindex_eq, drop_ancestor] at h
  cases hfull : verdict (replay initial ruleSet (flatten newChain).1 (flatten newChain).2) with
  | error perr =>
      rw [hfull] at h
      cases h
  | ok state =>
      rw [hfull] at h
      cases h
      simp [Mined]

/-- No action of the abandoned blocks is mined again on the new chain. -/
def NoneRemined (oldChain newChain : List Block) : Prop :=
  ∀ a, Mined a (abandoned oldChain newChain) → ¬ Mined a newChain

/-- Every action of the shared blocks is on the new chain, unless an
abandoned block repeats it. -/
def SharedKept (oldChain newChain : List Block) : Prop :=
  ∀ a, Mined a (kept oldChain newChain) → ¬ Mined a (abandoned oldChain newChain) →
    Mined a newChain

section Lost

variable {initial : RoundState} {ruleSet : RuleSet} {oldChain newChain : List Block}
  {r : ReindexResult}

theorem orphaned_lost (h : reindex initial ruleSet oldChain newChain = .ok r)
    (hremined : NoneRemined oldChain newChain) (hshared : SharedKept oldChain newChain)
    (a : SignedAction) : a ∈ r.orphaned ↔ Mined a oldChain ∧ ¬ Mined a newChain := by
  rw [mem_orphaned h]
  constructor
  · intro hab
    exact ⟨(mined_iff_kept_or_abandoned newChain).mpr (.inr hab), hremined a hab⟩
  · intro hlost
    obtain ⟨hold, hnew⟩ := hlost
    by_contra hab
    rcases (mined_iff_kept_or_abandoned newChain).mp hold with hkept | hab'
    · exact hnew (hshared a hkept hab)
    · exact hab hab'

theorem noneRemined_of_lost (h : reindex initial ruleSet oldChain newChain = .ok r)
    (hexact : ∀ a, a ∈ r.orphaned ↔ Mined a oldChain ∧ ¬ Mined a newChain) :
    NoneRemined oldChain newChain := by
  intro a hab
  exact ((hexact a).mp ((mem_orphaned h).mpr hab)).2

theorem sharedKept_of_lost (h : reindex initial ruleSet oldChain newChain = .ok r)
    (hexact : ∀ a, a ∈ r.orphaned ↔ Mined a oldChain ∧ ¬ Mined a newChain) :
    SharedKept oldChain newChain := by
  intro a hkept hab
  by_contra hlost
  have hlisted : a ∈ r.orphaned :=
    (hexact a).mpr ⟨(mined_iff_kept_or_abandoned newChain).mpr (.inl hkept), hlost⟩
  exact hab ((mem_orphaned h).mp hlisted)

/-- **When the orphaned actions are the lost ones.** `Reindex` lists the
abandoned blocks without looking for their actions on the new chain, so
the list is right exactly when none of them was mined again (and the
blocks that count as shared did not lose one). -/
theorem orphaned_lost_iff (h : reindex initial ruleSet oldChain newChain = .ok r) :
    (∀ a, a ∈ r.orphaned ↔ Mined a oldChain ∧ ¬ Mined a newChain) ↔
      NoneRemined oldChain newChain ∧ SharedKept oldChain newChain := by
  constructor
  · intro hexact
    exact ⟨noneRemined_of_lost h hexact, sharedKept_of_lost h hexact⟩
  · intro hcond a
    exact orphaned_lost h hcond.1 hcond.2 a

/-- The second player's seat, taken in a block that a reorganisation
replaces and mined again one block later. -/
def secondJoin : SignedAction :=
  { bareAction sampleGame .join (some 1) with
    actionNonce := "2", playerPubkey := "02" ++ hex64 'd', stakeAmount := 1000 }

def firstBlock : Block :=
  ⟨"blk0", 100, [{ bareAction sampleGame .join (some 0) with
    actionNonce := "1", playerPubkey := "02" ++ hex64 'c', stakeAmount := 1000 }]⟩

def forkedChain : List Block := [firstBlock, ⟨"blk1-old", 101, [secondJoin]⟩]

def reminingChain : List Block :=
  [firstBlock, ⟨"blk1-new", 101, []⟩, ⟨"blk2-new", 102, [secondJoin]⟩]

theorem orphaned_lost_iff_sample :
    ∃ r, reindex (initialState sampleGame "0" 244) defaultRuleSet forkedChain [firstBlock] =
        .ok r ∧
      ((∀ a, a ∈ r.orphaned ↔ Mined a forkedChain ∧ ¬ Mined a [firstBlock]) ↔
        NoneRemined forkedChain [firstBlock] ∧ SharedKept forkedChain [firstBlock]) := by
  have hok : (reindex (initialState sampleGame "0" 244) defaultRuleSet forkedChain
      [firstBlock]).isOk = true := by decide
  obtain ⟨r, hr⟩ := Basis.except_exists_of_isOk hok
  exact ⟨r, hr, orphaned_lost_iff hr⟩

/-- The re-mined seat is listed as orphaned and is on the new chain. -/
theorem remined_listed :
    ∃ r, reindex (initialState sampleGame "0" 244) defaultRuleSet forkedChain reminingChain =
        .ok r ∧
      ¬ ∀ a, a ∈ r.orphaned ↔ Mined a forkedChain ∧ ¬ Mined a reminingChain := by
  have hok : (reindex (initialState sampleGame "0" 244) defaultRuleSet forkedChain
      reminingChain).isOk = true := by decide
  obtain ⟨r, hr⟩ := Basis.except_exists_of_isOk hok
  refine ⟨r, hr, ?_⟩
  intro hexact
  have hlisted : secondJoin ∈ r.orphaned := by
    rw [mem_orphaned hr]
    exact ⟨⟨"blk1-old", 101, [secondJoin]⟩, by decide, by decide⟩
  have hmined : Mined secondJoin reminingChain :=
    ⟨⟨"blk2-new", 102, [secondJoin]⟩, by decide, by decide⟩
  exact ((hexact secondJoin).mp hlisted).2 hmined

/-- On chains where a block's hash stands for its actions the shared
blocks lose nothing. -/
theorem mined_of_kept {a : SignedAction} {oldChain newChain : List Block}
    (hbind : ∀ o ∈ oldChain, ∀ n ∈ newChain, o.hash = n.hash → o.actions = n.actions)
    (hkept : Mined a (kept oldChain newChain)) : Mined a newChain := by
  induction oldChain generalizing newChain with
  | nil => simp [Mined, kept] at hkept
  | cons o old ih =>
      cases newChain with
      | nil => simp [Mined, kept] at hkept
      | cons n new =>
          simp only [kept] at hkept
          split at hkept
          · rename_i hhash
            obtain ⟨b, hb, ha⟩ := hkept
            rcases List.mem_cons.mp hb with rfl | hb
            · refine ⟨n, List.mem_cons_self, ?_⟩
              rwa [← hbind b List.mem_cons_self n List.mem_cons_self hhash]
            · have hrest : ∀ o ∈ old, ∀ n ∈ new, o.hash = n.hash → o.actions = n.actions := by
                intro o ho n hn
                exact hbind o (List.mem_cons_of_mem _ ho) n (List.mem_cons_of_mem _ hn)
              obtain ⟨m, hm, ham⟩ := ih hrest ⟨b, hb, ha⟩
              exact ⟨m, List.mem_cons_of_mem _ hm, ham⟩
          · simp [Mined] at hkept

/-- There the orphaned actions are the lost ones exactly when none of
them was mined again. -/
theorem noneRemined_iff_of_binding (h : reindex initial ruleSet oldChain newChain = .ok r)
    (hbind : ∀ o ∈ oldChain, ∀ n ∈ newChain, o.hash = n.hash → o.actions = n.actions) :
    (∀ a, a ∈ r.orphaned ↔ Mined a oldChain ∧ ¬ Mined a newChain) ↔
      NoneRemined oldChain newChain := by
  constructor
  · exact noneRemined_of_lost h
  · intro hremined
    exact orphaned_lost h hremined (fun a hkept _ => mined_of_kept hbind hkept)

end Lost

end CardTable.Go
