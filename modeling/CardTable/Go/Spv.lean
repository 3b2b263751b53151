import CardTable.Basis.Run
import Mathlib.Data.List.Enum
import Mathlib.Logic.Function.Basic

/-!
# Go.Spv — the header cache and the chain of its node

`apps/relay-go/internal/spv/cache.go`. A refresh asks the node for its
height and then writes the tip; `HeaderAt` looks a header up, asks the
node when it has none, and then writes what it was told. The lock is held
for one of these accesses at a time, so anything may happen between the
answer of the node and the write, a change of the chain included.

Nothing ever leaves the map. The cache follows the chain as long as no
change of the chain puts another header at a height whose header is
cached, or on its way (`Kept`); the first change that does is served for
ever.
-/

namespace CardTable.Go.Spv

open Basis

/-- `BlockHeader`. -/
structure BlockHeader where
  height : UInt32
  hash : String
  previousHash : String
  merkleRoot : String
  time : UInt32
  bits : UInt32
  nonce : UInt32
  version : Int32
  deriving DecidableEq

/-! ## The node -/

/-- The chain a node is on, genesis first. -/
structure NodeChain where
  genesis : BlockHeader
  rest : List BlockHeader
  deriving DecidableEq

namespace NodeChain

def blocks (c : NodeChain) : List BlockHeader := c.genesis :: c.rest

/-- Every block sits at its height. -/
def wellFormed (c : NodeChain) : Bool :=
  c.blocks.zipIdx.all fun b => b.1.height.toNat == b.2

/-- What `GetBestBlockHeight` is told. -/
def best (c : NodeChain) : UInt32 := UInt32.ofNat c.rest.length

/-- What `GetBlockHeaderByHeight` is told. -/
def headerAt (c : NodeChain) (height : UInt32) : Option BlockHeader := c.blocks[height.toNat]?

/-- A chain has no block above its height. -/
theorem best_lt {c : NodeChain} {height : UInt32} (h : c.headerAt height = none) :
    c.best < height := by
  have hlen := List.getElem?_eq_none_iff.mp h
  have hlt := height.toNat_lt
  rw [blocks, List.length_cons] at hlen
  rw [UInt32.lt_iff_toNat_lt, best, UInt32.toNat_ofNat_of_lt' (Nat.lt_trans hlen hlt)]
  exact hlen

/-- A chain has a block at every height up to its own. -/
theorem le_best {c : NodeChain} (hwf : c.wellFormed) {height : UInt32} {b : BlockHeader}
    (h : c.headerAt height = some b) : height ≤ c.best := by
  obtain ⟨hlt, _⟩ := List.getElem?_eq_some_iff.mp h
  rw [blocks, List.length_cons] at hlt
  -- the last block carries its height, so the height fits
  have hlast : c.rest.length < c.blocks.length := Nat.lt_succ_self _
  have hmem : (c.blocks[c.rest.length], c.rest.length) ∈ c.blocks.zipIdx := by
    rw [List.mem_zipIdx_iff_getElem?, List.getElem?_eq_getElem hlast]
  have hheight : c.blocks[c.rest.length].height.toNat = c.rest.length :=
    eq_of_beq (List.all_eq_true.mp hwf _ hmem)
  have hfits : c.rest.length < 2 ^ 32 := by
    rw [← hheight]
    exact UInt32.toNat_lt _
  rw [UInt32.le_iff_toNat_le, best, UInt32.toNat_ofNat_of_lt' hfits]
  exact Nat.le_of_lt_succ hlt

end NodeChain

/-! ## The cache -/

/-- `HeaderCache`; the map is a partial function. -/
structure HeaderCache where
  tip : UInt32
  heads : UInt32 → Option BlockHeader

/-- `NewHeaderCache`. -/
def newHeaderCache : HeaderCache := ⟨0, fun _ => none⟩

namespace HeaderCache

/-- What `refresh` does under the lock. -/
def setTip (c : HeaderCache) (h : UInt32) : HeaderCache := { c with tip := h }

/-- What `HeaderAt` does under the lock, once it was answered. -/
def put (c : HeaderCache) (height : UInt32) (h : BlockHeader) : HeaderCache :=
  { c with heads := Function.update c.heads height (some h) }

end HeaderCache

/-! ## Calls -/

/-- How far a call has come. -/
inductive Call where
  /-- `refresh` has asked the node. -/
  | refreshing
  /-- `refresh` has its answer and waits for the lock. -/
  | tipInHand (h : UInt32)
  | refreshed
  /-- `HeaderAt` found nothing and has asked the node. -/
  | fetching (height : UInt32)
  /-- `HeaderAt` has its answer and waits for the lock. -/
  | headerInHand (height : UInt32) (h : BlockHeader)
  | returned (result : Except String BlockHeader)

/-- The node, the cache, and the calls under way, by number. -/
structure State where
  node : NodeChain
  cache : HeaderCache
  calls : Nat → Option Call

/-- A service that was just started. -/
def start (chain : NodeChain) : State := ⟨chain, newHeaderCache, fun _ => none⟩

def State.setCall (s : State) (k : Nat) (c : Call) : State :=
  { s with calls := Function.update s.calls k (some c) }

/-- What happens next. The node answers with its chain, or with an
error. -/
inductive Event where
  | change (chain : NodeChain)
  | refresh (r : Nat)
  | answerHeight (r : Nat) (fault : Bool)
  | setTip (r : Nat)
  | headerAt (k : Nat) (height : UInt32)
  | answerHeader (k : Nat) (err : Option String)
  | store (k : Nat)
  deriving DecidableEq

/-- One step. -/
def step (s : State) : Event → Option State
  | .change chain => if chain.wellFormed then some { s with node := chain } else none
  | .refresh r =>
      match s.calls r with
      | none => some (s.setCall r .refreshing)
      | some _ => none
  | .answerHeight r fault =>
      match s.calls r with
      | some .refreshing =>
          some (s.setCall r (if fault then .refreshed else .tipInHand s.node.best))
      | _ => none
  | .setTip r =>
      match s.calls r with
      | some (.tipInHand h) => some { s.setCall r .refreshed with cache := s.cache.setTip h }
      | _ => none
  | .headerAt k height =>
      match s.calls k with
      | none =>
        match s.cache.heads height with
        | some h => some (s.setCall k (.returned (.ok h)))
        | none => some (s.setCall k (.fetching height))
      | some _ => none
  | .answerHeader k err =>
      match s.calls k with
      | some (.fetching height) =>
        match err with
        | some e => some (s.setCall k (.returned (.error e)))
        | none =>
          match s.node.headerAt height with
          | some h => some (s.setCall k (.headerInHand height h))
          -- there is no such block to answer with
          | none => none
      | _ => none
  | .store k =>
      match s.calls k with
      | some (.headerInHand height h) =>
          some { s.setCall k (.returned (.ok h)) with cache := s.cache.put height h }
      | _ => none

/-- What a step can do. -/
inductive Moves (s : State) : Event → State → Prop where
  | change {chain : NodeChain} (hwf : chain.wellFormed) :
      Moves s (.change chain) { s with node := chain }
  | refresh {r : Nat} (hnew : s.calls r = none) : Moves s (.refresh r) (s.setCall r .refreshing)
  | noHeight {r : Nat} (hcall : s.calls r = some .refreshing) :
      Moves s (.answerHeight r true) (s.setCall r .refreshed)
  | height {r : Nat} (hcall : s.calls r = some .refreshing) :
      Moves s (.answerHeight r false) (s.setCall r (.tipInHand s.node.best))
  | setTip {r : Nat} {h : UInt32} (hcall : s.calls r = some (.tipInHand h)) :
      Moves s (.setTip r) { s.setCall r .refreshed with cache := s.cache.setTip h }
  | hit {k : Nat} {height : UInt32} {h : BlockHeader} (hnew : s.calls k = none)
      (hhit : s.cache.heads height = some h) :
      Moves s (.headerAt k height) (s.setCall k (.returned (.ok h)))
  | miss {k : Nat} {height : UInt32} (hnew : s.calls k = none)
      (hmiss : s.cache.heads height = none) :
      Moves s (.headerAt k height) (s.setCall k (.fetching height))
  | noHeader {k : Nat} {height : UInt32} {e : String} (hcall : s.calls k = some (.fetching height)) :
      Moves s (.answerHeader k (some e)) (s.setCall k (.returned (.error e)))
  | header {k : Nat} {height : UInt32} {h : BlockHeader}
      (hcall : s.calls k = some (.fetching height)) (hnode : s.node.headerAt height = some h) :
      Moves s (.answerHeader k none) (s.setCall k (.headerInHand height h))
  | store {k : Nat} {height : UInt32} {h : BlockHeader}
      (hcall : s.calls k = some (.headerInHand height h)) :
      Moves s (.store k)
        { s.setCall k (.returned (.ok h)) with cache := s.cache.put height h }

theorem step_eq_some_iff {s s' : State} {e : Event} : step s e = some s' ↔ Moves s e s' := by
  constructor
  · intro h
    unfold step at h
    split at h
    case h_1 =>
      split at h
      · rename_i hwf
        cases h
        exact .change hwf
      · cases h
    case h_2 =>
      split at h
      · rename_i hnew
        cases h
        exact .refresh hnew
      · cases h
    case h_3 r fault =>
      split at h
      · rename_i hcall
        cases fault
        · cases h
          exact .height hcall
        · cases h
          exact .noHeight hcall
      · cases h
    case h_4 =>
      split at h
      · rename_i hcall
        cases h
        exact .setTip hcall
      · cases h
    case h_5 =>
      split at h
      · rename_i hnew
        split at h
        · rename_i hhit
          cases h
          exact .hit hnew hhit
        · rename_i hmiss
          cases h
          exact .miss hnew hmiss
      · cases h
    case h_6 =>
      split at h
      · rename_i hcall
        split at h
        · cases h
          exact .noHeader hcall
        · split at h
          · rename_i hnode
            cases h
            exact .header hcall hnode
          · cases h
      · cases h
    case h_7 =>
      split at h
      · rename_i hcall
        cases h
        exact .store hcall
      · cases h
  · intro h
    cases h with
    | change hwf => simp [step, hwf]
    | refresh hnew => simp [step, hnew]
    | noHeight hcall => simp [step, hcall]
    | height hcall => simp [step, hcall]
    | setTip hcall => simp [step, hcall]
    | hit hnew hhit => simp [step, hnew, hhit]
    | miss hnew hmiss => simp [step, hnew, hmiss]
    | noHeader hcall => simp [step, hcall]
    | header hcall hnode => simp [step, hcall, hnode]
    | store hcall => simp [step, hcall]

/-! ## What a step leaves alone -/

section Frame

variable {s s' : State} {e : Event}

@[simp] theorem setCall_self (s : State) (k : Nat) (c : Call) : (s.setCall k c).calls k = some c :=
  Function.update_self ..

theorem setCall_other (s : State) {k j : Nat} (c : Call) (h : j ≠ k) :
    (s.setCall k c).calls j = s.calls j :=
  Function.update_of_ne h ..

@[simp] theorem setCall_node (s : State) (k : Nat) (c : Call) : (s.setCall k c).node = s.node := rfl

@[simp] theorem setCall_cache (s : State) (k : Nat) (c : Call) :
    (s.setCall k c).cache = s.cache := rfl

/-- What a call holds after another call moved, or after its own. -/
theorem of_setCall {k j : Nat} {c d : Call} (h : (s.setCall k c).calls j = some d) :
    (j = k ∧ c = d) ∨ s.calls j = some d := by
  by_cases hjk : j = k
  · subst hjk
    rw [setCall_self] at h
    exact .inl ⟨rfl, Option.some.inj h⟩
  · rw [setCall_other s c hjk] at h
    exact .inr h

/-- Steps other than a change of the chain. -/
def Event.Calm : Event → Prop
  | .change _ => False
  | _ => True

instance : DecidablePred Event.Calm
  | .change _ => isFalse id
  | .refresh _ | .answerHeight _ _ | .setTip _ | .headerAt _ _ | .answerHeader _ _ | .store _ =>
      isTrue trivial

theorem Moves.node_eq (h : Moves s e s') (hcalm : e.Calm) : s'.node = s.node := by
  cases h with
  | change => exact hcalm.elim
  | _ => rfl

/-- A header the cache has, or a call has in hand. -/
def State.Known (s : State) (height : UInt32) (b : BlockHeader) : Prop :=
  s.cache.heads height = some b ∨ ∃ k, s.calls k = some (.headerInHand height b)

/-- A call that took no header knows none. -/
theorem known_of_setCall {k : Nat} {c : Call} (hc : ∀ height b, c ≠ .headerInHand height b)
    {height : UInt32} {b : BlockHeader} (h : (s.setCall k c).Known height b) :
    s.Known height b := by
  rcases h with hcached | ⟨j, hj⟩
  · exact .inl hcached
  · rcases of_setCall hj with ⟨_, heq⟩ | hj
    · exact absurd heq (hc height b)
    · exact .inr ⟨j, hj⟩

/-- Headers come from the node. -/
theorem Moves.known (h : Moves s e s') {height : UInt32} {b : BlockHeader}
    (hknown : s'.Known height b) :
    s.Known height b ∨ (e.Calm ∧ s.node.headerAt height = some b) := by
  cases h with
  | change => exact .inl hknown
  | refresh | noHeight | height | setTip | hit | miss | noHeader =>
      exact .inl (known_of_setCall (fun _ _ => Call.noConfusion) hknown)
  | header hcall hnode =>
      rcases hknown with hcached | ⟨j, hj⟩
      · exact .inl (.inl hcached)
      · rcases of_setCall hj with ⟨_, heq⟩ | hj
        · cases heq
          exact .inr ⟨trivial, hnode⟩
        · exact .inl (.inr ⟨j, hj⟩)
  | @store k height' h hcall =>
      rcases hknown with hcached | ⟨j, hj⟩
      · by_cases hheight : height = height'
        · subst hheight
          have hput : (s.cache.put height h).heads height = some h := Function.update_self ..
          cases hput.symm.trans hcached
          exact .inl (.inr ⟨k, hcall⟩)
        · have hput : (s.cache.put height' h).heads height = s.cache.heads height :=
            Function.update_of_ne hheight ..
          exact .inl (.inl (hput.symm.trans hcached))
      · rcases of_setCall hj with ⟨_, heq⟩ | hj
        · cases heq
        · exact .inl (.inr ⟨j, hj⟩)

/-- Tips come from the node. -/
theorem Moves.tipInHand (h : Moves s e s') {r : Nat} {v : UInt32}
    (htip : s'.calls r = some (.tipInHand v)) :
    s.calls r = some (.tipInHand v) ∨ (e.Calm ∧ v = s.node.best) := by
  cases h with
  | change => exact .inl htip
  | height hcall =>
      rcases of_setCall htip with ⟨_, heq⟩ | htip
      · cases heq
        exact .inr ⟨trivial, rfl⟩
      · exact .inl htip
  | refresh | noHeight | setTip | hit | miss | noHeader | header | store =>
      rcases of_setCall htip with ⟨_, heq⟩ | htip
      · cases heq
      · exact .inl htip

/-- The cached tip comes from a refresh. -/
theorem Moves.tip (h : Moves s e s') :
    s'.cache.tip = s.cache.tip ∨ ∃ r, e = .setTip r ∧ s.calls r = some (.tipInHand s'.cache.tip) := by
  cases h with
  | setTip hcall => exact .inr ⟨_, rfl, hcall⟩
  | _ => exact .inl rfl

end Frame

/-! ## The claim of the cache

`FollowsChain` is about a run; its steps are kept with the states they
led to. -/

/-- A refresh that began and wrote its tip within these steps. -/
def Refreshed (hist : List (Event × State)) : Prop :=
  ∃ r before between after u v,
    hist = before ++ (.refresh r, u) :: between ++ (.setTip r, v) :: after

/-- **The cache follows the chain**: a `HeaderAt` at or below the tip that
began after a refresh which followed the last change of the chain returns
the header of the node, if it returns one. -/
def FollowsChain (s₀ : State) (hist : List (Event × State)) (s : State) : Prop :=
  ∀ before since after k height b t,
    hist = before ++ since ++ (.headerAt k height, t) :: after →
    (∀ e ∈ since ++ after, e.1.Calm) → Refreshed since →
    height ≤ (lastState s₀ (before ++ since)).cache.tip →
    s.calls k = some (.returned (.ok b)) → s.node.headerAt height = some b

/-- What a change of the chain must keep: every header that is cached, or
in the hands of a call. Its height may be dropped, unless a refresh has a
tip in hand that still covers it. -/
def State.Kept (s : State) (chain : NodeChain) : Prop :=
  ∀ height b, s.Known height b → chain.headerAt height = some b ∨
    (chain.headerAt height = none ∧
      ∀ r v, s.calls r = some (.tipInHand v) → v < height)

/-- The condition on a step. -/
def State.Meets (s : State) : Event → Prop
  | .change chain => s.Kept chain
  | _ => True

/-! ## Runs whose changes keep the headers -/

section Kept

variable {s s' : State} {e : Event}

/-- What the cache knows is what the node has, or is above every tip. -/
theorem kept_step (hkept : s.Kept s.node) (h : Moves s e s') (hmeets : s.Meets e) :
    s'.Kept s'.node := by
  intro height b hknown
  by_cases hcalm : e.Calm
  · rw [h.node_eq hcalm]
    rcases h.known hknown with hknown | ⟨_, hnode⟩
    · rcases hkept height b hknown with hnode | ⟨hnone, htips⟩
      · exact .inl hnode
      · refine .inr ⟨hnone, ?_⟩
        intro r v htip
        rcases h.tipInHand htip with htip | ⟨_, rfl⟩
        · exact htips r v htip
        · exact NodeChain.best_lt hnone
    · exact .inl hnode
  · cases h with
    | change => exact hmeets height b hknown
    | _ => exact absurd trivial hcalm

/-- What the cache knows is what the node has, or is above its tip. -/
def State.Settled (s : State) : Prop :=
  ∀ height b, s.Known height b → s.node.headerAt height = some b ∨ s.cache.tip < height

/-- A tip that is written settles the cache until the chain changes. -/
theorem settled_step (hkept : s.Kept s.node) (h : Moves s e s') (hcalm : e.Calm)
    (hs : (∃ r, e = .setTip r) ∨ s.Settled) : s'.Settled := by
  intro height b hknown
  rw [h.node_eq hcalm]
  rcases h.known hknown with hbefore | ⟨_, hnode⟩
  · rcases hkept height b hbefore with hnode | ⟨hnone, htips⟩
    · exact .inl hnode
    · right
      rcases hs with ⟨r, rfl⟩ | hs
      · cases h with
        | setTip hcall => exact htips r _ hcall
      · rcases h.tip with htip | ⟨r, _, hcall⟩
        · rw [htip]
          rcases hs height b hbefore with hnode | habove
          · cases hnone.symm.trans hnode
          · exact habove
        · exact htips r _ hcall
  · exact .inl hnode

/-- Nothing but the node's header as it is now comes of this call. -/
def Call.Answers (node : NodeChain) (height : UInt32) : Call → Prop
  | .fetching h => h = height
  | .headerInHand h b => h = height ∧ node.headerAt height = some b
  | .returned (.ok b) => node.headerAt height = some b
  | .returned (.error _) => True
  | _ => False

def State.Answers (s : State) (k : Nat) (height : UInt32) : Prop :=
  ∃ c, s.calls k = some c ∧ c.Answers s.node height

/-- A call that looks a header up in a settled cache will answer with the
node's. -/
theorem answers_headerAt {k : Nat} {height : UInt32} (hs : s.Settled)
    (h : Moves s (.headerAt k height) s') (hle : height ≤ s.cache.tip) : s'.Answers k height := by
  cases h with
  | hit hnew hhit =>
      refine ⟨_, setCall_self .., ?_⟩
      rcases hs height _ (.inl hhit) with hnode | habove
      · exact hnode
      · exact absurd hle (UInt32.not_le.mpr habove)
  | miss hnew hmiss => exact ⟨_, setCall_self .., rfl⟩

theorem answers_setCall {k j : Nat} {height : UInt32} {d : Call} (hs : s.Answers k height)
    (hown : ∀ c, s.calls j = some c → c.Answers s.node height → d.Answers s.node height) :
    (s.setCall j d).Answers k height := by
  obtain ⟨c, hc, hanswers⟩ := hs
  by_cases hkj : k = j
  · subst hkj
    exact ⟨d, setCall_self .., hown c hc hanswers⟩
  · exact ⟨c, (setCall_other s d hkj).trans hc, hanswers⟩

/-- Until the chain changes, it does. -/
theorem answers_step {k : Nat} {height : UInt32} (hs : s.Answers k height) (h : Moves s e s')
    (hcalm : e.Calm) : s'.Answers k height := by
  cases h with
  | change => exact hcalm.elim
  | refresh hnew | hit hnew | miss hnew =>
      apply answers_setCall hs
      intro c hc _
      cases hnew.symm.trans hc
  | noHeight hcall | height hcall | setTip hcall =>
      apply answers_setCall hs
      intro c hc hanswers
      cases hcall.symm.trans hc
      exact hanswers.elim
  | noHeader hcall =>
      apply answers_setCall hs
      intro _ _ _
      trivial
  | header hcall hnode =>
      apply answers_setCall hs
      intro c hc hanswers
      cases hcall.symm.trans hc
      obtain rfl := hanswers
      exact ⟨rfl, hnode⟩
  | store hcall =>
      apply answers_setCall hs
      intro c hc hanswers
      cases hcall.symm.trans hc
      exact hanswers.2

end Kept

/-- Runs of the service. -/
abbrev Run := Basis.Path fun s e s' => step s e = some s'

/-- Runs whose steps meet the condition. -/
abbrev KeptRun := Basis.Path fun s e s' => step s e = some s' ∧ s.Meets e

theorem kept_start (chain : NodeChain) : (start chain).Kept (start chain).node := by
  intro height b hknown
  rcases hknown with hcached | ⟨k, hk⟩
  · cases hcached
  · cases hk

theorem kept_of_keptRun {s s' : State} {hist : List (Event × State)} (hrun : KeptRun s hist s')
    (hs : s.Kept s.node) : s'.Kept s'.node :=
  hrun.invariant hs fun hs hstep => kept_step hs (step_eq_some_iff.mp hstep.1) hstep.2

/-- Where the chain has not changed, a tip that was written has settled
the cache. -/
theorem settled_of_keptRun {s s' : State} {hist : List (Event × State)} (hrun : KeptRun s hist s')
    (hs : s.Kept s.node) (hcalm : ∀ e ∈ hist, e.1.Calm) (hrefreshed : Refreshed hist) :
    s'.Settled := by
  have hset : ∃ e ∈ hist, ∃ r, e.1 = .setTip r := by
    obtain ⟨r, before, between, after, u, v, rfl⟩ := hrefreshed
    exact ⟨(.setTip r, v), by simp, r, rfl⟩
  have hrun' := (hrun.restrict hcalm).strengthen (I := fun s => s.Kept s.node) hs
    fun hs hstep => kept_step hs (step_eq_some_iff.mp hstep.1.1) hstep.1.2
  apply hrun'.since (K := fun e => ∃ r, e = .setTip r) hset
  intro s i s' hstep htrigger
  exact settled_step hstep.1 (step_eq_some_iff.mp hstep.2.1.1) hstep.2.2 htrigger

/-- Until the chain changes, a call keeps to the node's header. -/
theorem answers_of_run {s s' : State} {hist : List (Event × State)} (hrun : KeptRun s hist s')
    (hcalm : ∀ e ∈ hist, e.1.Calm) {k : Nat} {height : UInt32} (hs : s.Answers k height) :
    s'.Answers k height :=
  (hrun.restrict hcalm).invariant hs fun hs hstep =>
    answers_step hs (step_eq_some_iff.mp hstep.1.1) hstep.2

/-- **A run whose changes keep the headers follows the chain.** -/
theorem followsChain_of_keptRun {chain : NodeChain} {hist : List (Event × State)} {s : State}
    (hrun : KeptRun (start chain) hist s) : FollowsChain (start chain) hist s := by
  intro before since after k height b t hhist hcalm hrefreshed hle hreturned
  subst hhist
  obtain ⟨s₂, hto, hrest⟩ := hrun.append_inv
  obtain ⟨s₁, hbefore, hsince⟩ := hto.append_inv
  obtain ⟨hlookup, hafter⟩ := hrest.cons_inv
  rw [hto.lastState_eq] at hle
  have hsettled : s₂.Settled :=
    settled_of_keptRun hsince (kept_of_keptRun hbefore (kept_start chain))
      (fun e he => hcalm e (List.mem_append_left _ he)) hrefreshed
  have hanswers : s.Answers k height :=
    answers_of_run hafter (fun e he => hcalm e (List.mem_append_right _ he))
      (answers_headerAt hsettled (step_eq_some_iff.mp hlookup.1) hle)
  obtain ⟨c, hc, hnode⟩ := hanswers
  cases hreturned.symm.trans hc
  exact hnode

/-! ## Changes that do not keep them -/

section Stale

variable {s s' : State} {e : Event}

/-- Numbers that no call has yet. -/
def State.Free (s : State) : Prop := ∃ n, ∀ k, n ≤ k → s.calls k = none

theorem free_setCall (hs : s.Free) (k : Nat) (c : Call) : (s.setCall k c).Free := by
  obtain ⟨n, hn⟩ := hs
  refine ⟨max n (k + 1), ?_⟩
  intro j hj
  rw [setCall_other s c (by omega)]
  exact hn j (by omega)

theorem free_step (hs : s.Free) (h : Moves s e s') : s'.Free := by
  cases h with
  | change => exact hs
  | refresh | noHeight | height | setTip | hit | miss | noHeader | header | store =>
      exact free_setCall hs _ _

theorem free_of_run {chain : NodeChain} {hist : List (Event × State)}
    (hrun : Run (start chain) hist s) : s.Free :=
  hrun.invariant ⟨0, fun _ _ => rfl⟩ fun hs hstep => free_step hs (step_eq_some_iff.mp hstep)

/-- What is known can be stored. -/
theorem store_run {height : UInt32} {b : BlockHeader} (hknown : s.Known height b) :
    ∃ hist u, Run s hist u ∧ (∀ e ∈ hist, e.1.Calm) ∧ u.node = s.node ∧
      u.cache.heads height = some b ∧ (∀ k, s.calls k = none → u.calls k = none) ∧
      ∀ r v, s.calls r = some (.tipInHand v) → u.calls r = some (.tipInHand v) := by
  rcases hknown with hcached | ⟨k, hk⟩
  · refine ⟨[], s, .start, ?_, rfl, hcached, fun _ => id, fun _ _ => id⟩
    intro e he
    cases he
  · have hother : ∀ j c, s.calls j = some c → c ≠ .headerInHand height b → j ≠ k := by
      rintro j c hj hc rfl
      exact hc (Option.some.inj (hj.symm.trans hk))
    have hstored : Run s _ _ := Path.start.next (.store k) (step_eq_some_iff.mpr (.store hk))
    refine ⟨_, _, hstored, ?_, rfl, Function.update_self .., ?_, ?_⟩
    · intro e he
      rw [List.mem_singleton.mp he]
      trivial
    · intro j hj
      have hjk : j ≠ k := by
        rintro rfl
        cases hj.symm.trans hk
      exact (setCall_other s _ hjk).trans hj
    · intro r v hr
      exact (setCall_other s _ (hother r _ hr Call.noConfusion)).trans hr

/-- A refresh that nothing interrupts. -/
theorem refresh_run {r : Nat} (hnew : s.calls r = none) :
    ∃ hist u, Run s hist u ∧ (∀ e ∈ hist, e.1.Calm) ∧ Refreshed hist ∧ u.node = s.node ∧
      u.cache.heads = s.cache.heads ∧ u.cache.tip = s.node.best ∧
      ∀ k, k ≠ r → u.calls k = s.calls k := by
  have hasked : Run s _ _ :=
    Path.start.next (.refresh r) (step_eq_some_iff.mpr (.refresh hnew))
  have htold := hasked.next (.answerHeight r false)
    (step_eq_some_iff.mpr (Moves.height (setCall_self ..)))
  have hset := htold.next (.setTip r) (step_eq_some_iff.mpr (Moves.setTip (setCall_self ..)))
  refine ⟨_, _, hset, ?_, ⟨r, [], _, [], _, _, rfl⟩, rfl, rfl, rfl, ?_⟩
  · intro e he
    simp only [List.nil_append, List.cons_append, List.mem_cons, List.not_mem_nil, or_false] at he
    rcases he with rfl | rfl | rfl <;> trivial
  · intro k hk
    exact (setCall_other _ _ hk).trans ((setCall_other _ _ hk).trans (setCall_other _ _ hk))

/-- A refresh stays one in a longer history. -/
theorem refreshed_append {xs : List (Event × State)} (h : Refreshed xs)
    (pre post : List (Event × State)) : Refreshed (pre ++ (xs ++ post)) := by
  obtain ⟨r, before, between, after, u, v, rfl⟩ := h
  exact ⟨r, pre ++ before, between, after ++ post, u, v, by simp⟩

/-- A stale header that the tip covers is served. -/
theorem lookup_breaks {s₀ : State} {before since : List (Event × State)} {height : UInt32}
    {b : BlockHeader} {k : Nat} (hrun : Run s₀ (before ++ since) s)
    (hcalm : ∀ e ∈ since, e.1.Calm) (hrefreshed : Refreshed since) (hle : height ≤ s.cache.tip)
    (hcached : s.cache.heads height = some b) (hstale : s.node.headerAt height ≠ some b)
    (hnew : s.calls k = none) :
    ∃ more t, Run s₀ (before ++ more) t ∧ ¬ FollowsChain s₀ (before ++ more) t := by
  have hlookup := hrun.next _ (step_eq_some_iff.mpr (.hit hnew hcached))
  rw [List.append_assoc] at hlookup
  refine ⟨_, _, hlookup, ?_⟩
  intro hfollows
  apply hstale
  refine hfollows before since [] k height b _ (List.append_assoc ..).symm ?_ hrefreshed ?_
    (setCall_self ..)
  · rwa [List.append_nil]
  · rwa [hrun.lastState_eq]

/-- **A change that does not keep the headers can be told**: from there
the service can come to serve a header the node does not have. -/
theorem stale_of_not_kept {chain chain' : NodeChain} {hist : List (Event × State)}
    (hrun : Run (start chain) hist s) (hstep : step s (.change chain') = some s')
    (hnot : ¬ s.Kept chain') :
    ∃ more u, Run (start chain) (hist ++ (.change chain', s') :: more) u ∧
      ¬ FollowsChain (start chain) (hist ++ (.change chain', s') :: more) u := by
  have hchanged := hrun.next _ hstep
  obtain ⟨n, hfree⟩ := free_of_run hchanged
  suffices h : ∃ more u, Run (start chain) (hist ++ [(.change chain', s')] ++ more) u ∧
      ¬ FollowsChain (start chain) (hist ++ [(.change chain', s')] ++ more) u by
    simpa only [List.append_assoc, List.singleton_append] using h
  cases step_eq_some_iff.mp hstep with
  | change hwf =>
  simp only [State.Kept, not_forall, not_or, not_and, UInt32.not_lt] at hnot
  obtain ⟨height, b, hknown, hstale, hcovered⟩ := hnot
  -- store it, and refresh
  obtain ⟨stored, s₁, hstored, hcalm₁, hnode₁, hcached₁, hfree₁, htips₁⟩ :=
    store_run (s := { s with node := chain' }) hknown
  obtain ⟨refreshed, s₂, hrefresh, hcalm₂, hrefreshed, hnode₂, hheads₂, htip₂, hother₂⟩ :=
    refresh_run (hfree₁ n (hfree n (Nat.le_refl n)))
  have hcached₂ : s₂.cache.heads height = some b := by rw [hheads₂, hcached₁]
  have hstale₂ : s₂.node.headerAt height ≠ some b := by rwa [hnode₂, hnode₁]
  have hnew₂ : s₂.calls (n + 1) = none := by
    rw [hother₂ _ (Nat.succ_ne_self n)]
    exact hfree₁ _ (hfree _ (Nat.le_succ n))
  have hcalm : ∀ e ∈ stored ++ refreshed, e.1.Calm :=
    List.forall_mem_append.mpr ⟨hcalm₁, hcalm₂⟩
  cases hblock : chain'.headerAt height with
  | some b' =>
      -- another header is there, so the node's height covers it
      have hle : height ≤ s₂.cache.tip := by
        rw [htip₂, hnode₁]
        exact NodeChain.le_best hwf hblock
      apply lookup_breaks (hchanged.trans (hstored.trans hrefresh)) hcalm ?_ hle hcached₂ hstale₂
        hnew₂
      have := refreshed_append hrefreshed stored []
      rwa [List.append_nil] at this
  | none =>
      -- the height is gone, but a refresh from before has a tip that covers it
      obtain ⟨r, v, hr, hv⟩ := hcovered hblock
      have hrn : r ≠ n := by
        rintro rfl
        cases (hfree r (Nat.le_refl r)).symm.trans hr
      have hr₂ : s₂.calls r = some (.tipInHand v) := by
        rw [hother₂ r hrn]
        exact htips₁ r v hr
      have hset : Run s₂ _ _ := Path.start.next (.setTip r) (step_eq_some_iff.mpr (.setTip hr₂))
      have hnr : n + 1 ≠ r := by
        rintro rfl
        cases hnew₂.symm.trans hr₂
      apply lookup_breaks (hchanged.trans (hstored.trans (hrefresh.trans hset))) ?_
        (refreshed_append hrefreshed stored _) hv hcached₂ hstale₂
        ((setCall_other s₂ _ hnr).trans hnew₂)
      intro e he
      rw [← List.append_assoc] at he
      rcases List.mem_append.mp he with he | he
      · exact hcalm e he
      · rw [List.mem_singleton.mp he]
        trivial

end Stale

/-- **The cache follows the chain in every run whose changes keep the
headers it knows**, and every change that does not can end in a run in
which it does not follow. -/
theorem followsChain_iff (chain : NodeChain) :
    (∀ hist s, KeptRun (start chain) hist s → FollowsChain (start chain) hist s) ∧
    ∀ hist s chain' s', Run (start chain) hist s → step s (.change chain') = some s' →
      ¬ s.Kept chain' →
        ∃ more u, Run (start chain) (hist ++ (.change chain', s') :: more) u ∧
          ¬ FollowsChain (start chain) (hist ++ (.change chain', s') :: more) u := by
  constructor
  · intro hist s hrun
    exact followsChain_of_keptRun hrun
  · intro hist s chain' s' hrun hstep hnot
    exact stale_of_not_kept hrun hstep hnot

/-! ## A reorganisation of one block -/

namespace Reorg

def genesis : BlockHeader := ⟨0, "00", "", "a0", 1, 0x207fffff, 0, 1⟩
def orphaned : BlockHeader := ⟨1, "1a", "00", "a1", 2, 0x207fffff, 7, 1⟩
def winning : BlockHeader := ⟨1, "1b", "00", "b1", 3, 0x207fffff, 9, 1⟩
def above : BlockHeader := ⟨2, "2b", "1b", "b2", 4, 0x207fffff, 5, 1⟩

/-- The header at height 1 is asked for, the branch it is on is
orphaned, a refresh takes the height of the new one, and the header is
asked for again. -/
def events : List Event :=
  [.refresh 0, .answerHeight 0 false, .setTip 0,
   .headerAt 1 1, .answerHeader 1 none, .store 1,
   .change ⟨genesis, [winning, above]⟩,
   .refresh 2, .answerHeight 2 false, .setTip 2,
   .headerAt 3 1]

/-- The run they make. -/
def run : List (Event × State) × State :=
  (play step (start ⟨genesis, [orphaned]⟩) events).getD ([], start ⟨genesis, [orphaned]⟩)

end Reorg

open Reorg in
/-- The header of the orphaned block is served. -/
theorem header_of_orphaned :
    ∃ hist s, play step (start ⟨genesis, [orphaned]⟩) events = some (hist, s) ∧
      ¬ FollowsChain (start ⟨genesis, [orphaned]⟩) hist s := by
  refine ⟨run.1, run.2, rfl, ?_⟩
  intro hfollows
  have hstale := hfollows (run.1.take 7) ((run.1.drop 7).take 3) [] 3 1 orphaned run.2 rfl
  have hserved : run.2.node.headerAt 1 = some orphaned := by
    apply hstale
    · decide
    · exact ⟨2, [], (run.1.drop 8).take 1, [], ((run.1.drop 7).map Prod.snd).headD run.2,
        ((run.1.drop 9).map Prod.snd).headD run.2, rfl⟩
    · decide
    · rfl
  exact absurd hserved (by decide)

end CardTable.Go.Spv
