import Mathlib.Data.List.Induction

/-!
# Run — finite runs of a labelled step relation

`Path R s₀ hist s` says that from `s₀` a run took the steps `hist` and
ended in `s`. `hist` keeps, for each step, its input and the state it
led to, so a property of a run can speak of every state the run went
through. Runs grow at the end: the induction that proves a property of
all runs is one base case and one step case.

A deterministic program is run with `play`, which computes the history.
-/

namespace Basis

variable {σ τ ι κ : Type}

/-- A run of `R` from `s₀`: the inputs taken with the states they led
to, oldest first, and the state reached. -/
inductive Path (R : σ → ι → σ → Prop) (s₀ : σ) : List (ι × σ) → σ → Prop where
  | start : Path R s₀ [] s₀
  | snoc {hist : List (ι × σ)} {s s' : σ} {i : ι} :
      Path R s₀ hist s → R s i s' → Path R s₀ (hist ++ [(i, s')]) s'

namespace Path

variable {R : σ → ι → σ → Prop} {R' : τ → κ → τ → Prop} {s₀ s : σ} {hist : List (ι × σ)}

/-- One more step, its input given first. -/
theorem next (h : Path R s₀ hist s) (i : ι) {s' : σ} (hr : R s i s') :
    Path R s₀ (hist ++ [(i, s')]) s' :=
  .snoc h hr

/-- The empty run from where a run has come. -/
theorem resume (_ : Path R s₀ hist s) : Path R s [] s := .start

/-- **The invariant rule**: what holds at the start and is kept by every
step holds wherever a run ends. -/
theorem invariant {I : σ → Prop} (h : Path R s₀ hist s) (h₀ : I s₀)
    (hstep : ∀ {s i s'}, I s → R s i s' → I s') : I s := by
  induction h with
  | start => exact h₀
  | snoc _ hr ih => exact hstep ih hr

/-- The invariant rule when the step may rely on an invariant already
known. -/
theorem invariant_of {I J : σ → Prop} (h : Path R s₀ hist s) (hI₀ : I s₀) (hJ₀ : J s₀)
    (hI : ∀ {s i s'}, I s → R s i s' → I s')
    (hJ : ∀ {s i s'}, I s → J s → R s i s' → J s') : J s := by
  have hboth : I s ∧ J s :=
    h.invariant (I := fun s => I s ∧ J s) ⟨hI₀, hJ₀⟩
      (fun hs hr => ⟨hI hs.1 hr, hJ hs.1 hs.2 hr⟩)
  exact hboth.2

/-- **The trigger rule**: what steps of one kind establish and every step
keeps holds at the end of a run that took such a step. -/
theorem since {K : ι → Prop} {I : σ → Prop} (h : Path R s₀ hist s) (hK : ∃ e ∈ hist, K e.1)
    (hstep : ∀ {s i s'}, R s i s' → K i ∨ I s → I s') : I s := by
  induction h with
  | start =>
      obtain ⟨e, he, _⟩ := hK
      cases he
  | snoc _ hr ih =>
      obtain ⟨e, he, hkind⟩ := hK
      apply hstep hr
      rcases List.mem_append.mp he with he | he
      · exact .inr (ih ⟨e, he, hkind⟩)
      · rw [List.mem_singleton.mp he] at hkind
        exact .inl hkind

/-- One run after another. -/
theorem trans {t : σ} {hist' : List (ι × σ)} (h : Path R s₀ hist s) (h' : Path R s hist' t) :
    Path R s₀ (hist ++ hist') t := by
  induction h' with
  | start => simpa using h
  | snoc _ hr ih =>
      rw [← List.append_assoc]
      exact .snoc ih hr

/-- **The agenda rule**: when each state of `I` lets the next input of an
agenda through, a run takes the whole agenda, in its order. -/
theorem of_each {I : List ι → σ → Prop} {agenda : List ι} (h : I agenda s)
    (hstep : ∀ {i rest s}, I (i :: rest) s → ∃ s', R s i s' ∧ I rest s') :
    ∃ hist s', Path R s hist s' ∧ hist.map Prod.fst = agenda ∧ I [] s' := by
  induction agenda generalizing s with
  | nil => exact ⟨[], s, .start, rfl, h⟩
  | cons i rest ih =>
      obtain ⟨t, hr, ht⟩ := hstep h
      obtain ⟨hist, s', hrun, hinputs, hs'⟩ := ih ht
      refine ⟨(i, t) :: hist, s', (Path.start.next i hr).trans hrun, ?_, hs'⟩
      rw [List.map_cons, hinputs]

/-- The last step of a run. -/
theorem snoc_inv {i : ι} {t : σ} (h : Path R s₀ (hist ++ [(i, t)]) s) :
    s = t ∧ ∃ u, Path R s₀ hist u ∧ R u i t := by
  generalize hlast : hist ++ [(i, t)] = hist' at h
  cases h with
  | start => simp at hlast
  | snoc hp hr =>
      obtain ⟨rfl, hstep⟩ := List.append_inj' hlast rfl
      cases hstep
      exact ⟨rfl, _, hp, hr⟩

/-- A run is cut anywhere. -/
theorem append_inv {pre post : List (ι × σ)} (h : Path R s₀ (pre ++ post) s) :
    ∃ t, Path R s₀ pre t ∧ Path R t post s := by
  induction post using List.reverseRecOn generalizing s with
  | nil => exact ⟨s, by simpa using h, .start⟩
  | append_singleton post step ih =>
      rw [← List.append_assoc] at h
      obtain ⟨rfl, u, hu, hr⟩ := h.snoc_inv
      obtain ⟨t, hpre, hpost⟩ := ih hu
      exact ⟨t, hpre, hpost.snoc hr⟩

/-- The first step of a run. -/
theorem cons_inv {i : ι} {t : σ} (h : Path R s₀ ((i, t) :: hist) s) :
    R s₀ i t ∧ Path R t hist s := by
  obtain ⟨u, hfirst, hrest⟩ := append_inv (show Path R s₀ ([(i, t)] ++ hist) s from h)
  obtain ⟨rfl, _, hstart, hr⟩ := snoc_inv (show Path R s₀ ([] ++ [(i, t)]) u from hfirst)
  generalize hnil : ([] : List (ι × σ)) = none' at hstart
  cases hstart with
  | start => exact ⟨hr, hrest⟩
  | snoc => simp at hnil

/-- **The ranking rule**: when a counted step lowers a rank and no other
step raises it, a run has no more counted steps than the rank it starts
with, less the one it is left with. -/
theorem countP_add_rank_le (h : Path R s₀ hist s) (rank : σ → Nat) (counted : ι → Bool)
    (I : σ → Prop) (h₀ : I s₀) (hI : ∀ {s i s'}, I s → R s i s' → I s')
    (hrank : ∀ {s i s'}, I s → R s i s' → rank s' + (if counted i then 1 else 0) ≤ rank s) :
    hist.countP (fun e => counted e.1) + rank s ≤ rank s₀ := by
  induction h with
  | start => simp
  | @snoc hist s s' i hp hr ih =>
      have hstep := hrank (hp.invariant h₀ hI) hr
      rw [List.countP_append, List.countP_singleton]
      dsimp only
      omega

/-- A run of a relation is a run of a weaker one. -/
theorem mono {S : σ → ι → σ → Prop} (h : Path R s₀ hist s)
    (himp : ∀ {s i s'}, R s i s' → S s i s') : Path S s₀ hist s := by
  induction h with
  | start => exact .start
  | snoc _ hr ih => exact .snoc ih (himp hr)

/-- **The ladder rule.** Each input of an agenda takes the state one rung
down, and no step takes it up: a run that has the whole agenda among its
inputs, in its order, ends on the ground. -/
theorem climbs_down {L : Nat → σ → Prop} {agenda : List ι} (h : Path R s₀ hist s)
    (hagenda : agenda.Sublist (hist.map Prod.fst)) (h₀ : L agenda.length s₀)
    (hkeep : ∀ {n s i s'}, L n s → R s i s' → L n s')
    (htake : ∀ {i rest s s'}, (i :: rest) <:+ agenda → L (rest.length + 1) s → R s i s' →
      L rest.length s') : L 0 s := by
  -- a part of the agenda that the history has, and the part still to come
  suffices hpart : ∀ done rest, done ++ rest <:+ agenda → done.Sublist (hist.map Prod.fst) →
      L (done ++ rest).length s₀ → L rest.length s by
    have hwhole := hpart agenda [] (by simp) hagenda
    rw [List.append_nil] at hwhole
    exact hwhole h₀
  clear hagenda h₀
  induction h with
  | start =>
      intro done rest _ hdone h₀
      rw [List.map_nil, List.sublist_nil] at hdone
      subst hdone
      exact h₀
  | @snoc hist s s' i hp hr ih =>
      intro done rest hsuffix hdone h₀
      rw [List.map_append, List.map_singleton] at hdone
      obtain ⟨earlier, last, rfl, hearlier, hlast⟩ := List.sublist_append_iff.mp hdone
      rcases List.sublist_cons_iff.mp hlast with hnil | ⟨_, rfl, hnil⟩
      · obtain rfl := List.sublist_nil.mp hnil
        rw [List.append_nil] at hsuffix h₀
        exact hkeep (ih earlier rest hsuffix hearlier h₀) hr
      · obtain rfl := List.sublist_nil.mp hnil
        rw [List.append_assoc] at hsuffix h₀
        have hbefore : L (i :: rest).length s := ih earlier (i :: rest) hsuffix hearlier h₀
        exact htake ((List.suffix_append _ _).trans hsuffix) hbefore hr

/-- What every input of a run satisfies is part of its steps. -/
theorem restrict {K : ι → Prop} (h : Path R s₀ hist s) (hK : ∀ e ∈ hist, K e.1) :
    Path (fun s i s' => R s i s' ∧ K i) s₀ hist s := by
  induction h with
  | start => exact .start
  | snoc _ hr ih =>
      rw [List.forall_mem_append] at hK
      exact .snoc (ih hK.1) ⟨hr, hK.2 _ List.mem_cons_self⟩

/-- An invariant is part of the steps of a run. -/
theorem strengthen {I : σ → Prop} (h : Path R s₀ hist s) (h₀ : I s₀)
    (hstep : ∀ {s i s'}, I s → R s i s' → I s') :
    Path (fun s i s' => I s ∧ R s i s') s₀ hist s := by
  induction h with
  | start => exact .start
  | snoc hp hr ih => exact .snoc ih ⟨hp.invariant h₀ hstep, hr⟩

/-- Every state a run went through is the end of a shorter run. -/
theorem exists_prefix (h : Path R s₀ hist s) {i : ι} {t : σ} (ht : (i, t) ∈ hist) :
    ∃ pre, Path R s₀ pre t ∧ pre <+: hist := by
  induction h with
  | start => cases ht
  | @snoc hist s s' j hp hr ih =>
      rcases List.mem_append.mp ht with ht | ht
      · obtain ⟨pre, hpre, hle⟩ := ih ht
        exact ⟨pre, hpre, hle.trans (List.prefix_append _ _)⟩
      · cases List.mem_singleton.mp ht
        exact ⟨_, .snoc hp hr, List.prefix_rfl⟩

/-- **Runs through an abstraction function.** When an invariant of the
abstract system makes every concrete step an abstract one, a concrete
run maps to an abstract run, state by state. -/
theorem map_of_invariant {f : σ → τ} {g : ι → κ} {I : τ → Prop}
    (h : Path R s₀ hist s) (h₀ : I (f s₀))
    (hI : ∀ {t j t'}, I t → R' t j t' → I t')
    (hsim : ∀ {s i s'}, I (f s) → R s i s' → R' (f s) (g i) (f s')) :
    Path R' (f s₀) (hist.map (Prod.map g f)) (f s) ∧ I (f s) := by
  induction h with
  | start => exact ⟨.start, h₀⟩
  | snoc _ hr ih =>
      obtain ⟨hp, hinv⟩ := ih
      have hr' := hsim hinv hr
      refine ⟨?_, hI hinv hr'⟩
      simpa using Path.snoc hp hr'

end Path

/-! ## The steps of a run -/

/-- The state after a history. -/
def lastState (s : σ) : List (ι × σ) → σ
  | [] => s
  | (_, t) :: rest => lastState t rest

/-- The steps of a history: where each was taken, its input, and where
it led. -/
def stepsOf (s : σ) : List (ι × σ) → List (σ × ι × σ)
  | [] => []
  | (i, t) :: rest => (s, i, t) :: stepsOf t rest

theorem lastState_snoc (s : σ) (hist : List (ι × σ)) (i : ι) (t : σ) :
    lastState s (hist ++ [(i, t)]) = t := by
  induction hist generalizing s with
  | nil => rfl
  | cons step rest ih => exact ih step.2

theorem stepsOf_append (s : σ) (xs ys : List (ι × σ)) :
    stepsOf s (xs ++ ys) = stepsOf s xs ++ stepsOf (lastState s xs) ys := by
  induction xs generalizing s with
  | nil => rfl
  | cons step rest ih => exact congrArg (_ :: ·) (ih step.2)

namespace Path

variable {R : σ → ι → σ → Prop} {s₀ s t : σ} {hist : List (ι × σ)} {i : ι}

theorem lastState_eq (h : Path R s₀ hist s) : lastState s₀ hist = s := by
  cases h with
  | start => rfl
  | snoc => exact lastState_snoc ..

theorem stepsOf_snoc (h : Path R s₀ hist s) :
    stepsOf s₀ (hist ++ [(i, t)]) = stepsOf s₀ hist ++ [(s, i, t)] := by
  rw [stepsOf_append, h.lastState_eq]
  rfl

/-- A step of a run was taken at the end of a shorter run. -/
theorem of_mem_stepsOf (h : Path R s₀ hist s) {u : σ × ι × σ} (hu : u ∈ stepsOf s₀ hist) :
    R u.1 u.2.1 u.2.2 ∧ ∃ pre, Path R s₀ pre u.1 ∧ pre <+: hist := by
  induction h with
  | start => cases hu
  | @snoc hist s s' j hp hr ih =>
      rw [hp.stepsOf_snoc, List.mem_append, List.mem_singleton] at hu
      rcases hu with hu | rfl
      · obtain ⟨hstep, pre, hpre, hle⟩ := ih hu
        exact ⟨hstep, pre, hpre, hle.trans (List.prefix_append _ _)⟩
      · exact ⟨hr, hist, hp, List.prefix_append _ _⟩

/-- **Runs told to another system.** When what a step says depends on the
state it is taken in, a concrete run still is an abstract run of what its
steps said. -/
theorem told {I : σ → Prop} (h : Path R s₀ hist s) (R' : τ → κ → τ → Prop) (f : σ → τ)
    (said : σ → ι → κ) (h₀ : I s₀) (hI : ∀ {s i s'}, I s → R s i s' → I s')
    (hsim : ∀ {s i s'}, I s → R s i s' → R' (f s) (said s i) (f s')) :
    ∃ hist', Path R' (f s₀) hist' (f s) ∧
      hist'.map Prod.fst = (stepsOf s₀ hist).map (fun u => said u.1 u.2.1) := by
  induction h with
  | start => exact ⟨[], .start, rfl⟩
  | @snoc hist s s' i hp hr ih =>
      obtain ⟨hist', hp', hsaid⟩ := ih
      refine ⟨_, hp'.snoc (hsim (hp.invariant h₀ hI) hr), ?_⟩
      rw [hp.stepsOf_snoc, List.map_append, List.map_append, hsaid]
      rfl

end Path

/-! ## What a history tells

A run is often read through what some of its steps say, as
`hist.filterMap said`. -/

theorem filterMap_cons_toList (said : σ → Option τ) (a : σ) (xs : List σ) :
    (a :: xs).filterMap said = (said a).toList ++ xs.filterMap said := by
  cases h : said a with
  | none => simp [h]
  | some b => simp [h]

theorem filterMap_snoc (said : σ → Option τ) (xs : List σ) (a : σ) :
    (xs ++ [a]).filterMap said = xs.filterMap said ++ (said a).toList := by
  rw [List.filterMap_append, filterMap_cons_toList, List.filterMap_nil, List.append_nil]

/-- **The projection rule**: seen through `f`, a run takes the steps that
what was said stands for, and no others. -/
theorem Path.project {R : σ → ι → σ → Prop} {R' : τ → κ → τ → Prop} {s₀ s : σ}
    {hist : List (ι × σ)} (h : Path R s₀ hist s) (f : σ → τ) (said : ι → Option κ)
    (hsaid : ∀ {s i s' j}, R s i s' → said i = some j → R' (f s) j (f s'))
    (hsilent : ∀ {s i s'}, R s i s' → said i = none → f s' = f s) :
    Path R' (f s₀) (hist.filterMap fun e => (said e.1).map (·, f e.2)) (f s) := by
  induction h with
  | start => exact .start
  | @snoc hist s s' i hp hr ih =>
      rw [filterMap_snoc]
      cases hi : said i with
      | none =>
          rw [hsilent hr hi]
          simpa [hi] using ih
      | some j =>
          simp only [Option.map_some, Option.toList_some]
          exact ih.snoc (hsaid hr hi)

/-- **The collecting rule**: a list that starts empty and that every step
extends by what its input adds is what the inputs of the run have added. -/
theorem Path.collected {R : σ → ι → σ → Prop} {s₀ s : σ} {hist : List (ι × σ)} {L : σ → List τ}
    {A : ι → Option τ} (h : Path R s₀ hist s) (h₀ : L s₀ = [])
    (hstep : ∀ {s i s'}, R s i s' → L s' = L s ++ (A i).toList) :
    L s = hist.filterMap (fun e => A e.1) := by
  induction h with
  | start => exact h₀
  | snoc _ hr ih => rw [hstep hr, ih, filterMap_snoc]

/-! ## What a run can reach -/

/-- Some run from `s` ends in a state of `p`. -/
def CanReach (R : σ → ι → σ → Prop) (p : σ → Prop) (s : σ) : Prop :=
  ∃ hist t, Path R s hist t ∧ p t

namespace CanReach

variable {R : σ → ι → σ → Prop} {p q : σ → Prop} {s t : σ}

theorem here (h : p s) : CanReach R p s := ⟨[], s, .start, h⟩

theorem step (i : ι) (hr : R s i t) (h : CanReach R p t) : CanReach R p s := by
  obtain ⟨hist, u, hrun, hu⟩ := h
  exact ⟨_, u, (Path.start.next i hr).trans hrun, hu⟩

theorem trans (h : CanReach R p s) (h' : ∀ t, p t → CanReach R q t) : CanReach R q s := by
  obtain ⟨hist, t, hrun, ht⟩ := h
  obtain ⟨hist', u, hrun', hu⟩ := h' t ht
  exact ⟨_, u, hrun.trans hrun', hu⟩

/-- **The trap rule**: what no step leaves is never left. -/
theorem not_of_trap {T : σ → Prop} (hs : T s) (hstep : ∀ {s i s'}, T s → R s i s' → T s')
    (hdisj : ∀ {s}, T s → ¬ p s) : ¬ CanReach R p s := by
  intro h
  obtain ⟨hist, t, hrun, ht⟩ := h
  exact hdisj (hrun.invariant hs hstep) ht

end CanReach

/-! ## Running a deterministic program -/

/-- Run `step` over the inputs, keeping the history; `none` as soon as a
step is refused. -/
def play (step : σ → ι → Option σ) (s : σ) : List ι → Option (List (ι × σ) × σ)
  | [] => some ([], s)
  | i :: is =>
      match step s i with
      | none => none
      | some s' => (play step s' is).map fun r => ((i, s') :: r.1, r.2)

theorem path_of_play_from {step : σ → ι → Option σ} {s₀ s t : σ} {is : List ι}
    {pre hist : List (ι × σ)} (hpre : Path (fun s i s' => step s i = some s') s₀ pre s)
    (h : play step s is = some (hist, t)) :
    Path (fun s i s' => step s i = some s') s₀ (pre ++ hist) t := by
  induction is generalizing s pre hist with
  | nil =>
      simp only [play, Option.some.injEq, Prod.mk.injEq] at h
      obtain ⟨rfl, rfl⟩ := h
      simpa using hpre
  | cons i is ih =>
      simp only [play] at h
      cases hs : step s i with
      | none => simp [hs] at h
      | some s' =>
          simp only [hs, Option.map_eq_some_iff] at h
          obtain ⟨⟨hist', t'⟩, hrest, hout⟩ := h
          simp only [Prod.mk.injEq] at hout
          obtain ⟨rfl, rfl⟩ := hout
          simpa using ih (Path.snoc hpre hs) hrest

/-- What `play` computes is a run. -/
theorem path_of_play {step : σ → ι → Option σ} {s t : σ} {is : List ι}
    {hist : List (ι × σ)} (h : play step s is = some (hist, t)) :
    Path (fun s i s' => step s i = some s') s hist t := by
  simpa using path_of_play_from .start h

end Basis
