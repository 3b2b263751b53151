import Mathlib.Logic.Function.Basic

/-!
# Go.Mempool — the rebroadcast policy

`apps/relay-go/internal/chain/mempool.go`. The tracker keeps one record
for each transaction the relay has broadcast and answers each status
report with what to do: nothing, send it again, or recommend recovery.

The record of a transaction is a summary of everything the tracker ever
said about it (`spoken`); the invariant of a run is that the summary is
true. A report touches the record of its own transaction only, so the
answers about one transaction do not depend on the others.
-/

namespace CardTable.Go.Mempool

/-- `relay_rebroadcast_max`. -/
def defaultRebroadcastMax : Int := 3

/-- `TxStatus`. It is a Go `int`: the three constants and whatever else
a caller may pass. -/
inductive TxStatus where
  | inMempool
  | confirmed
  | notInMempool
  | other (code : Int)
  deriving DecidableEq

/-- `EventKind`. -/
inductive EventKind where
  | none
  | rebroadcast
  | recoveryRecommended
  deriving DecidableEq

/-- `Event`: what `Observe` returns for one status report. -/
structure Event where
  kind : EventKind
  txId : String
  attempt : Int
  deriving DecidableEq

/-- `tracked`. -/
structure Tracked where
  confirmed : Bool
  rebroadcasts : Int
  exhausted : Bool
  deriving DecidableEq

/-- `Tracker`; the map of pointers is a partial function. -/
structure Tracker where
  max : Int
  txs : String → Option Tracked

/-- `NewTracker`: a non-positive `max` falls back to the default. -/
def newTracker (max : Int) : Tracker where
  max := if max ≤ 0 then defaultRebroadcastMax else max
  txs := fun _ => none

namespace Tracker

/-- Write the record of one transaction. -/
def put (t : Tracker) (txid : String) (tr : Tracked) : Tracker :=
  { t with txs := Function.update t.txs txid (some tr) }

/-- `Relay`. -/
def relay (t : Tracker) (txid : String) : Tracker :=
  match t.txs txid with
  | some _ => t
  | none => t.put txid ⟨false, 0, false⟩

/-- `Observe`. -/
def observe (t : Tracker) (txid : String) (status : TxStatus) : Tracker × Event :=
  match t.txs txid with
  | none => (t, ⟨.none, txid, 0⟩)
  | some tr =>
    match status with
    | .confirmed => (t.put txid { tr with confirmed := true }, ⟨.none, txid, 0⟩)
    | .inMempool => (t, ⟨.none, txid, 0⟩)
    | .notInMempool =>
        -- a confirmed tx is in a block now, an exhausted one has escalated
        if tr.confirmed ∨ tr.exhausted then (t, ⟨.none, txid, 0⟩)
        else if t.max ≤ tr.rebroadcasts then
          (t.put txid { tr with exhausted := true }, ⟨.recoveryRecommended, txid, 0⟩)
        else
          (t.put txid { tr with rebroadcasts := tr.rebroadcasts + 1 },
            ⟨.rebroadcast, txid, tr.rebroadcasts + 1⟩)
    | .other _ => (t, ⟨.none, txid, 0⟩)

/-- `Rebroadcasts`: the attempts made for a transaction. -/
def rebroadcasts (t : Tracker) (txid : String) : Int :=
  match t.txs txid with
  | some tr => tr.rebroadcasts
  | none => 0

@[simp] theorem put_max (t : Tracker) (txid : String) (tr : Tracked) :
    (t.put txid tr).max = t.max := rfl

@[simp] theorem put_self (t : Tracker) (txid : String) (tr : Tracked) :
    (t.put txid tr).txs txid = some tr := Function.update_self ..

theorem put_other (t : Tracker) {txid x : String} (tr : Tracked) (h : x ≠ txid) :
    (t.put txid tr).txs x = t.txs x := Function.update_of_ne h ..

end Tracker

/-! ## Runs -/

/-- A call of the relay's poll loop. -/
inductive Call where
  | relay (txid : String)
  | observe (txid : String) (status : TxStatus)
  deriving DecidableEq

/-- The transaction a call is about. -/
def Call.txId : Call → String
  | .relay txid => txid
  | .observe txid _ => txid

namespace Tracker

/-- One call, with the event it returns. -/
def call (t : Tracker) : Call → Tracker × List Event
  | .relay txid => (t.relay txid, [])
  | .observe txid status => ((t.observe txid status).1, [(t.observe txid status).2])

/-- A sequence of calls, with the events they return. -/
def run (t : Tracker) : List Call → Tracker × List Event
  | [] => (t, [])
  | c :: cs => (((t.call c).1.run cs).1, (t.call c).2 ++ ((t.call c).1.run cs).2)

theorem run_append (t : Tracker) (xs ys : List Call) :
    t.run (xs ++ ys) =
      (((t.run xs).1.run ys).1, (t.run xs).2 ++ ((t.run xs).1.run ys).2) := by
  induction xs generalizing t with
  | nil => simp [run]
  | cons c xs ih => simp [run, ih]

end Tracker

/-- The events about one transaction. -/
def about (x : String) (events : List Event) : List Event := events.filter (·.txId = x)

/-- The events about one transaction that ask for something. -/
def loud (x : String) (events : List Event) : List Event :=
  (about x events).filter (·.kind ≠ .none)

theorem about_append (x : String) (es fs : List Event) :
    about x (es ++ fs) = about x es ++ about x fs := List.filter_append ..

theorem loud_append (x : String) (es fs : List Event) :
    loud x (es ++ fs) = loud x es ++ loud x fs := by
  rw [loud, about_append, List.filter_append, loud, loud]

/-! ## What one call does to one transaction -/

namespace Tracker

theorem relay_max (t : Tracker) (txid : String) : (t.relay txid).max = t.max := by
  simp only [relay]
  split
  · rfl
  · rfl

theorem observe_max (t : Tracker) (txid : String) (status : TxStatus) :
    (t.observe txid status).1.max = t.max := by
  simp only [observe]
  split
  · rfl
  · split
    · rfl
    · rfl
    · split
      · rfl
      · split
        · rfl
        · rfl
    · rfl

theorem call_max (t : Tracker) (c : Call) : (t.call c).1.max = t.max := by
  cases c with
  | relay txid => exact relay_max t txid
  | observe txid status => exact observe_max t txid status

/-- Another transaction's record is not touched. -/
theorem call_other (t : Tracker) {c : Call} {x : String} (h : x ≠ c.txId) :
    (t.call c).1.txs x = t.txs x := by
  cases c with
  | relay txid =>
      simp only [call, relay]
      split
      · rfl
      · exact put_other t _ h
  | observe txid status =>
      simp only [call, observe]
      split
      · rfl
      · split
        · exact put_other t _ h
        · rfl
        · split
          · rfl
          · split
            · exact put_other t _ h
            · exact put_other t _ h
        · rfl

/-- Every event names the transaction the call was about. -/
theorem txId_of_mem_call {t : Tracker} {c : Call} {e : Event} (h : e ∈ (t.call c).2) :
    e.txId = c.txId := by
  cases c with
  | relay txid => simp [call] at h
  | observe txid status =>
      simp only [call, List.mem_singleton] at h
      subst h
      simp only [observe]
      split
      · rfl
      · split
        · rfl
        · rfl
        · split
          · rfl
          · split
            · rfl
            · rfl
        · rfl

theorem about_call_self (t : Tracker) (c : Call) : about c.txId (t.call c).2 = (t.call c).2 := by
  rw [about, List.filter_eq_self]
  intro e he
  simpa using txId_of_mem_call he

theorem about_call_other (t : Tracker) {c : Call} {x : String} (h : x ≠ c.txId) :
    about x (t.call c).2 = [] := by
  rw [about, List.filter_eq_nil_iff]
  intro e he
  rw [txId_of_mem_call he]
  simpa using h.symm

/-- A call reads the limit and the record of its own transaction. -/
theorem call_congr {t u : Tracker} {c : Call} (hmax : t.max = u.max)
    (htxs : t.txs c.txId = u.txs c.txId) :
    (t.call c).2 = (u.call c).2 ∧ (t.call c).1.txs c.txId = (u.call c).1.txs c.txId := by
  cases c with
  | relay txid =>
      replace htxs : t.txs txid = u.txs txid := htxs
      refine ⟨rfl, ?_⟩
      simp only [call, relay, Call.txId, ← htxs]
      cases h : t.txs txid with
      | none => simp
      | some tr => simp [← htxs, h]
  | observe txid status =>
      replace htxs : t.txs txid = u.txs txid := htxs
      simp only [call, observe, Call.txId, ← htxs, ← hmax]
      cases h : t.txs txid with
      | none => simp [← htxs, h]
      | some tr =>
          cases status with
          | confirmed => simp
          | inMempool => simp [← htxs, h]
          | other code => simp [← htxs, h]
          | notInMempool =>
              simp only
              split
              · simp [← htxs, h]
              · split
                · simp
                · simp

/-- **Transactions do not interfere**: the events about one of them are
those of its own calls, run alone. -/
theorem run_about {t u : Tracker} {x : String} (hmax : t.max = u.max)
    (htxs : t.txs x = u.txs x) (cs : List Call) :
    about x (t.run cs).2 = (u.run (cs.filter (·.txId = x))).2 := by
  induction cs generalizing t u with
  | nil => rfl
  | cons c cs ih =>
      simp only [run, about_append]
      by_cases hx : x = c.txId
      · subst hx
        obtain ⟨hevents, hrecord⟩ := call_congr hmax htxs
        rw [List.filter_cons_of_pos (by simp), run, about_call_self, hevents,
          ih (by rw [call_max, call_max, hmax]) hrecord]
      · rw [List.filter_cons_of_neg (by simpa using fun h => hx h.symm), about_call_other t hx,
          List.nil_append]
        exact ih (by rw [call_max, hmax]) (by rw [call_other t hx, htxs])

end Tracker

/-! ## The life of one transaction -/

/-- What a call can do to the record of a transaction, and what it says
about it. -/
inductive Moves (max : Int) (x : String) : Option Tracked → List Event → Option Tracked → Prop where
  | quiet (r : Option Tracked) : Moves max x r [] r
  | relayed : Moves max x none [] (some ⟨false, 0, false⟩)
  | confirmed (tr : Tracked) : Moves max x (some tr) [] (some { tr with confirmed := true })
  | resend (tr : Tracked) : tr.confirmed = false → tr.exhausted = false →
      tr.rebroadcasts < max →
      Moves max x (some tr) [⟨.rebroadcast, x, tr.rebroadcasts + 1⟩]
        (some { tr with rebroadcasts := tr.rebroadcasts + 1 })
  | giveUp (tr : Tracked) : tr.confirmed = false → tr.exhausted = false →
      max ≤ tr.rebroadcasts →
      Moves max x (some tr) [⟨.recoveryRecommended, x, 0⟩] (some { tr with exhausted := true })

/-- **Every call is a move** of each transaction. -/
theorem moves_of_call (t : Tracker) (c : Call) (x : String) :
    Moves t.max x (t.txs x) (loud x (t.call c).2) ((t.call c).1.txs x) := by
  by_cases hx : x = c.txId
  · subst hx
    rw [loud, Tracker.about_call_self]
    cases c with
    | relay txid =>
        simp only [Tracker.call, Tracker.relay, Call.txId, List.filter_nil]
        cases h : t.txs txid with
        | none => simpa using Moves.relayed
        | some tr =>
            rw [h]
            exact .quiet _
    | observe txid status =>
        simp only [Tracker.call, Tracker.observe, Call.txId]
        cases h : t.txs txid with
        | none =>
            simp only [h]
            exact .quiet _
        | some tr =>
            cases status with
            | confirmed => simpa using Moves.confirmed tr
            | inMempool =>
                simp only [h]
                exact .quiet _
            | other code =>
                simp only [h]
                exact .quiet _
            | notInMempool =>
                simp only
                split
                · simp only [h]
                  exact .quiet _
                · rename_i hopen
                  simp only [not_or, Bool.not_eq_true] at hopen
                  split
                  · rename_i hspent
                    simpa using Moves.giveUp tr hopen.1 hopen.2 hspent
                  · rename_i hleft
                    simpa using Moves.resend tr hopen.1 hopen.2 (by omega)
  · rw [loud, Tracker.about_call_other t hx, Tracker.call_other t hx]
    exact .quiet _

/-- Rebroadcasts `1, 2, …, k`. -/
def attempts (x : String) (k : Nat) : List Event :=
  (List.range k).map fun (i : Nat) => ⟨.rebroadcast, x, i + 1⟩

theorem attempts_succ (x : String) (k : Nat) :
    attempts x (k + 1) = attempts x k ++ [⟨.rebroadcast, x, k + 1⟩] := by
  rw [attempts, List.range_succ, List.map_append, List.map_singleton, attempts]

/-- What the tracker has said about a transaction, read off its record. -/
def spoken (x : String) : Option Tracked → List Event
  | none => []
  | some tr => attempts x tr.rebroadcasts.toNat ++
      if tr.exhausted then [⟨.recoveryRecommended, x, 0⟩] else []

/-- A record the policy can have written. -/
structure Tracked.Sound (tr : Tracked) (max : Int) : Prop where
  nonneg : 0 ≤ tr.rebroadcasts
  within : tr.rebroadcasts ≤ max
  spent : tr.exhausted = true → tr.rebroadcasts = max

/-- A move keeps a record sound, and what it says is what it adds to the
summary. -/
theorem Moves.spoken {max : Int} {x : String} {r r' : Option Tracked} {said : List Event}
    (h : Moves max x r said r') (hmax : 0 ≤ max) (hr : ∀ tr ∈ r, tr.Sound max) :
    (∀ tr ∈ r', tr.Sound max) ∧ spoken x r' = spoken x r ++ said := by
  cases h with
  | quiet => exact ⟨hr, (List.append_nil _).symm⟩
  | relayed =>
      refine ⟨?_, rfl⟩
      intro tr htr
      cases htr
      exact ⟨Int.le_refl 0, hmax, fun h => by cases h⟩
  | confirmed tr =>
      obtain ⟨hnonneg, hwithin, hspent⟩ := hr tr rfl
      refine ⟨?_, (List.append_nil _).symm⟩
      intro tr' htr'
      cases htr'
      exact ⟨hnonneg, hwithin, hspent⟩
  | resend tr hconfirmed hexhausted hleft =>
      obtain ⟨hnonneg, hwithin, hspent⟩ := hr tr rfl
      constructor
      · intro tr' htr'
        cases htr'
        refine ⟨?_, ?_, ?_⟩
        · show 0 ≤ tr.rebroadcasts + 1
          omega
        · show tr.rebroadcasts + 1 ≤ max
          omega
        · intro h
          rw [show tr.exhausted = true from h] at hexhausted
          cases hexhausted
      · have hsucc : (tr.rebroadcasts + 1).toNat = tr.rebroadcasts.toNat + 1 := by omega
        have hcast : (tr.rebroadcasts.toNat : Int) = tr.rebroadcasts := by omega
        simp [Mempool.spoken, hexhausted, hsucc, attempts_succ, hcast]
  | giveUp tr hconfirmed hexhausted hspent =>
      obtain ⟨hnonneg, hwithin, -⟩ := hr tr rfl
      constructor
      · intro tr' htr'
        cases htr'
        refine ⟨hnonneg, hwithin, ?_⟩
        intro
        show tr.rebroadcasts = max
        omega
      · simp [Mempool.spoken, hexhausted]

/-- Confirmed, or given up. -/
def Settled (r : Option Tracked) : Prop :=
  ∃ tr, r = some tr ∧ (tr.confirmed = true ∨ tr.exhausted = true)

/-- A settled transaction stays settled and nothing is said about it. -/
theorem Moves.settled {max : Int} {x : String} {r r' : Option Tracked} {said : List Event}
    (h : Moves max x r said r') (hr : Settled r) : said = [] ∧ Settled r' := by
  obtain ⟨tr, rfl, hdone⟩ := hr
  cases h with
  | quiet => exact ⟨rfl, tr, rfl, hdone⟩
  | confirmed => exact ⟨rfl, _, rfl, .inl rfl⟩
  | resend tr hconfirmed hexhausted | giveUp tr hconfirmed hexhausted =>
      rw [hconfirmed, hexhausted] at hdone
      simp at hdone

/-- A tracked transaction stays tracked. -/
theorem Moves.tracked {max : Int} {x : String} {r r' : Option Tracked} {said : List Event}
    (h : Moves max x r said r') (hr : r ≠ none) : r' ≠ none := by
  cases h with
  | quiet => exact hr
  | relayed | confirmed | resend | giveUp => simp

/-! ## Whole runs -/

namespace Tracker

theorem loud_run_cons (t : Tracker) (c : Call) (cs : List Call) (x : String) :
    loud x (t.run (c :: cs)).2 = loud x (t.call c).2 ++ loud x ((t.call c).1.run cs).2 := by
  rw [run, loud_append]

/-- The summary is true along every run. -/
theorem run_spoken {t : Tracker} {x : String} (hmax : 0 ≤ t.max)
    (hsound : ∀ tr ∈ t.txs x, tr.Sound t.max) (cs : List Call) :
    (∀ tr ∈ (t.run cs).1.txs x, tr.Sound t.max) ∧
      spoken x ((t.run cs).1.txs x) = spoken x (t.txs x) ++ loud x (t.run cs).2 := by
  induction cs generalizing t with
  | nil => exact ⟨hsound, (List.append_nil _).symm⟩
  | cons c cs ih =>
      obtain ⟨hsound', hspoken⟩ := (moves_of_call t c x).spoken hmax hsound
      rw [← call_max t c] at hmax hsound' ⊢
      obtain ⟨hsound'', hrest⟩ := ih hmax hsound'
      refine ⟨hsound'', ?_⟩
      rw [loud_run_cons, ← List.append_assoc, ← hspoken, ← hrest]
      rfl

theorem run_settled {t : Tracker} {x : String} (h : Settled (t.txs x)) (cs : List Call) :
    loud x (t.run cs).2 = [] := by
  induction cs generalizing t with
  | nil => rfl
  | cons c cs ih =>
      obtain ⟨hsaid, hsettled⟩ := (moves_of_call t c x).settled h
      rw [loud_run_cons, hsaid, ih hsettled, List.append_nil]

theorem run_tracked {t : Tracker} {x : String} (h : t.txs x ≠ none) (cs : List Call) :
    (t.run cs).1.txs x ≠ none := by
  induction cs generalizing t with
  | nil => exact h
  | cons c cs ih => exact ih ((moves_of_call t c x).tracked h)

theorem relay_tracked (t : Tracker) (x : String) : (t.relay x).txs x ≠ none := by
  simp only [relay]
  split
  · rename_i tr h
    simp [h]
  · simp

/-- A relayed transaction is tracked from then on. -/
theorem tracked_of_relayed (t : Tracker) {x : String} {cs : List Call} (h : Call.relay x ∈ cs) :
    (t.run cs).1.txs x ≠ none := by
  obtain ⟨pre, post, rfl⟩ := List.append_of_mem h
  rw [run_append]
  exact run_tracked (relay_tracked (t.run pre).1 x) post

/-- Relaying a tracked transaction again changes nothing at all. -/
theorem relay_of_tracked {t : Tracker} {x : String} (h : t.txs x ≠ none) : t.relay x = t := by
  cases hr : t.txs x with
  | none => exact absurd hr h
  | some tr => simp [relay, hr]

/-- Nothing is said about a transaction that was never relayed. -/
theorem run_untracked {t : Tracker} {x : String} (h : t.txs x = none) {cs : List Call}
    (hnever : Call.relay x ∉ cs) : loud x (t.run cs).2 = [] := by
  induction cs generalizing t with
  | nil => rfl
  | cons c cs ih =>
      obtain ⟨hc, hcs⟩ := not_or.mp (fun h => hnever (List.mem_cons.mpr h))
      have hquiet : loud x (t.call c).2 = [] ∧ (t.call c).1.txs x = none := by
        by_cases hx : x = c.txId
        · subst hx
          cases c with
          | relay txid => exact absurd rfl hc
          | observe txid status =>
              replace h : t.txs txid = none := h
              simp [call, observe, Call.txId, h, loud, about]
        · rw [loud, about_call_other t hx, call_other t hx]
          exact ⟨rfl, h⟩
      rw [loud_run_cons, hquiet.1, ih hquiet.2 hcs, List.append_nil]

/-! ## The policy -/

theorem newTracker_max_nonneg (max : Int) : 0 ≤ (newTracker max).max := by
  simp only [newTracker, defaultRebroadcastMax]
  split
  · omega
  · omega

/-- From a new tracker, everything said about a transaction is on its
record. -/
theorem loud_eq_spoken (max : Int) (cs : List Call) (x : String) :
    (∀ tr ∈ ((newTracker max).run cs).1.txs x, tr.Sound (newTracker max).max) ∧
      loud x ((newTracker max).run cs).2 = spoken x (((newTracker max).run cs).1.txs x) := by
  obtain ⟨hsound, hspoken⟩ := run_spoken (newTracker_max_nonneg max)
    (fun tr (htr : tr ∈ (newTracker max).txs x) => by cases htr) cs
  exact ⟨hsound, by simpa [newTracker, spoken] using hspoken.symm⟩

/-- `Rebroadcasts` counts the rebroadcasts there were. -/
theorem rebroadcasts_eq (max : Int) (cs : List Call) (x : String) :
    ((newTracker max).run cs).1.rebroadcasts x =
      ((loud x ((newTracker max).run cs).2).filter (·.kind = .rebroadcast)).length := by
  obtain ⟨hsound, hspoken⟩ := loud_eq_spoken max cs x
  rw [hspoken, rebroadcasts]
  cases hr : ((newTracker max).run cs).1.txs x with
  | none => rfl
  | some tr =>
      have hnonneg := (hsound tr hr).nonneg
      have hattempts : (attempts x tr.rebroadcasts.toNat).filter (·.kind = .rebroadcast) =
          attempts x tr.rebroadcasts.toNat := by
        rw [List.filter_eq_self]
        intro e he
        obtain ⟨i, -, rfl⟩ := List.mem_map.mp he
        rfl
      have htail : (if tr.exhausted then [(⟨.recoveryRecommended, x, 0⟩ : Event)] else []).filter
          (·.kind = .rebroadcast) = [] := by
        cases tr.exhausted with
        | true => rfl
        | false => rfl
      rw [spoken, List.filter_append, hattempts, htail, List.append_nil]
      simp only [attempts, List.length_map, List.length_range]
      omega

/-- After `RECOVERY_RECOMMENDED` the transaction is settled. -/
theorem settled_of_recovery {max : Int} {cs : List Call} {e : Event}
    (he : e ∈ ((newTracker max).run cs).2) (hkind : e.kind = .recoveryRecommended) :
    Settled (((newTracker max).run cs).1.txs e.txId) := by
  have hloud : e ∈ loud e.txId ((newTracker max).run cs).2 := by
    simp [loud, about, he, hkind]
  rw [(loud_eq_spoken max cs e.txId).2] at hloud
  cases hr : ((newTracker max).run cs).1.txs e.txId with
  | none =>
      rw [hr] at hloud
      cases hloud
  | some tr =>
      rw [hr, spoken, List.mem_append] at hloud
      rcases hloud with hattempt | htail
      · obtain ⟨i, -, hi⟩ := List.mem_map.mp hattempt
        rw [← hi] at hkind
        cases hkind
      · refine ⟨tr, rfl, .inr ?_⟩
        by_contra hopen
        rw [if_neg hopen] at htail
        cases htail

/-- A relayed transaction is settled once it is seen confirmed. -/
theorem settled_of_confirmed {t : Tracker} {x : String} (h : t.txs x ≠ none) :
    Settled ((t.observe x .confirmed).1.txs x) := by
  cases hr : t.txs x with
  | none => exact absurd hr h
  | some tr =>
      refine ⟨{ tr with confirmed := true }, ?_, .inl rfl⟩
      simp [observe, hr]

/-- No event about `x` asks for anything. -/
def Quiet (x : String) (events : List Event) : Prop :=
  ∀ e ∈ events, e.txId = x → e.kind = .none

theorem quiet_of_loud {x : String} {events : List Event} (h : loud x events = []) :
    Quiet x events := by
  intro e he hx
  by_contra hkind
  have hloud : e ∈ loud x events := by simp [loud, about, he, hx, hkind]
  rw [h] at hloud
  cases hloud

/-- A settled transaction is not mentioned again. -/
theorem quiet_after {t : Tracker} {x : String} {pre : List Call}
    (h : Settled ((t.run pre).1.txs x)) (post : List Call) :
    ∃ later, (t.run (pre ++ post)).2 = (t.run pre).2 ++ later ∧ Quiet x later :=
  ⟨((t.run pre).1.run post).2, by rw [run_append], quiet_of_loud (run_settled h post)⟩

/-- The history of a transaction is the summary on its record. -/
theorem history (max : Int) (cs : List Call) (x : String) :
    ∃ k : Nat, (k : Int) ≤ (newTracker max).max ∧
      (loud x ((newTracker max).run cs).2 = attempts x k ∨
        (loud x ((newTracker max).run cs).2 = attempts x k ++ [⟨.recoveryRecommended, x, 0⟩] ∧
          (k : Int) = (newTracker max).max)) := by
  obtain ⟨hsound, hspoken⟩ := loud_eq_spoken max cs x
  rw [hspoken]
  cases hr : ((newTracker max).run cs).1.txs x with
  | none => exact ⟨0, newTracker_max_nonneg max, .inl rfl⟩
  | some tr =>
      obtain ⟨hnonneg, hwithin, hspent⟩ := hsound tr hr
      have hcast : (tr.rebroadcasts.toNat : Int) = tr.rebroadcasts := by omega
      refine ⟨tr.rebroadcasts.toNat, by rw [hcast]; exact hwithin, ?_⟩
      rw [spoken]
      cases hexhausted : tr.exhausted with
      | false => exact .inl (List.append_nil _)
      | true => exact .inr ⟨rfl, hcast.trans (hspent hexhausted)⟩

/-- **The rebroadcast policy.** For every limit, every sequence of calls
and every transaction: attempts `1, …, k` with `k` within the limit, then
at most one recommendation, which spends the limit; silence after a
confirmation, after the recommendation, and about what was never relayed;
relaying again changes nothing; and the events about one transaction are
those of its own calls alone. -/
theorem rebroadcast_policy (max : Int) (calls : List Call) (x : String) :
    let limit := if max ≤ 0 then defaultRebroadcastMax else max
    let run := (newTracker max).run
    (∃ k : Nat, (k : Int) ≤ limit ∧
      (loud x (run calls).2 = attempts x k ∨
        (loud x (run calls).2 = attempts x k ++ [⟨.recoveryRecommended, x, 0⟩] ∧
          (k : Int) = limit))) ∧
    (∀ pre post, calls = pre ++ .observe x .confirmed :: post → Call.relay x ∈ pre →
      ∃ later, (run calls).2 = (run (pre ++ [.observe x .confirmed])).2 ++ later ∧
        Quiet x later) ∧
    (∀ pre post, calls = pre ++ post →
      (∃ e ∈ (run pre).2, e.txId = x ∧ e.kind = .recoveryRecommended) →
      ∃ later, (run calls).2 = (run pre).2 ++ later ∧ Quiet x later) ∧
    (Call.relay x ∉ calls → Quiet x (run calls).2) ∧
    (Call.relay x ∈ calls → (run calls).1.relay x = (run calls).1) ∧
    about x (run calls).2 = (run (calls.filter (·.txId = x))).2 := by
  intro limit run
  refine ⟨history max calls x, ?_, ?_, ?_, ?_, run_about rfl rfl calls⟩
  · intro pre post hcalls hrelayed
    have hsettled : Settled ((run (pre ++ [.observe x .confirmed])).1.txs x) := by
      show Settled (((newTracker max).run (pre ++ [.observe x .confirmed])).1.txs x)
      rw [run_append]
      exact settled_of_confirmed (tracked_of_relayed _ hrelayed)
    rw [hcalls, List.append_cons]
    exact quiet_after hsettled post
  · intro pre post hcalls hrecovery
    obtain ⟨e, he, rfl, hkind⟩ := hrecovery
    rw [hcalls]
    exact quiet_after (settled_of_recovery he hkind) post
  · intro hnever
    exact quiet_of_loud (run_untracked rfl hnever)
  · intro hrelayed
    exact relay_of_tracked (tracked_of_relayed _ hrelayed)

end Tracker

end CardTable.Go.Mempool
