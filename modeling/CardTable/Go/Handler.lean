import CardTable.Basis.Outcome
import CardTable.Go.Delivery

/-!
# Go.Handler — one connection of the relay

`handle` in `apps/relay-go/internal/relay/server.go` and `handleConn` in
`apps/relay-go/internal/wsadapter/server.go`. A connection runs two
goroutines: the handler, which is the reader loop and what follows it,
and the writer, which pumps frames from the hub to the peer. The handler
waits for the writer to be done before its deferred calls run, and of
these `Unsubscribe`, the one that closes the writer's channel, runs
first.

The two transports differ in what a goroutine does about the connection
and in whether the writer watches the server context. Reads and writes
of the network can fail at any time.
-/

namespace CardTable.Go

open Basis

/-- `handle` or `handleConn`. -/
inductive Transport where
  | tcp
  | ws
  deriving DecidableEq, Repr

/-- Where the handler is. -/
inductive HandlerAt where
  | reading
  /-- the reader loop has ended -/
  | leaving
  /-- at `<-writerDone` -/
  | waiting
  /-- at the deferred `Unsubscribe` -/
  | unsubscribing
  /-- at the deferred `Close` -/
  | closing
  | returned
  deriving DecidableEq, Repr

/-- Where the writer is: at its receive, with a frame to write, or
returned, `writerDone` closed. -/
inductive WriterAt (F : Type) where
  | ready
  | writing (f : F)
  | returned
  deriving DecidableEq, Repr

/-- A connection being served. -/
structure Serving (F : Type) where
  hub : Hub F
  subId : UInt64
  sub : Nat
  handler : HandlerAt
  writer : WriterAt F
  connClosed : Bool
  ctxDone : Bool

/-- What happens next to a connection. -/
inductive ServeAct (F : Type) where
  /-- a call of the reader's `dispatch` -/
  | dispatches (call : HubCall F)
  | readEnds
  /-- from the end of the loop to `<-writerDone` -/
  | leaves
  | writerDone
  | unsubscribes
  | closes
  /-- the writer receives a frame, or finds the channel closed -/
  | takes (f : F)
  | drained
  | writes
  | writeFails
  /-- the writer's `<-ctx.Done()` -/
  | seesDone
  /-- a call of another client, or of the server -/
  | others (call : HubCall F)
  | cancel

namespace Serving

variable {F : Type}

/-- The start of the handler, up to the two loops. -/
def connect (hub : Hub F) : Serving F :=
  let (hub, subId, sub) := hub.subscribe
  { hub, subId, sub, handler := .reading, writer := .ready, connClosed := false, ctxDone := false }

/-- The calls `dispatch` makes for the connection `subId`. -/
def ByReader (subId : UInt64) : HubCall F → Prop
  | .sendTo receiver _ _ => receiver = subId
  | .publish sender _ _ _ => sender = subId
  | .publishAll .. => True
  | _ => False

/-- What others cannot do: receive on this channel. -/
def ByOthers (sub : Nat) : HubCall F → Prop
  | .receive ch _ => ch ≠ sub
  | _ => True

/-- One step of a goroutine or of the world around it. -/
def Step (tr : Transport) (s : Serving F) : ServeAct F → Serving F → Prop
  | .dispatches call, s' => s.handler = .reading ∧ ByReader s.subId call ∧
      ∃ hub, Hub.Step s.hub call hub ∧ s' = { s with hub }
  | .readEnds, s' => s.handler = .reading ∧ s' = { s with handler := .leaving }
  | .leaves, s' => s.handler = .leaving ∧
      -- only `handle` closes the connection here
      s' = { s with handler := .waiting, connClosed := s.connClosed || tr = .tcp }
  | .writerDone, s' => s.handler = .waiting ∧ s.writer = .returned ∧
      s' = { s with handler := .unsubscribing }
  | .unsubscribes, s' => s.handler = .unsubscribing ∧
      ∃ hub, s.hub.unsubscribe s.subId = .ok hub ∧ s' = { s with hub, handler := .closing }
  | .closes, s' => s.handler = .closing ∧
      s' = { s with handler := .returned, connClosed := true }
  | .takes f, s' => s.writer = .ready ∧
      ∃ hub, s.hub.receive s.sub = some (hub, some f) ∧ s' = { s with hub, writer := .writing f }
  | .drained, s' => s.writer = .ready ∧
      ∃ hub, s.hub.receive s.sub = some (hub, none) ∧ s' = { s with hub, writer := .returned }
  | .writes, s' => s.connClosed = false ∧ (∃ f, s.writer = .writing f) ∧
      s' = { s with writer := .ready }
  | .writeFails, s' => (∃ f, s.writer = .writing f) ∧
      s' = { s with writer := .returned, connClosed := s.connClosed || tr = .tcp }
  | .seesDone, s' => tr = .tcp ∧ s.ctxDone = true ∧ s.writer = .ready ∧
      s' = { s with writer := .returned }
  | .others call, s' => ByOthers s.sub call ∧
      ∃ hub, Hub.Step s.hub call hub ∧ s' = { s with hub }
  | .cancel, s' => s' = { s with ctxDone := true }

/-- The runs of a connection made to `hub`. -/
abbrev Run (tr : Transport) (hub : Hub F) : List (ServeAct F × Serving F) → Serving F → Prop :=
  Path (Step tr) (connect hub)

/-- The steps of the connection's own goroutines. -/
def Own : ServeAct F → Prop
  | .others _ | .cancel => False
  | _ => True

/-- A step of the connection's own goroutines. -/
def OwnStep (tr : Transport) (s : Serving F) (act : ServeAct F) (s' : Serving F) : Prop :=
  Own act ∧ Step tr s act s'

/-- The reader loop has ended. -/
def ReaderEnded (s : Serving F) : Prop := s.handler ≠ .reading

/-- The handler has been through `Unsubscribe`. -/
def Unsubscribed (s : Serving F) : Prop := s.handler = .closing ∨ s.handler = .returned

/-- The connection's own goroutines can take the handler through
`Unsubscribe`. -/
def CanUnsubscribe (tr : Transport) (s : Serving F) : Prop :=
  CanReach (OwnStep tr) Unsubscribed s

/-! ## What a step can change -/

/-- The writer waits for a frame: the channel is empty and open. -/
def Idle (s : Serving F) : Prop :=
  (s.hub.chans s.sub).queue = [] ∧ (s.hub.chans s.sub).closed = false

/-- The writer is at its receive and would wait there. -/
def Starved (s : Serving F) : Prop := s.writer = .ready ∧ s.Idle

instance (s : Serving F) : Decidable s.Idle := inferInstanceAs (Decidable (_ ∧ _))

instance [DecidableEq F] (s : Serving F) : Decidable s.Starved :=
  inferInstanceAs (Decidable (_ ∧ _))

/-- What holds of a connection between steps: the hub keeps its
invariant, the channel was made by it, and past `<-writerDone` the writer
is done. -/
structure Inv (s : Serving F) : Prop where
  hub : s.hub.Inv
  made : s.sub < s.hub.made
  joined : s.handler ∈ [.unsubscribing, .closing, .returned] → s.writer = .returned

theorem inv_connect {hub : Hub F} (hinv : hub.Inv) : (connect hub).Inv where
  hub := hinv.subscribe
  made := Nat.lt_succ_self _
  joined := by simp [connect]

/-- A call on the hub keeps the invariant. -/
theorem Inv.call {s : Serving F} (hinv : s.Inv) {call : HubCall F} {hub : Hub F}
    (hs : Hub.Step s.hub call hub) : ({ s with hub } : Serving F).Inv where
  hub := hinv.hub.step hs
  made := Nat.lt_of_lt_of_le hinv.made (Hub.made_mono hinv.hub hs)
  joined := hinv.joined

/-- **One step keeps the invariant.** -/
theorem Inv.step {tr : Transport} {s s' : Serving F} {act : ServeAct F} (hinv : s.Inv)
    (hs : Step tr s act s') : s'.Inv := by
  cases act with
  | dispatches call =>
      obtain ⟨-, -, hub, hcall, rfl⟩ := hs
      exact hinv.call hcall
  | others call =>
      obtain ⟨-, hub, hcall, rfl⟩ := hs
      exact hinv.call hcall
  | readEnds | leaves =>
      obtain ⟨-, rfl⟩ := hs
      exact { hinv with joined := by simp }
  | writerDone =>
      obtain ⟨-, hwriter, rfl⟩ := hs
      exact { hinv with joined := fun _ => hwriter }
  | unsubscribes =>
      obtain ⟨hat, hub, hcall, rfl⟩ := hs
      have hwriter : s.writer = .returned := hinv.joined (by simp [hat])
      exact { hinv.call (show Hub.Step _ (.unsubscribe s.subId) hub from hcall) with
        joined := fun _ => hwriter }
  | closes =>
      obtain ⟨hat, rfl⟩ := hs
      have hwriter : s.writer = .returned := hinv.joined (by simp [hat])
      exact { hinv with joined := fun _ => hwriter }
  | takes f =>
      obtain ⟨hat, hub, hcall, rfl⟩ := hs
      refine { hinv.call (show Hub.Step _ (.receive s.sub (some f)) hub from hcall) with
        joined := fun hpast => ?_ }
      cases hat.symm.trans (hinv.joined hpast)
  | drained =>
      obtain ⟨-, hub, hcall, rfl⟩ := hs
      exact { hinv.call (show Hub.Step _ (.receive s.sub none) hub from hcall) with
        joined := fun _ => rfl }
  | writes =>
      obtain ⟨-, ⟨f, hat⟩, rfl⟩ := hs
      refine { hinv with joined := fun hpast => ?_ }
      cases hat.symm.trans (hinv.joined hpast)
  | writeFails =>
      obtain ⟨-, rfl⟩ := hs
      exact { hinv with joined := fun _ => rfl }
  | seesDone =>
      obtain ⟨-, -, -, rfl⟩ := hs
      exact { hinv with joined := fun _ => rfl }
  | cancel =>
      obtain rfl := hs
      exact { hinv with }

theorem inv_of_run {tr : Transport} {hub : Hub F} {hist : List (ServeAct F × Serving F)}
    {s : Serving F} (hinv : hub.Inv) (hrun : Run tr hub hist s) : s.Inv :=
  hrun.invariant (inv_connect hinv) Inv.step

/-! ## When the handler can get through -/

/-- Once the writer is done, nothing stops the handler. -/
theorem canUnsubscribe_of_writerDone {tr : Transport} {s : Serving F} (hinv : s.Inv)
    (hended : s.ReaderEnded) (hwriter : s.writer = .returned) : CanUnsubscribe tr s := by
  have hunsubscribing : ∀ {s : Serving F}, s.Inv → s.handler = .unsubscribing →
      CanUnsubscribe tr s := by
    intro s hinv hat
    obtain ⟨hub, hcall⟩ := except_exists_of_isOk ((Hub.no_panic hinv.hub).1 s.subId)
    exact .step .unsubscribes ⟨trivial, hat, hub, hcall, rfl⟩ (.here (.inl rfl))
  have hwaiting : ∀ {s : Serving F}, s.Inv → s.writer = .returned → s.handler = .waiting →
      CanUnsubscribe tr s := by
    intro s hinv hwriter hat
    have hstep : Step tr s .writerDone { s with handler := .unsubscribing } :=
      ⟨hat, hwriter, rfl⟩
    exact .step .writerDone ⟨trivial, hstep⟩ (hunsubscribing (hinv.step hstep) rfl)
  cases hat : s.handler with
  | reading => exact absurd hat hended
  | leaving =>
      have hstep : Step tr s .leaves
          { s with handler := .waiting, connClosed := s.connClosed || tr = .tcp } := ⟨hat, rfl⟩
      exact .step .leaves ⟨trivial, hstep⟩ (hwaiting (hinv.step hstep) hwriter rfl)
  | waiting => exact hwaiting hinv hwriter hat
  | unsubscribing => exact hunsubscribing hinv hat
  | closing => exact .here (.inl hat)
  | returned => exact .here (.inr hat)

/-- A writer that holds a frame, or has something to receive, can get
done. -/
theorem canUnsubscribe_of_not_starved {tr : Transport} {s : Serving F} (hinv : s.Inv)
    (hended : s.ReaderEnded) (hbusy : ¬ s.Starved) : CanUnsubscribe tr s := by
  -- with a frame in hand the write can fail
  have hwriting : ∀ {s : Serving F} {f : F}, s.Inv → s.ReaderEnded → s.writer = .writing f →
      CanUnsubscribe tr s := by
    intro s f hinv hended hat
    have hstep : Step tr s .writeFails
        { s with writer := .returned, connClosed := s.connClosed || tr = .tcp } :=
      ⟨⟨f, hat⟩, rfl⟩
    exact .step .writeFails ⟨trivial, hstep⟩
      (canUnsubscribe_of_writerDone (hinv.step hstep) hended rfl)
  cases hat : s.writer with
  | returned => exact canUnsubscribe_of_writerDone hinv hended hat
  | writing f => exact hwriting hinv hended hat
  | ready =>
      cases hqueue : (s.hub.chans s.sub).queue with
      | cons f rest =>
          have hstep : Step tr s (.takes f) { s with
              hub := s.hub.setChan s.sub { s.hub.chans s.sub with queue := rest }
              writer := .writing f } :=
            ⟨hat, _, by rw [Hub.receive, if_pos hinv.made, Chan.recv, hqueue]; rfl, rfl⟩
          exact .step (.takes f) ⟨trivial, hstep⟩ (hwriting (hinv.step hstep) hended rfl)
      | nil =>
          have hclosed : (s.hub.chans s.sub).closed = true := by
            by_contra hopen
            exact hbusy ⟨hat, hqueue, Bool.not_eq_true _ ▸ hopen⟩
          have hstep : Step tr s .drained { s with
              hub := s.hub.setChan s.sub (s.hub.chans s.sub)
              writer := .returned } :=
            ⟨hat, _, by rw [Hub.receive, if_pos hinv.made, Chan.recv, hqueue, if_pos hclosed]; rfl,
              rfl⟩
          exact .step .drained ⟨trivial, hstep⟩
            (canUnsubscribe_of_writerDone (hinv.step hstep) hended rfl)

/-- The reader loop has ended, the handler is not past `<-writerDone`,
and the writer waits for a frame nobody but another client publishes. -/
structure Stuck (s : Serving F) : Prop where
  handler : s.handler = .leaving ∨ s.handler = .waiting
  starved : s.Starved
  live : s.ctxDone = false

/-- No step of the connection's own goroutines gets it unstuck. -/
theorem Stuck.step {tr : Transport} {s s' : Serving F} {act : ServeAct F} (hstuck : s.Stuck)
    (hs : OwnStep tr s act s') : s'.Stuck := by
  obtain ⟨hown, hs⟩ := hs
  obtain ⟨hhandler, ⟨hwriter, hqueue, hopen⟩, hlive⟩ := hstuck
  -- the receive finds neither a frame nor a closed channel
  have hreceive : s.hub.receive s.sub = none := by
    rw [Hub.receive, Chan.recv, hqueue, hopen]
    simp
  cases act with
  | dispatches | readEnds =>
      rcases hhandler with hat | hat
      · cases hat.symm.trans hs.1
      · cases hat.symm.trans hs.1
  | leaves =>
      obtain ⟨-, rfl⟩ := hs
      exact ⟨.inr rfl, ⟨hwriter, hqueue, hopen⟩, hlive⟩
  | writerDone => cases hwriter.symm.trans hs.2.1
  | unsubscribes | closes =>
      rcases hhandler with hat | hat
      · cases hat.symm.trans hs.1
      · cases hat.symm.trans hs.1
  | takes f | drained =>
      obtain ⟨-, hub, hcall, -⟩ := hs
      cases hreceive.symm.trans hcall
  | writes =>
      obtain ⟨-, ⟨f, hat⟩, -⟩ := hs
      cases hwriter.symm.trans hat
  | writeFails =>
      obtain ⟨⟨f, hat⟩, -⟩ := hs
      cases hwriter.symm.trans hat
  | seesDone => cases hlive.symm.trans hs.2.1
  | others | cancel => cases hown

theorem Stuck.not_canUnsubscribe {tr : Transport} {s : Serving F} (hstuck : s.Stuck) :
    ¬ CanUnsubscribe tr s := by
  refine CanReach.not_of_trap hstuck Stuck.step ?_
  intro t ht hunsubscribed
  rcases ht.handler with hat | hat
  · simp [Unsubscribed, hat] at hunsubscribed
  · simp [Unsubscribed, hat] at hunsubscribed

/-- **State by state**: the handler can get through `Unsubscribe` when it
has, or when the writer is not starved. -/
theorem canUnsubscribe_iff {tr : Transport} {s : Serving F} (hinv : s.Inv)
    (hended : s.ReaderEnded) (hlive : s.ctxDone = false) :
    CanUnsubscribe tr s ↔ ¬ s.Starved := by
  constructor
  · intro hcan hstarved
    refine Stuck.not_canUnsubscribe ⟨?_, hstarved, hlive⟩ hcan
    have hnot : s.handler ∉ [.unsubscribing, .closing, .returned] := by
      intro hpast
      cases hstarved.1.symm.trans (hinv.joined hpast)
    cases hat : s.handler with
    | reading => exact absurd hat hended
    | leaving => exact .inl rfl
    | waiting => exact .inr rfl
    | unsubscribing | closing | returned => simp [hat] at hnot
  · exact canUnsubscribe_of_not_starved hinv hended

/-! ## When a run keeps clear of it -/

/-- **The condition on a step** taken while the server context is live:
the reader loop does not end on a starved writer, and once it has ended
the writer completes a frame only when another is waiting. -/
def Relieved (s : Serving F) (act : ServeAct F) : Prop :=
  s.ctxDone = false → match act with
    | .readEnds => ¬ s.Starved
    | .writes => s.handler = .reading ∨ ¬ s.Idle
    | _ => True

instance [DecidableEq F] (s : Serving F) : (act : ServeAct F) → Decidable (s.Relieved act)
  | .readEnds => inferInstanceAs (Decidable (_ → ¬ _))
  | .writes => inferInstanceAs (Decidable (_ → _ ∨ ¬ _))
  | .dispatches _ | .leaves | .writerDone | .unsubscribes | .closes | .takes _ | .drained
  | .writeFails | .seesDone | .others _ | .cancel => inferInstanceAs (Decidable (_ → True))

/-- With the context live and the reader loop ended, the writer is not
starved. -/
def Unstuck (s : Serving F) : Prop := s.ReaderEnded → s.ctxDone = false → ¬ s.Starved

/-- What others do leaves an idle channel idle, or was nothing to it. -/
theorem idle_of_others {s : Serving F} (hinv : s.Inv) {call : HubCall F} {hub : Hub F}
    (hothers : ByOthers s.sub call) (hs : Hub.Step s.hub call hub)
    (hidle : ({ s with hub } : Serving F).Idle) : s.Idle := by
  obtain ⟨hqueue, hopen⟩ := hidle
  cases Hub.effect_of_step hinv.hub hs with
  | subscribed =>
      have hold : s.hub.subscribe.1.chans s.sub = s.hub.chans s.sub :=
        Function.update_of_ne (Nat.ne_of_lt hinv.made) ..
      exact ⟨hold ▸ hqueue, hold ▸ hopen⟩
  | removed id ch hm =>
      by_cases heq : s.sub = ch
      · -- a closed channel is not idle
        subst heq
        simp [Hub.setChan] at hopen
      · have hold : (s.hub.setChan ch { s.hub.chans ch with closed := true }).chans s.sub =
            s.hub.chans s.sub := Function.update_of_ne heq ..
        exact ⟨hold ▸ hqueue, hold ▸ hopen⟩
  | offered _ chs f =>
      simp only [Hub.offeredOn] at hqueue hopen
      split at hqueue
      · rename_i hmem
        rw [if_pos hmem, Chan.offered_closed] at hopen
        rw [Chan.offered_queue] at hqueue
        exact ⟨List.append_eq_nil_iff.mp hqueue |>.1, hopen⟩
      · rename_i hmem
        rw [if_neg hmem] at hopen
        exact ⟨hqueue, hopen⟩
  | idle => exact ⟨hqueue, hopen⟩
  | received ch f c =>
      have hold : (s.hub.setChan ch c).chans s.sub = s.hub.chans s.sub :=
        Function.update_of_ne (Ne.symm hothers) ..
      exact ⟨hold ▸ hqueue, hold ▸ hopen⟩

/-- **One step** out of an unstuck state leads to one exactly when it
meets the condition. -/
theorem unstuck_step {tr : Transport} {s s' : Serving F} {act : ServeAct F} (hinv : s.Inv)
    (hs : Step tr s act s') (hunstuck : s.Unstuck) : s'.Unstuck ↔ s.Relieved act := by
  have hinv' := hinv.step hs
  -- a writer that is not at its receive is not starved
  have hbusy : s'.writer ≠ .ready → s'.Unstuck := fun hat _ _ hstarved => hat hstarved.1
  cases act with
  | dispatches call =>
      obtain ⟨hat, -, hub, -, rfl⟩ := hs
      exact iff_of_true (fun hended => absurd hat hended) fun _ => trivial
  | readEnds =>
      obtain ⟨-, rfl⟩ := hs
      constructor
      · intro h hlive
        exact h (by simp [ReaderEnded]) hlive
      · intro h _ hlive
        exact h hlive
  | leaves =>
      obtain ⟨hat, rfl⟩ := hs
      exact iff_of_true (fun _ => hunstuck (by simp [ReaderEnded, hat])) fun _ => trivial
  | writerDone | unsubscribes | closes =>
      refine iff_of_true (hbusy ?_) fun _ => trivial
      obtain ⟨-, hat⟩ := hs
      rw [hinv'.joined (by grind)]
      simp
  | takes f =>
      obtain ⟨-, hub, -, rfl⟩ := hs
      exact iff_of_true (hbusy (by simp)) fun _ => trivial
  | drained =>
      obtain ⟨-, hub, -, rfl⟩ := hs
      exact iff_of_true (hbusy (by simp)) fun _ => trivial
  | writes =>
      obtain ⟨-, -, rfl⟩ := hs
      constructor
      · intro h hlive
        by_cases hat : s.handler = .reading
        · exact .inl hat
        · exact .inr fun hidle => h hat hlive ⟨rfl, hidle⟩
      · intro h hended hlive hstarved
        rcases h hlive with hat | hnot
        · exact hended hat
        · exact hnot hstarved.2
  | writeFails =>
      obtain ⟨-, rfl⟩ := hs
      exact iff_of_true (hbusy (by simp)) fun _ => trivial
  | seesDone =>
      obtain ⟨-, -, -, rfl⟩ := hs
      exact iff_of_true (hbusy (by simp)) fun _ => trivial
  | others call =>
      obtain ⟨hothers, hub, hcall, rfl⟩ := hs
      refine iff_of_true (fun hended hlive hstarved => ?_) fun _ => trivial
      exact hunstuck hended hlive ⟨hstarved.1, idle_of_others hinv hothers hcall hstarved.2⟩
  | cancel =>
      obtain rfl := hs
      exact iff_of_true (fun _ hlive => nomatch hlive) fun _ => trivial

/-- A run all of whose states are unstuck ends in one. -/
theorem unstuck_of_all {tr : Transport} {hub : Hub F} {hist : List (ServeAct F × Serving F)}
    {s : Serving F} (hrun : Run tr hub hist s) (hall : ∀ p ∈ hist, p.2.Unstuck) : s.Unstuck := by
  cases hrun with
  | start => exact fun hended => absurd rfl hended
  | snoc => exact hall (_, _) (List.mem_append_right _ (List.mem_singleton_self _))

/-- **Run lemma**: the states are unstuck as long as the steps meet the
condition. -/
theorem unstuck_iff {tr : Transport} {hub : Hub F} (hinv : hub.Inv)
    {hist : List (ServeAct F × Serving F)} {s : Serving F} (hrun : Run tr hub hist s) :
    (∀ p ∈ hist, p.2.Unstuck) ↔
      ∀ step ∈ stepsOf (connect hub) hist, step.1.Relieved step.2.1 := by
  induction hrun with
  | start => simp [stepsOf]
  | @snoc hist s s' act hp hs ih =>
      rw [hp.stepsOf_snoc]
      simp only [List.mem_append, List.mem_singleton, or_imp, forall_and, forall_eq, ← ih]
      constructor
      · intro h
        exact ⟨h.1, (unstuck_step (inv_of_run hinv hp) hs (unstuck_of_all hp h.1)).mp h.2⟩
      · intro h
        exact ⟨h.1, (unstuck_step (inv_of_run hinv hp) hs (unstuck_of_all hp h.1)).mpr h.2⟩

/-- **Shutting down.** In a run of either handler, on a hub in any state
it can get to, the handler can get to `Unsubscribe` without the help of
another client in every state in which its reader loop has ended and the
context is live, exactly when every step meets the condition. -/
theorem can_shut_down_iff {queueDepth : Int} {calls : List (HubCall F × Hub F)} {hub : Hub F}
    (hhub : Hub.Run F queueDepth calls hub) (tr : Transport)
    {hist : List (ServeAct F × Serving F)} {s : Serving F} (hrun : Run tr hub hist s) :
    (∀ p ∈ hist, p.2.ReaderEnded → p.2.ctxDone = false → CanUnsubscribe tr p.2) ↔
      ∀ step ∈ stepsOf (connect hub) hist, step.1.Relieved step.2.1 := by
  have hinv := Hub.inv_of_run hhub
  rw [← unstuck_iff hinv hrun]
  have hstate : ∀ p ∈ hist, p.2.ReaderEnded → p.2.ctxDone = false →
      (CanUnsubscribe tr p.2 ↔ ¬ p.2.Starved) := by
    intro p hp hended hlive
    obtain ⟨pre, hpre, -⟩ := hrun.exists_prefix hp
    exact canUnsubscribe_iff (inv_of_run hinv hpre) hended hlive
  constructor
  · intro h p hp hended hlive
    exact (hstate p hp hended hlive).mp (h p hp hended hlive)
  · intro h p hp hended hlive
    exact (hstate p hp hended hlive).mpr (h p hp hended hlive)

/-- A frame is waiting when the reader loop ends: the writer fails on it
and the handler gets through. -/
theorem can_shut_down_sample :
    ∃ (hist : List (ServeAct Nat × Serving Nat)) (s : Serving Nat),
      Run .tcp (Hub.new Nat 1) hist s ∧
      hist.map Prod.fst = [.others (.publishAll 7 1 0), .readEnds, .leaves, .takes 7,
        .writeFails, .writerDone, .unsubscribes] ∧
      s.Unsubscribed ∧
      ∀ p ∈ hist, p.2.ReaderEnded → p.2.ctxDone = false → CanUnsubscribe .tcp p.2 := by
  have hrun := (Path.start : Run .tcp (Hub.new Nat 1) _ _)
    |>.next (.others (.publishAll 7 1 0)) ⟨trivial, _, ⟨_, .refl _, rfl⟩, rfl⟩
    |>.next .readEnds ⟨rfl, rfl⟩
    |>.next .leaves ⟨rfl, rfl⟩
    |>.next (.takes 7) ⟨rfl, _, rfl, rfl⟩
    |>.next .writeFails ⟨⟨7, rfl⟩, rfl⟩
    |>.next .writerDone ⟨rfl, rfl, rfl⟩
    |>.next .unsubscribes ⟨rfl, _, rfl, rfl⟩
  exact ⟨_, _, hrun, rfl, .inl rfl, (can_shut_down_iff .start .tcp hrun).mpr (by decide)⟩

/-- On a quiet table the reader loop ends on an idle writer, and neither
handler gets through while nobody else publishes. -/
theorem handler_stuck :
    (∃ (hist : List (ServeAct Nat × Serving Nat)) (s : Serving Nat),
      Run .tcp (Hub.new Nat 64) hist s ∧ hist.map Prod.fst = [.readEnds, .leaves] ∧
      s.ReaderEnded ∧ s.ctxDone = false ∧ ¬ CanUnsubscribe .tcp s) ∧
    ∃ (hist : List (ServeAct Nat × Serving Nat)) (s : Serving Nat),
      Run .ws (Hub.new Nat 64) hist s ∧ hist.map Prod.fst = [.readEnds, .leaves] ∧
      s.ReaderEnded ∧ s.ctxDone = false ∧ ¬ CanUnsubscribe .ws s := by
  have hrun : ∀ tr, ∃ (hist : List (ServeAct Nat × Serving Nat)) (s : Serving Nat),
      Run tr (Hub.new Nat 64) hist s ∧ hist.map Prod.fst = [.readEnds, .leaves] ∧
      s.ReaderEnded ∧ s.ctxDone = false ∧ ¬ CanUnsubscribe tr s := by
    intro tr
    have hrun := (Path.start : Run tr (Hub.new Nat 64) _ _)
      |>.next .readEnds ⟨rfl, rfl⟩
      |>.next .leaves ⟨rfl, rfl⟩
    refine ⟨_, _, hrun, rfl, ?_, rfl, Stuck.not_canUnsubscribe ?_⟩
    · simp [ReaderEnded]
    · exact ⟨.inr rfl, ⟨rfl, rfl, rfl⟩, rfl⟩
  exact ⟨hrun .tcp, hrun .ws⟩

end Serving

end CardTable.Go
