import CardTable.Basis.Channel
import CardTable.Basis.Run
import Mathlib.Data.List.Nodup
import Mathlib.Logic.Function.Basic

/-!
# Go.Hub — the fan-out of a table

`apps/relay-go/internal/broadcast/hub.go`. The hub maps subscriber ids to
channels. The mutex makes each of its methods one step; a consumer's
receive takes no lock and is a step of its own, and one that overlaps a
`Publish` falls before or after the one send on its channel.

Channels are kept apart from the map: a consumer still holds its channel,
and what is buffered in it, when `Unsubscribe` has taken it off the map.
-/

namespace CardTable.Go

open Basis

/-- `Hub`, with the channels made so far. -/
structure Hub (F : Type) where
  nextId : UInt64
  subscribers : List (UInt64 × Nat)
  queueDepth : Nat
  made : Nat
  chans : Nat → Chan F

namespace Hub

variable {F : Type}

/-- `New`. -/
def new (F : Type) (queueDepth : Int) : Hub F where
  nextId := 0
  subscribers := []
  queueDepth := if queueDepth ≤ 0 then 64 else queueDepth.toNat
  made := 0
  chans := fun _ => .make F 0

/-- `h.subscribers[id]`. -/
def lookup (h : Hub F) (id : UInt64) : Option Nat :=
  (h.subscribers.find? (fun p => p.1 == id)).map (·.2)

/-- Replace one channel. -/
def setChan (h : Hub F) (ch : Nat) (c : Chan F) : Hub F :=
  { h with chans := Function.update h.chans ch c }

/-- `Subscribe`: the next id, a new channel. -/
def subscribe (h : Hub F) : Hub F × UInt64 × Nat :=
  let id := h.nextId + 1
  let ch := h.made
  ({ h with
      nextId := id
      subscribers := (id, ch) :: h.subscribers.filter (·.1 ≠ id)
      made := h.made + 1
      chans := Function.update h.chans ch (.make F h.queueDepth) }, id, ch)

/-- `Unsubscribe`. -/
def unsubscribe (h : Hub F) (id : UInt64) : Except Panic (Hub F) :=
  match h.lookup id with
  | none => .ok h
  | some ch => do
      let closed ← (h.chans ch).close
      pure { h.setChan ch closed with subscribers := h.subscribers.filter (·.1 ≠ id) }

/-- The `select` of `Publish` and `SendTo`: was the frame sent? -/
def sendOn (h : Hub F) (ch : Nat) (f : F) : Except Panic (Hub F × Bool) := do
  let (c, sent) ← (h.chans ch).trySend f
  pure (h.setChan ch c, sent)

/-- The loop of `Publish`, over the subscribers in the order the map
yields them: the frames delivered and dropped. -/
def publishLoop (sender : UInt64) (f : F) :
    List (UInt64 × Nat) → Hub F → Except Panic (Hub F × Nat × Nat)
  | [], h => .ok (h, 0, 0)
  | (id, ch) :: rest, h =>
      if id = sender then publishLoop sender f rest h
      else do
        let (h', sent) ← h.sendOn ch f
        let (h'', delivered, dropped) ← publishLoop sender f rest h'
        pure (if sent then (h'', delivered + 1, dropped) else (h'', delivered, dropped + 1))

/-- `Publish`; `order` is the iteration order of the map. -/
def publish (h : Hub F) (order : List (UInt64 × Nat)) (sender : UInt64) (f : F) :
    Except Panic (Hub F × Nat × Nat) :=
  publishLoop sender f order h

/-- `PublishAll`. -/
def publishAll (h : Hub F) (order : List (UInt64 × Nat)) (f : F) :
    Except Panic (Hub F × Nat × Nat) :=
  h.publish order 0 f

/-- `SendTo`: was the frame delivered? -/
def sendTo (h : Hub F) (id : UInt64) (f : F) : Except Panic (Hub F × Bool) :=
  match h.lookup id with
  | none => .ok (h, false)
  | some ch => h.sendOn ch f

/-- `SubscriberCount`. -/
def subscriberCount (h : Hub F) : Nat := h.subscribers.length

/-- A consumer receives on a channel it was given. -/
def receive (h : Hub F) (ch : Nat) : Option (Hub F × Option F) :=
  if ch < h.made then (h.chans ch).recv.map fun r => (h.setChan ch r.1, r.2) else none

end Hub

/-! ## Runs -/

/-- A call on the hub with its result, or a receive. -/
inductive HubCall (F : Type) where
  | subscribe (id : UInt64) (ch : Nat)
  | unsubscribe (id : UInt64)
  | publish (sender : UInt64) (f : F) (delivered dropped : Nat)
  | publishAll (f : F) (delivered dropped : Nat)
  | sendTo (id : UInt64) (f : F) (ok : Bool)
  | receive (ch : Nat) (got : Option F)

namespace Hub

variable {F : Type}

/-- One call that returns. -/
def Step (h : Hub F) : HubCall F → Hub F → Prop
  | .subscribe id ch, h' => h.subscribe = (h', id, ch)
  | .unsubscribe id, h' => h.unsubscribe id = .ok h'
  | .publish sender f delivered dropped, h' =>
      ∃ order, order.Perm h.subscribers ∧ h.publish order sender f = .ok (h', delivered, dropped)
  | .publishAll f delivered dropped, h' =>
      ∃ order, order.Perm h.subscribers ∧ h.publishAll order f = .ok (h', delivered, dropped)
  | .sendTo id f ok, h' => h.sendTo id f = .ok (h', ok)
  | .receive ch got, h' => h.receive ch = some (h', got)

/-- The runs of a new hub. -/
abbrev Run (F : Type) (queueDepth : Int) : List (HubCall F × Hub F) → Hub F → Prop :=
  Path Step (new F queueDepth)

/-! ## The invariant -/

/-- The id a channel is made with: ids count up from 1 and wrap. -/
def idOf (ch : Nat) : UInt64 := UInt64.ofNat (ch + 1)

/-- What holds of a hub between calls: the map knows each channel under
the id it was made with, every channel on it is open, and no queue is
longer than it may be. -/
structure Inv (h : Hub F) : Prop where
  nextId : h.nextId = UInt64.ofNat h.made
  idsNodup : (h.subscribers.map Prod.fst).Nodup
  owned : ∀ p ∈ h.subscribers, p.2 < h.made ∧ p.1 = idOf p.2
  opened : ∀ p ∈ h.subscribers, (h.chans p.2).closed = false
  caps : ∀ ch < h.made, (h.chans ch).cap = h.queueDepth
  bounded : ∀ ch, (h.chans ch).queue.length ≤ h.queueDepth
  fresh : ∀ ch, h.made ≤ ch → (h.chans ch).queue = []

theorem inv_new (F : Type) (queueDepth : Int) : (new F queueDepth).Inv where
  nextId := rfl
  idsNodup := List.nodup_nil
  owned := by simp [new]
  opened := by simp [new]
  caps := by simp [new]
  bounded := by simp [new, Chan.make]
  fresh := by simp [new, Chan.make]

/-- Two entries with one channel are one entry. -/
theorem Inv.chansNodup {h : Hub F} (hinv : h.Inv) : (h.subscribers.map Prod.snd).Nodup := by
  have hpairs : h.subscribers.Nodup := List.Nodup.of_map Prod.fst hinv.idsNodup
  refine List.Nodup.map_on ?_ hpairs
  intro p hp q hq heq
  exact Prod.ext (by rw [(hinv.owned p hp).2, (hinv.owned q hq).2, heq]) heq

theorem mem_of_lookup {h : Hub F} {id : UInt64} {ch : Nat} (hl : h.lookup id = some ch) :
    (id, ch) ∈ h.subscribers := by
  simp only [lookup, Option.map_eq_some_iff] at hl
  obtain ⟨p, hp, rfl⟩ := hl
  have hid := List.find?_some hp
  simp only [beq_iff_eq] at hid
  rw [← hid]
  exact List.mem_of_find?_eq_some hp

theorem lookup_of_mem {h : Hub F} (hinv : h.Inv) {id : UInt64} {ch : Nat}
    (hm : (id, ch) ∈ h.subscribers) : h.lookup id = some ch := by
  cases hl : h.lookup id with
  | none =>
      simp only [lookup, Option.map_eq_none_iff, List.find?_eq_none] at hl
      simpa using hl (id, ch) hm
  | some ch' =>
      have hm' := mem_of_lookup hl
      have heq : (id, ch') = (id, ch) := List.inj_on_of_nodup_map hinv.idsNodup hm' hm rfl
      rw [(Prod.mk.inj heq).2]

/-! ## Sending -/

/-- The hub after an attempt to send on each channel of a list. -/
def offeredOn (h : Hub F) (chs : List Nat) (f : F) : Hub F :=
  { h with chans := fun ch => if ch ∈ chs then (h.chans ch).offered f else h.chans ch }

@[simp] theorem offeredOn_nil (h : Hub F) (f : F) : h.offeredOn [] f = h := by
  simp [offeredOn]

theorem sendOn_of_open {h : Hub F} {ch : Nat} (hopen : (h.chans ch).closed = false) (f : F) :
    h.sendOn ch f = .ok (h.offeredOn [ch] f, decide (h.chans ch).HasRoom) := by
  have hset : h.setChan ch ((h.chans ch).offered f) = h.offeredOn [ch] f := by
    simp only [setChan, offeredOn]
    congr 1
    funext c
    by_cases hc : c = ch
    · subst hc
      simp
    · simp [hc]
  rw [sendOn, Chan.trySend_of_open hopen]
  show Except.ok _ = _
  rw [hset]

/-- The channels a `Publish` sends on. -/
def addressees (order : List (UInt64 × Nat)) (sender : UInt64) : List Nat :=
  (order.filter (·.1 ≠ sender)).map Prod.snd

/-- **The loop of `Publish`** offers the frame once to every subscriber
but the sender, and counts them all. -/
theorem publishLoop_eq (sender : UInt64) (f : F) {order : List (UInt64 × Nat)} {h : Hub F}
    (hopen : ∀ p ∈ order, (h.chans p.2).closed = false)
    (hnd : (order.map Prod.snd).Nodup) :
    ∃ delivered dropped,
      publishLoop sender f order h =
        .ok (h.offeredOn (addressees order sender) f, delivered, dropped) ∧
      delivered + dropped = (addressees order sender).length := by
  induction order generalizing h with
  | nil => exact ⟨0, 0, by simp [publishLoop, addressees], rfl⟩
  | cons p rest ih =>
      obtain ⟨id, ch⟩ := p
      simp only [List.map_cons, List.nodup_cons] at hnd
      by_cases hid : id = sender
      · obtain ⟨delivered, dropped, hloop, hcount⟩ :=
          ih (fun p hp => hopen p (List.mem_cons_of_mem _ hp)) hnd.2
        refine ⟨delivered, dropped, ?_, ?_⟩
        · simpa [publishLoop, hid, addressees] using hloop
        · simpa [hid, addressees] using hcount
      · have hch : (h.chans ch).closed = false := hopen (id, ch) List.mem_cons_self
        -- the other channels are not touched by this send
        have hopen' : ∀ p ∈ rest, ((h.offeredOn [ch] f).chans p.2).closed = false := by
          intro p hp
          simp only [offeredOn]
          split
          · rw [Chan.offered_closed]
            exact hopen p (List.mem_cons_of_mem _ hp)
          · exact hopen p (List.mem_cons_of_mem _ hp)
        obtain ⟨delivered, dropped, hloop, hcount⟩ := ih hopen' hnd.2
        have hadd : addressees ((id, ch) :: rest) sender = ch :: addressees rest sender := by
          simp [addressees, hid]
        have htwice : (h.offeredOn [ch] f).offeredOn (addressees rest sender) f =
            h.offeredOn (ch :: addressees rest sender) f := by
          have hnot : ch ∉ addressees rest sender := by
            intro hmem
            obtain ⟨p, hp, hpch⟩ := List.mem_map.mp hmem
            exact hnd.1 (hpch ▸ List.mem_map_of_mem (List.mem_of_mem_filter hp))
          simp only [offeredOn]
          congr 1
          funext c
          by_cases hc : c = ch
          · subst hc
            simp [hnot]
          · simp [hc]
        rw [hadd, ← htwice, List.length_cons]
        by_cases hroom : (h.chans ch).HasRoom
        · refine ⟨delivered + 1, dropped, ?_, by omega⟩
          simp only [publishLoop, if_neg hid, sendOn_of_open hch, bind, Except.bind, hloop, hroom]
          rfl
        · refine ⟨delivered, dropped + 1, ?_, by omega⟩
          simp only [publishLoop, if_neg hid, sendOn_of_open hch, bind, Except.bind, hloop, hroom]
          rfl

theorem mem_addressees {h : Hub F} (hinv : h.Inv) {order : List (UInt64 × Nat)}
    (hperm : order.Perm h.subscribers) {sender : UInt64} {ch : Nat} :
    ch ∈ addressees order sender ↔ (idOf ch, ch) ∈ h.subscribers ∧ idOf ch ≠ sender := by
  simp only [addressees, List.mem_map, List.mem_filter, hperm.mem_iff, decide_eq_true_eq]
  constructor
  · intro hx
    obtain ⟨p, ⟨hp, hid⟩, rfl⟩ := hx
    obtain ⟨id, ch⟩ := p
    have heq : id = idOf ch := (hinv.owned _ hp).2
    subst heq
    exact ⟨hp, hid⟩
  · intro hx
    exact ⟨(idOf ch, ch), hx, rfl⟩

/-- `Publish` returns, having offered the frame to every subscriber but
the sender. -/
theorem publish_eq {h : Hub F} (hinv : h.Inv) {order : List (UInt64 × Nat)}
    (hperm : order.Perm h.subscribers) (sender : UInt64) (f : F) :
    ∃ delivered dropped,
      h.publish order sender f =
        .ok (h.offeredOn (addressees order sender) f, delivered, dropped) ∧
      delivered + dropped = (h.subscribers.filter (·.1 ≠ sender)).length := by
  obtain ⟨delivered, dropped, hloop, hcount⟩ :=
    publishLoop_eq sender f (fun p hp => hinv.opened p (hperm.mem_iff.mp hp))
      ((hperm.map Prod.snd).nodup_iff.mpr hinv.chansNodup)
  refine ⟨delivered, dropped, hloop, ?_⟩
  rw [hcount, addressees, List.length_map, (hperm.filter _).length_eq]

/-- `SendTo` returns. -/
theorem sendTo_eq {h : Hub F} (hinv : h.Inv) (id : UInt64) (f : F) :
    (h.lookup id = none ∧ h.sendTo id f = .ok (h, false)) ∨
      ∃ ch ok, (id, ch) ∈ h.subscribers ∧ h.sendTo id f = .ok (h.offeredOn [ch] f, ok) := by
  cases hl : h.lookup id with
  | none => exact .inl ⟨rfl, by rw [sendTo, hl]⟩
  | some ch =>
      have hm := mem_of_lookup hl
      refine .inr ⟨ch, decide (h.chans ch).HasRoom, hm, ?_⟩
      rw [sendTo, hl]
      exact sendOn_of_open (hinv.opened _ hm) f

/-- `Unsubscribe` returns. -/
theorem unsubscribe_eq {h : Hub F} (hinv : h.Inv) (id : UInt64) :
    (h.lookup id = none ∧ h.unsubscribe id = .ok h) ∨
      ∃ ch, (id, ch) ∈ h.subscribers ∧ h.unsubscribe id =
        .ok { h.setChan ch { h.chans ch with closed := true } with
          subscribers := h.subscribers.filter (·.1 ≠ id) } := by
  cases hl : h.lookup id with
  | none => exact .inl ⟨rfl, by rw [unsubscribe, hl]⟩
  | some ch =>
      have hm := mem_of_lookup hl
      refine .inr ⟨ch, hm, ?_⟩
      simp only [unsubscribe, hl, Chan.close_of_open (hinv.opened _ hm)]
      rfl

theorem receive_eq_some {h h' : Hub F} {ch : Nat} {got : Option F}
    (hr : h.receive ch = some (h', got)) :
    ∃ c, h' = h.setChan ch c ∧ ch < h.made ∧ got.toList ++ c.queue = (h.chans ch).queue ∧
      c.cap = (h.chans ch).cap ∧ c.closed = (h.chans ch).closed := by
  simp only [receive] at hr
  split at hr
  · rename_i hch
    simp only [Option.map_eq_some_iff] at hr
    obtain ⟨⟨c, got'⟩, hrecv, heq⟩ := hr
    cases heq
    exact ⟨c, rfl, hch, Chan.recv_eq_some hrecv⟩
  · cases hr

/-! ## What a call does -/

/-- The frame a call publishes to `id`; `PublishAll` has sender 0. -/
def addressed (id : UInt64) : HubCall F → Option F
  | .publish sender f _ _ => if sender = id then none else some f
  | .publishAll f _ _ => if 0 = id then none else some f
  | .sendTo receiver f _ => if receiver = id then some f else none
  | _ => none

/-- The frames a call receives on `ch`. -/
def got (ch : Nat) : HubCall F → List F
  | .receive c f => if c = ch then f.toList else []
  | _ => []

/-- The call publishes a frame. -/
def Sends : HubCall F → Prop
  | .publish .. | .publishAll .. | .sendTo .. => True
  | _ => False

theorem got_of_sends {call : HubCall F} (h : Sends call) (ch : Nat) : got ch call = [] := by
  cases call with
  | publish | publishAll | sendTo => rfl
  | subscribe | unsubscribe | receive => cases h

/-- What a call can do to a hub. -/
inductive Effect (h : Hub F) : HubCall F → Hub F → Prop where
  | subscribed : Effect h (.subscribe (h.nextId + 1) h.made) h.subscribe.1
  | removed (id : UInt64) (ch : Nat) : (id, ch) ∈ h.subscribers →
      Effect h (.unsubscribe id) { h.setChan ch { h.chans ch with closed := true } with
        subscribers := h.subscribers.filter (·.1 ≠ id) }
  /-- the sends; one to an unknown id is a send to nobody -/
  | offered (call : HubCall F) (chs : List Nat) (f : F) : Sends call →
      (∀ ch, ch ∈ chs ↔ (idOf ch, ch) ∈ h.subscribers ∧ addressed (idOf ch) call = some f) →
      (∀ id g, addressed id call = some g → g = f) →
      Effect h call (h.offeredOn chs f)
  | idle (id : UInt64) : (∀ ch, (id, ch) ∉ h.subscribers) → Effect h (.unsubscribe id) h
  | received (ch : Nat) (f : Option F) (c : Chan F) : ch < h.made →
      f.toList ++ c.queue = (h.chans ch).queue → c.cap = (h.chans ch).cap →
      c.closed = (h.chans ch).closed → Effect h (.receive ch f) (h.setChan ch c)

/-- A call that publishes to all but one id. -/
theorem Effect.published {h h' : Hub F} {call : HubCall F} (hinv : h.Inv)
    {order : List (UInt64 × Nat)} (hperm : order.Perm h.subscribers) {sender : UInt64} {f : F}
    {delivered dropped : Nat} (hpub : h.publish order sender f = .ok (h', delivered, dropped))
    (hsends : Sends call)
    (hto : ∀ id, addressed id call = if sender = id then none else some f) :
    Effect h call h' := by
  obtain ⟨_, _, heq, -⟩ := publish_eq hinv hperm sender f
  obtain rfl := (Prod.mk.inj (Except.ok.inj (heq.symm.trans hpub))).1
  refine .offered _ _ f hsends (fun ch => ?_) (fun id g hg => ?_)
  · rw [mem_addressees hinv hperm, hto]
    simp [eq_comm]
  · rw [hto] at hg
    split at hg
    · cases hg
    · exact (Option.some.inj hg).symm

/-- **Every call has one of these effects.** -/
theorem effect_of_step {h h' : Hub F} {call : HubCall F} (hinv : h.Inv) (hs : Step h call h') :
    Effect h call h' := by
  cases call with
  | subscribe id ch =>
      obtain ⟨rfl, hpair⟩ := Prod.mk.inj (show h.subscribe = (h', id, ch) from hs)
      obtain ⟨rfl, rfl⟩ := Prod.mk.inj hpair
      exact .subscribed
  | unsubscribe id =>
      rcases unsubscribe_eq hinv id with ⟨hnone, heq⟩ | ⟨ch, hm, heq⟩
      · obtain rfl := Except.ok.inj (heq.symm.trans hs)
        refine .idle id fun ch hm => ?_
        rw [lookup_of_mem hinv hm] at hnone
        cases hnone
      · obtain rfl := Except.ok.inj (heq.symm.trans hs)
        exact .removed id ch hm
  | publish sender f delivered dropped =>
      obtain ⟨order, hperm, hpub⟩ := hs
      exact .published hinv hperm hpub trivial fun _ => rfl
  | publishAll f delivered dropped =>
      obtain ⟨order, hperm, hpub⟩ := hs
      exact .published hinv hperm hpub trivial fun _ => rfl
  | sendTo id f ok =>
      have hframe : ∀ x g, addressed x (.sendTo id f ok) = some g → g = f := by
        intro x g hg
        simp only [addressed] at hg
        split at hg
        · exact (Option.some.inj hg).symm
        · cases hg
      rcases sendTo_eq hinv id f with ⟨hnone, heq⟩ | ⟨ch, _, hm, heq⟩
      · obtain rfl := (Prod.mk.inj (Except.ok.inj (heq.symm.trans hs))).1
        have heffect : Effect h (.sendTo id f ok) (h.offeredOn [] f) := by
          refine .offered _ _ f trivial (fun ch => ?_) hframe
          simp only [List.not_mem_nil, addressed, false_iff, not_and]
          intro hm hid
          split at hid
          · rename_i heqid
            rw [← heqid] at hm
            rw [lookup_of_mem hinv hm] at hnone
            cases hnone
          · cases hid
        simpa using heffect
      · obtain rfl := (Prod.mk.inj (Except.ok.inj (heq.symm.trans hs))).1
        refine .offered _ _ f trivial (fun c => ?_) hframe
        have howned : id = idOf ch := (hinv.owned _ hm).2
        constructor
        · intro hc
          obtain rfl := List.mem_singleton.mp hc
          subst howned
          exact ⟨hm, by simp [addressed]⟩
        · intro hc
          simp only [addressed, Option.ite_none_right_eq_some] at hc
          obtain ⟨hmc, hid, -⟩ := hc
          have heqp := List.inj_on_of_nodup_map hinv.idsNodup hmc hm hid.symm
          exact List.mem_singleton.mpr (Prod.mk.inj heqp).2
  | receive ch f =>
      obtain ⟨c, rfl, hmade, hqueue, hcap, hclosed⟩ := receive_eq_some hs
      exact .received ch f c hmade hqueue hcap hclosed

/-! ## Every call keeps the invariant -/

theorem Inv.subscribe {h : Hub F} (hinv : h.Inv) : h.subscribe.1.Inv := by
  have hid : h.nextId + 1 = idOf h.made := by
    rw [hinv.nextId, idOf, UInt64.ofNat_add]
    rfl
  have hch : ∀ p ∈ h.subscribers, p.2 ≠ h.made := by
    intro p hp
    have := (hinv.owned p hp).1
    omega
  constructor
  · exact hid
  · simp only [Hub.subscribe, List.map_cons, List.nodup_cons, List.mem_map, List.mem_filter]
    refine ⟨?_, ((List.filter_sublist).map _).nodup hinv.idsNodup⟩
    intro hx
    obtain ⟨p, ⟨-, hp⟩, heq⟩ := hx
    simp [heq] at hp
  · intro p hp
    simp only [Hub.subscribe, List.mem_cons] at hp ⊢
    rcases hp with rfl | hp
    · exact ⟨Nat.lt_succ_self _, hid⟩
    · obtain ⟨hlt, howned⟩ := hinv.owned p (List.mem_of_mem_filter hp)
      exact ⟨by omega, howned⟩
  · intro p hp
    simp only [Hub.subscribe, List.mem_cons] at hp ⊢
    rcases hp with rfl | hp
    · simp [Chan.make]
    · have hmem := List.mem_of_mem_filter hp
      rw [Function.update_of_ne (hch p hmem)]
      exact hinv.opened p hmem
  · intro ch hlt
    simp only [Hub.subscribe] at hlt ⊢
    by_cases hnew : ch = h.made
    · subst hnew
      simp [Chan.make]
    · rw [Function.update_of_ne hnew]
      exact hinv.caps ch (by omega)
  · intro ch
    simp only [Hub.subscribe]
    by_cases hnew : ch = h.made
    · subst hnew
      simp [Chan.make]
    · rw [Function.update_of_ne hnew]
      exact hinv.bounded ch
  · intro ch hle
    simp only [Hub.subscribe] at hle ⊢
    rw [Function.update_of_ne (by omega)]
    exact hinv.fresh ch (by omega)

theorem Inv.offeredOn {h : Hub F} (hinv : h.Inv) {chs : List Nat} {f : F}
    (hmade : ∀ ch ∈ chs, ch < h.made) : (h.offeredOn chs f).Inv := by
  constructor
  · exact hinv.nextId
  · exact hinv.idsNodup
  · exact hinv.owned
  · intro p hp
    simp only [Hub.offeredOn]
    split
    · rw [Chan.offered_closed]
      exact hinv.opened p hp
    · exact hinv.opened p hp
  · intro ch hlt
    simp only [Hub.offeredOn]
    split
    · rw [Chan.offered_cap]
      exact hinv.caps ch hlt
    · exact hinv.caps ch hlt
  · intro ch
    simp only [Hub.offeredOn]
    split
    · rename_i hmem
      have hcap := hinv.caps ch (hmade ch hmem)
      have hbound := hinv.bounded ch
      rw [Chan.offered_queue]
      split
      · rename_i hroom
        rw [Chan.HasRoom, hcap] at hroom
        rw [List.length_append]
        exact hroom
      · simpa using hbound
    · exact hinv.bounded ch
  · intro ch hle
    simp only [Hub.offeredOn]
    split
    · rename_i hmem
      have := hmade ch hmem
      have hle' : h.made ≤ ch := hle
      omega
    · exact hinv.fresh ch hle

theorem Inv.setChan {h : Hub F} (hinv : h.Inv) {ch : Nat} {c : Chan F} (hmade : ch < h.made)
    (hcap : c.cap = (h.chans ch).cap) (hqueue : c.queue.length ≤ (h.chans ch).queue.length)
    (hclosed : c.closed = (h.chans ch).closed) : (h.setChan ch c).Inv := by
  have hother : ∀ ch', ch' ≠ ch → (h.setChan ch c).chans ch' = h.chans ch' :=
    fun ch' hne => Function.update_of_ne hne ..
  have hself : (h.setChan ch c).chans ch = c := Function.update_self ..
  constructor
  · exact hinv.nextId
  · exact hinv.idsNodup
  · exact hinv.owned
  · intro p hp
    by_cases heq : p.2 = ch
    · rw [heq, hself, hclosed, ← heq]
      exact hinv.opened p hp
    · rw [hother _ heq]
      exact hinv.opened p hp
  · intro ch' hlt
    by_cases heq : ch' = ch
    · rw [heq, hself, hcap]
      exact hinv.caps ch hmade
    · rw [hother _ heq]
      exact hinv.caps ch' hlt
  · intro ch'
    by_cases heq : ch' = ch
    · rw [heq, hself]
      exact Nat.le_trans hqueue (hinv.bounded ch)
    · rw [hother _ heq]
      exact hinv.bounded ch'
  · intro ch' hle
    have hle' : h.made ≤ ch' := hle
    rw [hother _ (by omega)]
    exact hinv.fresh ch' hle

/-- Taking an id off the map, its channel closed. -/
theorem Inv.removed {h : Hub F} (hinv : h.Inv) {id : UInt64} {ch : Nat}
    (hm : (id, ch) ∈ h.subscribers) :
    ({ h.setChan ch { h.chans ch with closed := true } with
      subscribers := h.subscribers.filter (·.1 ≠ id) } : Hub F).Inv := by
  have hother : ∀ ch', ch' ≠ ch →
      (h.setChan ch { h.chans ch with closed := true }).chans ch' = h.chans ch' :=
    fun ch' hne => Function.update_of_ne hne ..
  have hself : (h.setChan ch { h.chans ch with closed := true }).chans ch =
      { h.chans ch with closed := true } := Function.update_self ..
  constructor
  · exact hinv.nextId
  · exact ((List.filter_sublist).map _).nodup hinv.idsNodup
  · exact fun p hp => hinv.owned p (List.mem_of_mem_filter hp)
  · intro p hp
    obtain ⟨hp, hid⟩ := List.mem_filter.mp hp
    have hne : p.2 ≠ ch := by
      intro heq
      have hch := List.inj_on_of_nodup_map hinv.chansNodup hp hm heq
      simp [hch] at hid
    show ((h.setChan ch { h.chans ch with closed := true }).chans p.2).closed = false
    rw [hother _ hne]
    exact hinv.opened p hp
  · intro ch' hlt
    show ((h.setChan ch { h.chans ch with closed := true }).chans ch').cap = _
    by_cases heq : ch' = ch
    · rw [heq, hself]
      exact hinv.caps ch (hinv.owned _ hm).1
    · rw [hother _ heq]
      exact hinv.caps ch' hlt
  · intro ch'
    show ((h.setChan ch { h.chans ch with closed := true }).chans ch').queue.length ≤ _
    by_cases heq : ch' = ch
    · rw [heq, hself]
      exact hinv.bounded ch
    · rw [hother _ heq]
      exact hinv.bounded ch'
  · intro ch' hle
    show ((h.setChan ch { h.chans ch with closed := true }).chans ch').queue = []
    have hlt := (hinv.owned _ hm).1
    have hle' : h.made ≤ ch' := hle
    rw [hother _ (by omega)]
    exact hinv.fresh ch' hle

/-- **One call keeps the invariant.** -/
theorem Inv.step {h h' : Hub F} {call : HubCall F} (hinv : h.Inv) (hs : Step h call h') :
    h'.Inv := by
  cases effect_of_step hinv hs with
  | subscribed => exact hinv.subscribe
  | removed id ch hm => exact hinv.removed hm
  | offered _ chs f _ hchs _ =>
      exact hinv.offeredOn fun ch hch => (hinv.owned _ ((hchs ch).mp hch).1).1
  | idle => exact hinv
  | received ch f c hmade hqueue hcap hclosed =>
      refine hinv.setChan hmade hcap ?_ hclosed
      rw [← hqueue, List.length_append]
      omega

theorem queueDepth_step {h h' : Hub F} {call : HubCall F} (hinv : h.Inv)
    (hs : Step h call h') : h'.queueDepth = h.queueDepth := by
  cases effect_of_step hinv hs with
  | subscribed | removed | offered | idle | received => rfl

theorem made_mono {h h' : Hub F} {call : HubCall F} (hinv : h.Inv) (hs : Step h call h') :
    h.made ≤ h'.made := by
  cases effect_of_step hinv hs with
  | subscribed => exact Nat.le_succ _
  | removed | offered | idle | received => exact Nat.le_refl _

/-! ## No panic -/

/-- Between calls no method can panic. -/
theorem no_panic {h : Hub F} (hinv : h.Inv) :
    (∀ id, (h.unsubscribe id).isOk) ∧
      (∀ order, order.Perm h.subscribers → ∀ sender f, (h.publish order sender f).isOk) ∧
      (∀ order, order.Perm h.subscribers → ∀ f, (h.publishAll order f).isOk) ∧
      ∀ id f, (h.sendTo id f).isOk := by
  have hpublish : ∀ order, order.Perm h.subscribers → ∀ sender f,
      (h.publish order sender f).isOk := by
    intro order hperm sender f
    obtain ⟨_, _, heq, -⟩ := publish_eq hinv hperm sender f
    rw [heq]
    rfl
  refine ⟨?_, hpublish, fun order hperm f => hpublish order hperm 0 f, ?_⟩
  · intro id
    rcases unsubscribe_eq hinv id with ⟨-, heq⟩ | ⟨_, -, heq⟩
    · rw [heq]
      rfl
    · rw [heq]
      rfl
  · intro id f
    rcases sendTo_eq hinv id f with ⟨-, heq⟩ | ⟨_, _, -, heq⟩
    · rw [heq]
      rfl
    · rw [heq]
      rfl

/-- A `Publish` counts every subscriber but its sender once. -/
theorem counts_of_step {h h' : Hub F} {call : HubCall F} (hinv : h.Inv) (hs : Step h call h')
    {sender : UInt64} {f : F} {delivered dropped : Nat}
    (hcall : call = .publish sender f delivered dropped ∨
      (sender = 0 ∧ call = .publishAll f delivered dropped)) :
    delivered + dropped = (h.subscribers.filter (·.1 ≠ sender)).length := by
  have hcount : ∃ order, order.Perm h.subscribers ∧
      h.publish order sender f = .ok (h', delivered, dropped) := by
    rcases hcall with rfl | ⟨rfl, rfl⟩
    · exact hs
    · exact hs
  obtain ⟨order, hperm, hpub⟩ := hcount
  obtain ⟨_, _, heq, hsum⟩ := publish_eq hinv hperm sender f
  cases hpub.symm.trans heq
  exact hsum

end Hub

end CardTable.Go
