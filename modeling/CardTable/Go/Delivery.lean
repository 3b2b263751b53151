import CardTable.Go.Hub

/-!
# Go.Delivery — what a subscriber receives

The hub of `Go.Hub` followed over whole runs. Beside each step stands the
frame it publishes to a subscriber on the map, with the number of frames
its queue held at that moment; what the subscriber has received, and what
is still queued for it, is the list of these frames less the ones that
met a full queue (`account`).
-/

namespace CardTable.Go.Hub

open Basis

variable {F : Type}

/-! ## What a subscriber is owed -/

/-- The frame a step publishes to a subscriber on the map, with the
number of frames its queue held at that moment. -/
def offer (id : UInt64) (ch : Nat) (step : Hub F × HubCall F × Hub F) : List (F × Nat) :=
  if (id, ch) ∈ step.1.subscribers then
    (addressed id step.2.1).toList.map (·, (step.1.chans ch).queue.length)
  else []

/-- Everything published to a subscriber while it was subscribed, in
order. -/
def offers (h : Hub F) (id : UInt64) (ch : Nat) (hist : List (HubCall F × Hub F)) :
    List (F × Nat) :=
  (stepsOf h hist).flatMap (offer id ch)

/-- The frame a call publishes, to whomever. -/
def published : HubCall F → Option F
  | .publish _ f _ _ | .publishAll f _ _ | .sendTo _ f _ => some f
  | _ => none

theorem published_of_addressed {id : UInt64} {call : HubCall F} {f : F}
    (h : addressed id call = some f) : published call = some f := by
  cases call with
  | publish | publishAll =>
      simp only [addressed, Option.ite_none_left_eq_some] at h
      exact h.2
  | sendTo =>
      simp only [addressed, Option.ite_none_right_eq_some] at h
      exact h.2
  | subscribe | unsubscribe | receive => cases h

/-- What is published to one subscriber is part of what is published. -/
theorem offers_sublist (h : Hub F) (id : UInt64) (ch : Nat) (hist : List (HubCall F × Hub F)) :
    ((offers h id ch hist).map Prod.fst).Sublist (hist.filterMap fun step => published step.1) := by
  induction hist generalizing h with
  | nil => exact .slnil
  | cons step rest ih =>
      obtain ⟨call, h'⟩ := step
      have hoffer : ((offer id ch (h, call, h')).map Prod.fst).Sublist
          (published call).toList := by
        simp only [offer]
        split
        · cases haddressed : addressed id call with
          | none => exact List.nil_sublist _
          | some f =>
              rw [published_of_addressed haddressed]
              exact List.Sublist.refl _
        · exact List.nil_sublist _
      rw [filterMap_cons_toList, offers, stepsOf, List.flatMap_cons, List.map_append]
      exact hoffer.append (ih h')

/-- The frames received on `ch`, in order. -/
def received (ch : Nat) (hist : List (HubCall F × Hub F)) : List F :=
  hist.flatMap fun step => got ch step.1

/-- The ids and channels handed out. -/
def subscriptions (hist : List (HubCall F × Hub F)) : List (UInt64 × Nat) :=
  hist.filterMap fun step => match step.1 with
    | .subscribe id ch => some (id, ch)
    | _ => none

/-- The offers that did not meet a full queue. -/
def taken (depth : Nat) (offered : List (F × Nat)) : List F :=
  (offered.filter (·.2 ≠ depth)).map (·.1)

@[simp] theorem taken_nil (depth : Nat) : taken depth ([] : List (F × Nat)) = [] := rfl

theorem taken_append (depth : Nat) (xs ys : List (F × Nat)) :
    taken depth (xs ++ ys) = taken depth xs ++ taken depth ys := by
  simp [taken]

theorem taken_sublist (depth : Nat) (offered : List (F × Nat)) :
    (taken depth offered).Sublist (offered.map Prod.fst) :=
  List.filter_sublist.map _

/-- An attempt to send enters the queue unless it is full. -/
theorem Inv.offered_queue {h : Hub F} (hinv : h.Inv) {ch : Nat} (hmade : ch < h.made) (f : F) :
    ((h.chans ch).offered f).queue =
      (h.chans ch).queue ++ taken h.queueDepth [(f, (h.chans ch).queue.length)] := by
  have hbound := hinv.bounded ch
  have hcap := hinv.caps ch hmade
  rw [Chan.offered_queue]
  by_cases hroom : (h.chans ch).HasRoom
  · have hne : (h.chans ch).queue.length ≠ h.queueDepth := by
      simp only [Chan.HasRoom] at hroom
      omega
    simp [hroom, taken, hne]
  · have heq : (h.chans ch).queue.length = h.queueDepth := by
      simp only [Chan.HasRoom] at hroom
      omega
    simp [hroom, taken, heq]

/-- **One call and one channel**: what is received leaves the front of
the queue, what is published and finds room joins its end. -/
theorem Inv.step_queue {h h' : Hub F} {call : HubCall F} (hinv : h.Inv) (hs : Step h call h')
    (ch : Nat) :
    got ch call ++ (h'.chans ch).queue =
      (h.chans ch).queue ++ taken h.queueDepth (offer (idOf ch) ch (h, call, h')) := by
  cases effect_of_step hinv hs with
  | subscribed =>
      have hoffer : offer (idOf ch) ch (h, .subscribe (h.nextId + 1) h.made, h.subscribe.1) = [] := by
        simp [offer, addressed]
      rw [hoffer, taken_nil, List.append_nil]
      show (h.subscribe.1.chans ch).queue = _
      simp only [Hub.subscribe]
      by_cases hnew : ch = h.made
      · subst hnew
        rw [Function.update_self, hinv.fresh _ (Nat.le_refl _)]
        rfl
      · rw [Function.update_of_ne hnew]
  | removed id c hm =>
      have hoffer : ∀ h', offer (idOf ch) ch (h, .unsubscribe id, h') = [] := by
        simp [offer, addressed]
      rw [hoffer, taken_nil, List.append_nil]
      show (Function.update h.chans c _ ch).queue = _
      by_cases heq : ch = c
      · subst heq
        rw [Function.update_self]
      · rw [Function.update_of_ne heq]
  | offered _ chs f hsends hchs hframe =>
      rw [got_of_sends hsends, List.nil_append]
      simp only [Hub.offeredOn, offer]
      by_cases hmem : ch ∈ chs
      · obtain ⟨hon, hto⟩ := (hchs ch).mp hmem
        rw [if_pos hmem, if_pos hon, hto, hinv.offered_queue (hinv.owned _ hon).1]
        rfl
      · rw [if_neg hmem]
        split
        · rename_i hon
          cases hto : addressed (idOf ch) call with
          | none => simp
          | some g =>
              obtain rfl := hframe _ _ hto
              exact absurd ((hchs ch).mpr ⟨hon, hto⟩) hmem
        · simp
  | idle =>
      simp [offer, addressed, got]
  | received c f c' hmade hqueue hcap hclosed =>
      have hoffer : ∀ h', offer (idOf ch) ch (h, .receive c f, h') = [] := by
        simp [offer, addressed]
      rw [hoffer, taken_nil, List.append_nil]
      show got ch (.receive c f) ++ (Function.update h.chans c c' ch).queue = _
      by_cases heq : c = ch
      · subst heq
        rw [got, if_pos rfl, Function.update_self]
        exact hqueue
      · rw [got, if_neg heq, Function.update_of_ne (fun h => heq h.symm), List.nil_append]

/-! ## Whole runs -/

theorem inv_of_run {queueDepth : Int} {hist : List (HubCall F × Hub F)} {h : Hub F}
    (hrun : Run F queueDepth hist h) : h.Inv :=
  hrun.invariant (inv_new F queueDepth) Inv.step

theorem queueDepth_of_run {queueDepth : Int} {hist : List (HubCall F × Hub F)} {h : Hub F}
    (hrun : Run F queueDepth hist h) : h.queueDepth = (new F queueDepth).queueDepth := by
  induction hrun with
  | start => rfl
  | snoc hp hs ih => exact (queueDepth_step (inv_of_run hp) hs).trans ih

/-- **The account of a channel**: what was received and what is still in
the queue are the frames published to the subscriber that found room, in
order. -/
theorem account {queueDepth : Int} {hist : List (HubCall F × Hub F)} {h : Hub F}
    (hrun : Run F queueDepth hist h) (ch : Nat) :
    received ch hist ++ (h.chans ch).queue =
      taken h.queueDepth (offers (new F queueDepth) (idOf ch) ch hist) := by
  induction hrun with
  | start => simp [received, offers, stepsOf, new, Chan.make]
  | @snoc hist h h' call hp hs ih =>
      have hstep := (inv_of_run hp).step_queue hs ch
      rw [queueDepth_step (inv_of_run hp) hs, offers, hp.stepsOf_snoc, List.flatMap_append,
        taken_append, List.flatMap_singleton, ← offers, ← ih, List.append_assoc, ← hstep]
      simp [received]

/-- What is received on a channel was published, in that order. -/
theorem received_sublist {queueDepth : Int} {hist : List (HubCall F × Hub F)} {h : Hub F}
    (hrun : Run F queueDepth hist h) (ch : Nat) :
    (received ch hist).Sublist (hist.filterMap fun step => published step.1) := by
  have hreceived : (received ch hist).Sublist
      (taken h.queueDepth (offers (new F queueDepth) (idOf ch) ch hist)) := by
    rw [← account hrun ch]
    exact (List.prefix_append _ _).sublist
  exact hreceived.trans ((taken_sublist _ _).trans (offers_sublist _ _ _ _))

/-- Ids and channels are handed out in order. -/
theorem subscriptions_eq {queueDepth : Int} {hist : List (HubCall F × Hub F)} {h : Hub F}
    (hrun : Run F queueDepth hist h) :
    subscriptions hist = (List.range h.made).map fun ch => (idOf ch, ch) := by
  induction hrun with
  | start => rfl
  | @snoc hist h h' call hp hs ih =>
      rw [subscriptions, filterMap_snoc, ← subscriptions, ih]
      cases effect_of_step (inv_of_run hp) hs with
      | subscribed =>
          have hid : h.nextId + 1 = idOf h.made := by
            rw [(inv_of_run hp).nextId, idOf, UInt64.ofNat_add]
            rfl
          show _ = (List.range (h.made + 1)).map _
          rw [List.range_succ, List.map_append, hid]
          rfl
      | removed | idle | received => exact List.append_nil _
      | offered _ chs f hsends =>
          cases call with
          | publish | publishAll | sendTo => exact List.append_nil _
          | subscribe | unsubscribe | receive => cases hsends

theorem idOf_inj {a b : Nat} (ha : a + 1 < UInt64.size) (hb : b + 1 < UInt64.size)
    (h : idOf a = idOf b) : a = b := by
  have hnat := congrArg UInt64.toNat h
  simp only [idOf, UInt64.toNat_ofNat', UInt64.size] at hnat ha hb
  omega

theorem idOf_ne_zero {ch : Nat} (h : ch + 1 < UInt64.size) : idOf ch ≠ 0 := by
  intro hzero
  have hnat := congrArg UInt64.toNat hzero
  simp only [idOf, UInt64.toNat_ofNat', UInt64.toNat_zero, UInt64.size] at hnat h
  omega

/-- `p` was handed out and not given back since. -/
def Live (p : UInt64 × Nat) (calls : List (HubCall F)) : Prop :=
  ∃ pre post, calls = pre ++ .subscribe p.1 p.2 :: post ∧ .unsubscribe p.1 ∉ post

theorem live_snoc {p : UInt64 × Nat} {calls : List (HubCall F)} {call : HubCall F} :
    Live p (calls ++ [call]) ↔
      call = .subscribe p.1 p.2 ∨ (Live p calls ∧ call ≠ .unsubscribe p.1) := by
  constructor
  · intro h
    obtain ⟨pre, post, heq, hpost⟩ := h
    rcases List.eq_nil_or_concat post with rfl | ⟨front, last, rfl⟩
    · exact .inl (List.singleton_inj.mp (List.append_inj' heq rfl).2)
    · rw [List.concat_eq_append, List.mem_append, not_or, List.mem_singleton] at hpost
      rw [List.concat_eq_append, ← List.cons_append, ← List.append_assoc] at heq
      obtain ⟨hcalls, hlast⟩ := List.append_inj' heq rfl
      obtain rfl := List.singleton_inj.mp hlast
      exact .inr ⟨⟨pre, front, hcalls, hpost.1⟩, fun h => hpost.2 h.symm⟩
  · intro h
    rcases h with rfl | ⟨⟨pre, post, rfl, hpost⟩, hcall⟩
    · exact ⟨calls, [], rfl, by simp⟩
    · refine ⟨pre, post ++ [call], by simp, ?_⟩
      rw [List.mem_append, not_or, List.mem_singleton]
      exact ⟨hpost, fun h => hcall h.symm⟩

/-- While ids do not wrap, the map holds who is subscribed. -/
theorem mem_subscribers_iff {queueDepth : Int} {hist : List (HubCall F × Hub F)} {h : Hub F}
    (hrun : Run F queueDepth hist h) (hfew : h.made < UInt64.size) (p : UInt64 × Nat) :
    p ∈ h.subscribers ↔ Live p (hist.map Prod.fst) := by
  induction hrun with
  | start => simp [new, Live]
  | @snoc hist h h' call hp hs ih =>
      have hinv := inv_of_run hp
      have ih := ih (Nat.lt_of_le_of_lt (made_mono hinv hs) hfew)
      rw [List.map_append, List.map_singleton, live_snoc, ← ih]
      cases effect_of_step hinv hs with
      | subscribed =>
          have hid : h.nextId + 1 = idOf h.made := by
            rw [hinv.nextId, idOf, UInt64.ofNat_add]
            rfl
          -- a new id is not on the map yet
          have hnew : ∀ q ∈ h.subscribers, q.1 ≠ h.nextId + 1 := by
            intro q hq heq
            obtain ⟨hlt, howned⟩ := hinv.owned q hq
            rw [howned, hid] at heq
            have hmade : h.made + 1 < UInt64.size := hfew
            have := idOf_inj (by omega) hmade heq
            omega
          simp only [Hub.subscribe, List.mem_cons, List.mem_filter, HubCall.subscribe.injEq]
          constructor
          · intro hx
            rcases hx with rfl | ⟨hq, -⟩
            · exact .inl ⟨rfl, rfl⟩
            · exact .inr ⟨hq, by simp⟩
          · intro hx
            rcases hx with ⟨h1, h2⟩ | ⟨hq, -⟩
            · exact .inl (Prod.ext h1.symm h2.symm)
            · exact .inr ⟨hq, by simpa using hnew p hq⟩
      | removed id ch hm =>
          simp only [List.mem_filter, decide_eq_true_eq, reduceCtorEq, false_or, ne_eq,
            HubCall.unsubscribe.injEq]
          exact and_congr_right fun _ => not_congr eq_comm
      | idle id hnone =>
          simp only [reduceCtorEq, false_or, ne_eq, HubCall.unsubscribe.injEq, iff_self_and]
          intro hq heq
          exact hnone p.2 (heq ▸ hq)
      | received => simp [Hub.setChan]
      | offered _ chs f hsends =>
          cases call with
          | publish | publishAll | sendTo => simp [Hub.offeredOn]
          | subscribe | unsubscribe | receive => cases hsends

/-! ## Delivery -/

/-- What a run of the hub guarantees. -/
structure Delivered (queueDepth : Int) (hist : List (HubCall F × Hub F)) (h : Hub F) : Prop where
  /-- no id is handed out twice -/
  idsNodup : ((subscriptions hist).map Prod.fst).Nodup
  /-- no id is 0, the sender of `PublishAll` -/
  idsPositive : ∀ p ∈ subscriptions hist, p.1 ≠ 0
  /-- the map holds who is subscribed -/
  live : ∀ p, p ∈ h.subscribers ↔ Live p (hist.map Prod.fst)
  /-- received and still queued: what was published to the subscriber
  while it was subscribed, less the frames that met a full queue -/
  account : ∀ p ∈ subscriptions hist, received p.2 hist ++ (h.chans p.2).queue =
    ((offers (new F queueDepth) p.1 p.2 hist).filter
      (·.2 ≠ (new F queueDepth).queueDepth)).map Prod.fst
  inOrder : ∀ p ∈ subscriptions hist,
    (received p.2 hist).Sublist ((offers (new F queueDepth) p.1 p.2 hist).map Prod.fst)
  /-- delivered and dropped add up to the subscribers but the sender -/
  counts : ∀ step ∈ stepsOf (new F queueDepth) hist, ∀ sender f delivered dropped,
    (step.2.1 = .publish sender f delivered dropped ∨
      (sender = 0 ∧ step.2.1 = .publishAll f delivered dropped)) →
    delivered + dropped = (step.1.subscribers.filter (·.1 ≠ sender)).length
  /-- the next call does not panic -/
  unsubscribeReturns : ∀ id, (h.unsubscribe id).isOk
  publishReturns : ∀ order, order.Perm h.subscribers → ∀ sender f,
    (h.publish order sender f).isOk
  publishAllReturns : ∀ order, order.Perm h.subscribers → ∀ f, (h.publishAll order f).isOk
  sendToReturns : ∀ id f, (h.sendTo id f).isOk

/-- **Hub delivery.** Every run with fewer than 2^64 subscriptions
delivers. -/
theorem hub_delivery {queueDepth : Int} {hist : List (HubCall F × Hub F)} {h : Hub F}
    (hrun : Run F queueDepth hist h) (hfew : (subscriptions hist).length < UInt64.size) :
    Delivered queueDepth hist h := by
  have hsubs := subscriptions_eq hrun
  have hmade : h.made < UInt64.size := by
    rw [hsubs, List.length_map, List.length_range] at hfew
    exact hfew
  have howner : ∀ p ∈ subscriptions hist, p.2 < h.made ∧ p.1 = idOf p.2 := by
    intro p hp
    rw [hsubs] at hp
    obtain ⟨ch, hch, rfl⟩ := List.mem_map.mp hp
    exact ⟨List.mem_range.mp hch, rfl⟩
  have haccount : ∀ p ∈ subscriptions hist, received p.2 hist ++ (h.chans p.2).queue =
      taken (new F queueDepth).queueDepth (offers (new F queueDepth) p.1 p.2 hist) := by
    intro p hp
    rw [(howner p hp).2, ← queueDepth_of_run hrun]
    exact account hrun p.2
  obtain ⟨hunsubscribe, hpublish, hpublishAll, hsendTo⟩ := no_panic (inv_of_run hrun)
  constructor
  · rw [hsubs, List.map_map]
    refine List.Nodup.map_on ?_ List.nodup_range
    intro a ha b hb heq
    have ha := List.mem_range.mp ha
    have hb := List.mem_range.mp hb
    exact idOf_inj (by omega) (by omega) heq
  · intro p hp
    obtain ⟨hlt, hid⟩ := howner p hp
    rw [hid]
    exact idOf_ne_zero (by omega)
  · exact mem_subscribers_iff hrun hmade
  · exact haccount
  · intro p hp
    -- received is a prefix of what was taken, which is part of what was offered
    refine List.Sublist.trans ?_ (taken_sublist (new F queueDepth).queueDepth _)
    rw [← haccount p hp]
    exact (List.prefix_append _ _).sublist
  · intro step hstep sender f delivered dropped hcall
    obtain ⟨hs, pre, hpre, -⟩ := hrun.of_mem_stepsOf hstep
    exact counts_of_step (inv_of_run hpre) hs hcall
  · exact hunsubscribe
  · exact hpublish
  · exact hpublishAll
  · exact hsendTo

/-- One subscriber with room for one frame: the second frame is dropped,
the first received. -/
theorem hub_delivery_sample :
    ∃ (hist : List (HubCall Nat × Hub Nat)) (h : Hub Nat),
      hist.map Prod.fst =
        [.subscribe 1 0, .publishAll 7 1 0, .publish 2 8 0 1, .receive 0 (some 7)] ∧
      Delivered 1 hist h := by
  have hrun : Run Nat 1 _ _ :=
    .snoc (.snoc (.snoc (.snoc .start
      (show Step _ (.subscribe 1 0) _ from rfl))
      (show Step _ (.publishAll 7 1 0) _ from ⟨_, .refl _, rfl⟩))
      (show Step _ (.publish 2 8 0 1) _ from ⟨_, .refl _, rfl⟩))
      (show Step _ (.receive 0 (some 7)) _ from rfl)
  exact ⟨_, _, rfl, hub_delivery hrun (by decide)⟩

end CardTable.Go.Hub
