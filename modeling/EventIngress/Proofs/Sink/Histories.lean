import EventIngress.Proofs.Sink.OpenHandles

/-!
# Sends after any history

A sink that was built over a routing table in memory and a channel is used for a while: routes are
set, removed and replaced, events are sent, handles are pruned and closed, and messages are
received. Whatever the cache has been through, a send then goes by the route that the broker has at
last.

Results:

* `Deed`, `Bench.performAll`: histories.
* `routeAfter`: the route of a broker after a history, decided by the last change of it.
* `Bench.InOrder`, `Bench.InOrder.performAll`: what every history keeps.
* `Bench.send_goes_by_route`: what a send after a history does.
-/

namespace EventIngress

/-! ## Histories -/

/-- What is done to a sink and to its surroundings. -/
inductive Deed where
  | upsert (b : BrokerIdentity) (r : BrokerRoute)
  | remove (b : BrokerIdentity)
  | replace (routes : List (BrokerIdentity × BrokerRoute))
  | send (b : BrokerIdentity) (e : Event) (ctx : SendContext)
  | prune
  | shutdown
  /-- The oldest message is taken out of the channel. -/
  | receive

/-- The route of a broker after a deed. -/
def Deed.routeAfter (b : BrokerIdentity) (route : Option BrokerRoute) : Deed → Option BrokerRoute
  | upsert b' r => if b = b' then some r else route
  | remove b' => if b = b' then none else route
  | replace routes => (routes.reverse.find? fun e => e.1 = b).map (·.2)
  | _ => route

/-- The route of a broker after a history: the last deed that changes it decides. -/
def routeAfter (b : BrokerIdentity) (route : Option BrokerRoute) (deeds : List Deed) :
    Option BrokerRoute :=
  deeds.foldl (Deed.routeAfter b) route

namespace Bench

/-- Changes the routing table. -/
def setTable (t : Bench) (table : MemoryTable) : Bench :=
  { t with world := { t.world with table := table } }

/-- Does a deed. -/
def perform (t : Bench) : Deed → Bench
  | .upsert b r => t.setTable (MemoryTable.upsert t.world.table b r).2
  | .remove b => t.setTable (MemoryTable.remove t.world.table b).2
  | .replace routes => t.setTable (MemoryTable.replace routes)
  | .send b e ctx => (t.send b e ctx).2
  | .prune => t.prune.2
  | .shutdown => t.closeAll.2
  | .receive => t.receive.2

/-- Does one deed after another. -/
def performAll (t : Bench) (deeds : List Deed) : Bench :=
  deeds.foldl perform t

/-- There is room for a message in the channel. -/
def HasRoom (t : Bench) : Prop :=
  ∃ c, t.world.transport = .channel c ∧ c.queue.length < c.capacity

/-- Whenever an event is sent in a history, there is room for its message. -/
def HasRoomFor (t : Bench) : List Deed → Prop
  | [] => True
  | .send b e ctx :: deeds => t.HasRoom ∧ (t.perform (.send b e ctx)).HasRoomFor deeds
  | d :: deeds => (t.perform d).HasRoomFor deeds

/-- A sink with the binary encoding and an empty cache, over a routing table in memory and a channel
that is received from and that nobody waits for. -/
structure Built (t : Bench) : Prop where
  encoder : t.sink.encoder = Encoding.encode
  empty : t.cache = {}
  script : t.world.script = []
  trouble : t.world.trouble = none
  channel : ∃ c, t.world.transport = .channel c ∧ c.receiving = true ∧ c.waiting = []

/-- Nothing was queued, opened or closed, and the cache is as it was. -/
def Untouched (t t' : Bench) : Prop :=
  t'.world.transport = t.world.transport ∧ t'.world.handles = t.world.handles ∧
    t'.world.opens = t.world.opens ∧ t'.cache = t.cache

/-! ## What every history keeps -/

/-- The sink has the binary encoding, and its cache is in order. -/
structure InOrder (t : Bench) : Prop where
  encoder : t.sink.encoder = Encoding.encode
  tidy : Tidy t.cache t.world

theorem Built.inOrder {t : Bench} (ht : t.Built) : t.InOrder := by
  refine ⟨ht.encoder, ?_⟩
  rw [ht.empty]
  exact ⟨rfl, ht.script, ht.trouble, ht.channel, by rintro b e ⟨⟩, by rintro b b' e e' ⟨⟩⟩

variable {t : Bench} {b : BrokerIdentity} {tp : TopicId}

theorem run_apply {α : Type} (t : Bench) (use : CacheUse Nat World α) :
    t.run use =
      ((use (t.cache, t.world)).1,
        { t with
          cache := (use (t.cache, t.world)).2.1
          world := (use (t.cache, t.world)).2.2 }) :=
  rfl

theorem InOrder.setTable (ht : t.InOrder) (table : MemoryTable) : (t.setTable table).InOrder :=
  ⟨ht.encoder, ht.tidy.unpoisoned, ht.tidy.script, ht.tidy.trouble, ht.tidy.channel,
    ht.tidy.openAt, ht.tidy.own⟩

theorem InOrder.prune (ht : t.InOrder) :
    t.prune.2.InOrder ∧ t.prune.2.world.table = t.world.table := by
  obtain ⟨n, c, w, heq, htidy, hkept⟩ := ht.tidy.pruneAbsent
  rw [Bench.prune, run_apply, heq]
  exact ⟨⟨ht.encoder, htidy⟩, hkept.1⟩

theorem InOrder.closeAll (ht : t.InOrder) :
    t.closeAll.2.InOrder ∧ t.closeAll.2.world.table = t.world.table := by
  obtain ⟨n, c, w, heq, htidy, hkept⟩ := ht.tidy.closeAll
  rw [Bench.closeAll, run_apply, heq]
  exact ⟨⟨ht.encoder, htidy⟩, hkept.1⟩

theorem InOrder.receive (ht : t.InOrder) :
    t.receive.2.InOrder ∧ t.receive.2.world.table = t.world.table := by
  obtain ⟨c, htransport, hreceiving, hwaiting⟩ := ht.tidy.channel
  obtain ⟨d, c', hreceive, hreceiving', hwaiting'⟩ := Channel.receive_of_idle hwaiting
  rw [Bench.receive, htransport]
  dsimp only
  rw [hreceive]
  exact ⟨⟨ht.encoder, ht.tidy.setChannel c' (hreceiving'.trans hreceiving) hwaiting'⟩, rfl⟩

/-! ## Sending -/

variable (e : Event) (ctx : SendContext)

/-- A send to a broker whose route leads to no topic fails as the route says, and nothing else
happens. -/
theorem InOrder.send_error (ht : t.InOrder) {f : Failure}
    (hroute : topicOf b (t.world.table.find? b) = .error f) :
    ∃ w, t.send b e ctx = (some (.ended (.error f)), { t with world := w }) ∧
      World.Unnoticed t.world w := by
  obtain ⟨w, hget, hw⟩ := ht.tidy.getOrCreate_error hroute
  have hprepare : t.sink.prepare World.collaborators b e ctx (t.cache, t.world) =
      (.error (.failure f), (t.cache, w)) := by
    rw [Sink.prepare, CacheUse.bind_apply, hget]
  refine ⟨w, ?_, hw⟩
  rw [send, start, run_apply, hprepare]

/-- A send of an event that has no message fails after the handle was got. -/
theorem InOrder.send_unencodable (ht : t.InOrder)
    (hroute : topicOf b (t.world.table.find? b) = .ok tp) {fault : EncodeFault}
    (hencode : Encoding.encode e ctx.trace = .error fault) :
    (t.send b e ctx).2.InOrder ∧ (t.send b e ctx).2.world.table = t.world.table := by
  obtain ⟨h, c, w, hget, htidy, hkept, -⟩ := ht.tidy.getOrCreate_ok hroute
  have hprepare : t.sink.prepare World.collaborators b e ctx (t.cache, t.world) =
      (.error (.failure (.encode fault)), (c, w)) := by
    rw [Sink.prepare, CacheUse.bind_apply, hget, ht.encoder]
    dsimp only
    rw [hencode]
    rfl
  rw [send, start, run_apply, hprepare]
  exact ⟨⟨ht.encoder, htidy⟩, hkept.1⟩

/-- A send of an event with a message puts it into the channel, if there is room. -/
theorem InOrder.send_ok (ht : t.InOrder) (hroute : topicOf b (t.world.table.find? b) = .ok tp)
    {m : Message} (hencode : Encoding.encode e ctx.trace = .ok m) {ch : Channel}
    (htransport : t.world.transport = .channel ch) (hroom : ch.queue.length < ch.capacity) :
    (t.send b e ctx).1 = some (.ended (.ok ⟨ch.issuer.next.1, tp⟩)) ∧
      (t.send b e ctx).2.world.transport = .channel { ch with
        issuer := ch.issuer.next.2
        queue := ch.queue ++ [⟨m, tp, ch.issuer.next.1⟩] } ∧
      (t.send b e ctx).2.InOrder ∧ (t.send b e ctx).2.world.table = t.world.table := by
  obtain ⟨h, c, w, hget, htidy, hkept, hfind⟩ := ht.tidy.getOrCreate_ok hroute
  have hprepare : t.sink.prepare World.collaborators b e ctx (t.cache, t.world) =
      (.ok (h, m), (c, w)) := by
    rw [Sink.prepare, CacheUse.bind_apply, hget, ht.encoder]
    dsimp only
    rw [hencode]
    rfl
  have htransport' : w.transport = .channel ch := hkept.2.trans htransport
  obtain ⟨w', hpublish, htidy', htable, hqueue⟩ :=
    htidy.startPublish hfind htransport' hroom t.tickets m
  rw [send, start, run_apply, hprepare]
  simp only [hpublish]
  exact ⟨rfl, hqueue, ⟨ht.encoder, htidy'⟩, htable.trans hkept.1⟩

/-- A send keeps the order, if there is room for a message. -/
theorem InOrder.send (ht : t.InOrder) (hroom : t.HasRoom) :
    (t.send b e ctx).2.InOrder ∧ (t.send b e ctx).2.world.table = t.world.table := by
  obtain ⟨ch, htransport, hroom⟩ := hroom
  cases hroute : topicOf b (t.world.table.find? b) with
  | error f =>
    obtain ⟨w, hsend, hw⟩ := ht.send_error e ctx hroute
    rw [hsend]
    exact ⟨⟨ht.encoder, ht.tidy.unnoticed hw⟩, hw.kept.1⟩
  | ok tp =>
    cases hencode : Encoding.encode e ctx.trace with
    | error fault => exact ht.send_unencodable e ctx hroute hencode
    | ok m => exact (ht.send_ok e ctx hroute hencode htransport hroom).2.2

/-! ## Histories of deeds -/

/-- One deed: the order is kept, and the route of each broker is what the deed makes of it. -/
theorem InOrder.perform (ht : t.InOrder) (d : Deed)
    (hroom : ∀ b e ctx, d = .send b e ctx → t.HasRoom) :
    (t.perform d).InOrder ∧ ∀ b, (t.perform d).world.table.find? b =
      d.routeAfter b (t.world.table.find? b) := by
  cases d with
  | upsert b' r =>
    exact ⟨ht.setTable _, fun b => SortedMap.find?_insert t.world.table b' b r⟩
  | remove b' => exact ⟨ht.setTable _, fun b => SortedMap.find?_erase t.world.table b' b⟩
  | replace routes => exact ⟨ht.setTable _, fun b => SortedMap.find?_ofList routes b⟩
  | send b' e ctx =>
    obtain ⟨horder, htable⟩ := ht.send (b := b') e ctx (hroom b' e ctx rfl)
    exact ⟨horder, fun b => congrArg (SortedMap.find? · b) htable⟩
  | prune => exact ⟨ht.prune.1, fun b => congrArg (SortedMap.find? · b) ht.prune.2⟩
  | shutdown => exact ⟨ht.closeAll.1, fun b => congrArg (SortedMap.find? · b) ht.closeAll.2⟩
  | receive => exact ⟨ht.receive.1, fun b => congrArg (SortedMap.find? · b) ht.receive.2⟩

theorem hasRoomFor_cons {d : Deed} {deeds : List Deed} (h : t.HasRoomFor (d :: deeds)) :
    (∀ b e ctx, d = .send b e ctx → t.HasRoom) ∧ (t.perform d).HasRoomFor deeds := by
  cases d with
  | send b' e' ctx' => exact ⟨fun _ _ _ _ => h.1, h.2⟩
  | _ => exact ⟨by rintro _ _ _ ⟨⟩, h⟩

/-- All along a history the cache stays in order, and the routing table has the routes that the last
changes have left. -/
theorem InOrder.performAll (ht : t.InOrder) (deeds : List Deed) (hroom : t.HasRoomFor deeds) :
    (t.performAll deeds).InOrder ∧ ∀ b, (t.performAll deeds).world.table.find? b =
      routeAfter b (t.world.table.find? b) deeds := by
  induction deeds generalizing t with
  | nil => exact ⟨ht, fun b => rfl⟩
  | cons d deeds ih =>
    obtain ⟨hnow, hlater⟩ := hasRoomFor_cons hroom
    obtain ⟨horder, hroute⟩ := ht.perform d hnow
    obtain ⟨horder', hroute'⟩ := ih horder hlater
    refine ⟨horder', fun b => ?_⟩
    show ((t.perform d).performAll deeds).world.table.find? b = _
    rw [hroute', hroute]
    rfl

theorem hasRoomFor_send {e : Event} {ctx : SendContext} {deeds : List Deed}
    (h : t.HasRoomFor (deeds ++ [.send b e ctx])) :
    t.HasRoomFor deeds ∧ (t.performAll deeds).HasRoom := by
  induction deeds generalizing t with
  | nil => exact ⟨trivial, h.1⟩
  | cons d deeds ih =>
    obtain ⟨hnow, hlater⟩ := hasRoomFor_cons h
    obtain ⟨hroom, hlast⟩ := ih hlater
    refine ⟨?_, hlast⟩
    cases d with
    | send b' e' ctx' => exact ⟨hnow b' e' ctx' rfl, hroom⟩
    | _ => exact hroom

/-- A failed look at the route leaves everything as it was. -/
theorem InOrder.untouched_of_error (ht : t.InOrder) {f : Failure}
    (hroute : topicOf b (t.world.table.find? b) = .error f) :
    (t.send b e ctx).1 = some (.ended (.error f)) ∧ t.Untouched (t.send b e ctx).2 := by
  obtain ⟨w, hsend, hw⟩ := ht.send_error e ctx hroute
  rw [hsend]
  unfold World.Unnoticed at hw
  refine ⟨rfl, ?_⟩
  show _ ∧ _ ∧ _ ∧ _
  rw [hw]
  exact ⟨rfl, rfl, rfl, rfl⟩

/-- After any history, as long as there is room in the channel, a send of an event that obeys the
rules goes by the route that the broker has at last. If the route is ready and names a topic, one
message is added to the channel, for that topic and with the encoding of the event, and the send
yields its id and the topic. Otherwise the send fails as the route says, and nothing is queued,
opened or closed. -/
theorem send_goes_by_route (t₀ : Bench) (hbuilt : t₀.Built) (deeds : List Deed)
    (b : BrokerIdentity) (e : Event) (ctx : SendContext) (he : e.fault? = none)
    (hroom : t₀.HasRoomFor (deeds ++ [.send b e ctx])) :
    (∀ topic tp, routeAfter b (t₀.world.table.find? b) deeds = some ⟨.ready, topic⟩ →
        TopicId.parse topic = .ok tp →
          ∃ c m, (t₀.performAll deeds).world.transport = .channel c ∧
            Encoding.encode e ctx.trace = .ok m ∧
            ((t₀.performAll deeds).send b e ctx).1 =
              some (.ended (.ok ⟨c.issuer.next.1, tp⟩)) ∧
            ((t₀.performAll deeds).send b e ctx).2.world.transport = .channel { c with
              issuer := c.issuer.next.2
              queue := c.queue ++ [⟨m, tp, c.issuer.next.1⟩] }) ∧
      (routeAfter b (t₀.world.table.find? b) deeds = none →
        ((t₀.performAll deeds).send b e ctx).1 = some (.ended (.error (.notFound b))) ∧
          (t₀.performAll deeds).Untouched ((t₀.performAll deeds).send b e ctx).2) ∧
      (∀ topic, routeAfter b (t₀.world.table.find? b) deeds = some ⟨.unready, topic⟩ →
        ((t₀.performAll deeds).send b e ctx).1 = some (.ended (.error (.notReady b))) ∧
          (t₀.performAll deeds).Untouched ((t₀.performAll deeds).send b e ctx).2) ∧
      ∀ topic fault, routeAfter b (t₀.world.table.find? b) deeds = some ⟨.ready, topic⟩ →
        TopicId.parse topic = .error fault →
          ((t₀.performAll deeds).send b e ctx).1 =
              some (.ended (.error (.incomplete b fault.message))) ∧
            (t₀.performAll deeds).Untouched ((t₀.performAll deeds).send b e ctx).2 := by
  obtain ⟨hroom, ch, htransport, hspace⟩ := hasRoomFor_send hroom
  obtain ⟨horder, hroutes⟩ := hbuilt.inOrder.performAll deeds hroom
  rw [← hroutes b]
  refine ⟨?_, ?_, ?_, ?_⟩
  · intro topic tp hroute hparse
    have htopic : topicOf b ((t₀.performAll deeds).world.table.find? b) = .ok tp := by
      rw [hroute, topicOf, hparse]
    have hencode : Encoding.encode e ctx.trace =
        .ok ⟨Encoding.attributes e ctx.trace, Encoding.bodyBytes e.data⟩ := by
      rw [Encoding.encode, he]
    obtain ⟨hresult, hqueue, -, -⟩ := horder.send_ok e ctx htopic hencode htransport hspace
    exact ⟨ch, _, htransport, hencode, hresult, hqueue⟩
  · intro hroute
    exact horder.untouched_of_error e ctx (by rw [hroute, topicOf])
  · intro topic hroute
    exact horder.untouched_of_error e ctx (by rw [hroute, topicOf])
  · intro topic fault hroute hparse
    exact horder.untouched_of_error e ctx (by rw [hroute, topicOf, hparse])

/-- A sink over an empty routing table and a channel with room for three messages. -/
def small : Bench :=
  { world := { transport := .channel { capacity := 3, issuer := { tag := "message" } } } }

/-- An event without a body. -/
def created : Event :=
  { id := "1", source := "shop", eventType := "created" }

/-- The topic changes after a send, and then all handles are closed. -/
def rotatedAndClosed : List Deed :=
  [.replace [(⟨"team", "orders"⟩, ⟨.ready, "first"⟩), (⟨"team", "orders"⟩, ⟨.ready, "second"⟩)],
    .send ⟨"team", "orders"⟩ created {}, .upsert ⟨"team", "orders"⟩ ⟨.ready, "third"⟩,
    .send ⟨"team", "orders"⟩ created {}, .prune, .shutdown]

/-- The topic that is named last. -/
def thirdTopic : TopicId :=
  .bare "third" (by decide)

theorem send_goes_by_route_rotatedAndClosed :
    (small.Built ∧ created.fault? = none ∧
        small.HasRoomFor (rotatedAndClosed ++ [.send ⟨"team", "orders"⟩ created {}])) ∧
      ∃ (c : Channel) (m : Message), Encoding.encode created none = .ok m ∧
        ((small.performAll rotatedAndClosed).send ⟨"team", "orders"⟩ created {}).1 =
          some (.ended (.ok ⟨c.issuer.next.1, thirdTopic⟩)) ∧
        ((small.performAll rotatedAndClosed).send ⟨"team", "orders"⟩ created {}).2.world.transport =
          .channel { c with
            issuer := c.issuer.next.2
            queue := c.queue ++ [⟨m, thirdTopic, c.issuer.next.1⟩] } := by
  have hbuilt : small.Built := ⟨rfl, rfl, rfl, rfl, _, rfl, rfl, rfl⟩
  have hrules : created.fault? = none := by decide +kernel
  have hroom : small.HasRoomFor (rotatedAndClosed ++ [.send ⟨"team", "orders"⟩ created {}]) :=
    ⟨⟨_, rfl, by decide +kernel⟩, ⟨_, rfl, by decide +kernel⟩, ⟨_, rfl, by decide +kernel⟩, trivial⟩
  have hroute : routeAfter ⟨"team", "orders"⟩ (small.world.table.find? ⟨"team", "orders"⟩)
      rotatedAndClosed = some ⟨.ready, "third"⟩ := by decide +kernel
  have hparse : TopicId.parse "third" = .ok thirdTopic := rfl
  obtain ⟨c, m, -, hencode, hresult, hqueue⟩ :=
    (send_goes_by_route small hbuilt rotatedAndClosed ⟨"team", "orders"⟩ created {} hrules hroom).1
      "third" thirdTopic hroute hparse
  exact ⟨⟨hbuilt, hrules, hroom⟩, c, m, hencode, hresult, hqueue⟩

end Bench

end EventIngress
