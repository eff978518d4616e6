import EventIngress.Command.Send
import EventIngress.Proofs.Sink.Sends

/-!
# The delivery of one event

A command delivers its event through a sink whose cache is empty, and closes all handles afterwards.
With a journal as the outlet the event is written as soon as the route of its broker leads to a
topic, and otherwise nothing but reports is.

Results:

* `SendPlan.deliver_eq`: a delivery is a send, and the closing of all handles.
* `Relay.getOrCreate_journal`, `Relay.closeAll_journal`: handles of a journal.
* `SendPlan.deliver_unrouted`, `SendPlan.deliver_journal`: what a delivery into a journal comes to.
-/

namespace EventIngress

open TopicCache CacheUse

/-! ## A delivery is a send -/

/-- The handles of the outlet: a publish comes to an end at once. -/
def Relay.publisher (exchange : HttpRequest → Exchange) : Publisher OutletHandle Relay :=
  fun h m r => (.ended (r.publish exchange h m).1, (r.publish exchange h m).2)

/-- The result of a send that has come to an end. -/
def SendState.result {η : Type} : SendState η → Except Failure Ack
  | ended result => result
  | _ => .error Stop.broken.toFailure

namespace SendPlan

/-- The send of a delivery. -/
def start (exchange : HttpRequest → Exchange) (p : SendPlan) :
    SendState OutletHandle × (TopicCache OutletHandle × Relay) :=
  p.sink.start Relay.collaborators (Relay.publisher exchange) p.broker p.event p.context
    ({}, p.relay)

theorem deliver_eq (exchange : HttpRequest → Exchange) (p : SendPlan) :
    p.deliver exchange = ((p.start exchange).1.result,
      (closeAll Relay.collaborators (p.start exchange).2).2.2.notices) := by
  have hrun : StateT.run (ExceptT.run (p.sink.prepare Relay.collaborators p.broker p.event
      p.context)) ({}, p.relay) =
      p.sink.prepare Relay.collaborators p.broker p.event p.context ({}, p.relay) := rfl
  rw [deliver, start, Sink.start, hrun]
  rcases p.sink.prepare Relay.collaborators p.broker p.event p.context ({}, p.relay) with
    ⟨(f | _) | ⟨h, m⟩, c, r⟩ <;> rfl

end SendPlan

namespace Relay

variable {b : BrokerIdentity} {t : TopicId} {f : Failure} {j : Journal} {r : Relay}

/-! ## Reports -/

/-- The relay after reports. -/
def reported (entries : List LogEntry) (r : Relay) : Relay :=
  { r with notices := r.notices ++ entries.map .report }

theorem reported_reported (entries entries' : List LogEntry) (r : Relay) :
    (r.reported entries).reported entries' = r.reported (entries ++ entries') := by
  simp [reported]

theorem reportAll_eq (entries : List LogEntry) (r : Relay) :
    collaborators.reportAll entries r = r.reported entries := by
  induction entries generalizing r with
  | nil => simp [Collaborators.reportAll, reported]
  | cons e entries ih =>
    show collaborators.reportAll entries (r.reported [e]) = _
    rw [ih, reported_reported]
    rfl

/-! ## Handles of a journal -/

/-- Without a topic there is no handle. -/
theorem getOrCreate_error (hroute : topicOf b (r.table.route? b) = .error f)
    (c : TopicCache OutletHandle) :
    getOrCreate collaborators b (c, r) =
      (.error (.failure f), (c, r.reported (topicReport b (r.table.route? b)))) := by
  have hasked : collaborators.route b r = (.answer (r.table.route? b), r) := rfl
  simp only [getOrCreate_apply, resolve_apply, hasked, hroute, reportAll_eq]

/-- The handle of a broker is opened for the topic that its route names. -/
theorem getOrCreate_journal (hroute : topicOf b (r.table.route? b) = .ok t)
    (houtlet : r.outlet = .journal j) :
    ∃ entries, getOrCreate collaborators b ({}, r) =
      (.ok (.journal t), ((bind {} b ⟨.journal t, t⟩).2, r.reported entries)) := by
  have hasked (entries : List LogEntry) : collaborators.route b (r.reported entries) =
      (.answer (r.table.route? b), r.reported entries) := rfl
  have hopened (entries : List LogEntry) : collaborators.openTopic t (r.reported entries) =
      (.answer (.ok (.journal t)), r.reported entries) := by
    show (Reply.answer ((r.reported entries).openTopic t), r.reported entries) = _
    rw [openTopic, reported, houtlet]
  have hself : r = r.reported [] := by simp [reported]
  have hhit : hit? ({} : TopicCache OutletHandle) b t = none := rfl
  rw [getOrCreate_apply, hself]
  simp only [resolve_apply, hasked, hroute, reportAll_eq, peek_apply, hhit, installAndClose,
    bind_apply, install_apply, createUnderLock_apply, hopened, reported_reported,
    SortedMap.find?_empty, Bool.false_eq_true, if_false]
  exact ⟨_, rfl⟩

/-- Handles of a journal close without a trace. -/
theorem closeEach_journal {removed : List (Removed OutletHandle)}
    (h : ∀ x ∈ removed, x.reports = [] ∧ ∃ t, x.handle = .journal t)
    (c : TopicCache OutletHandle) (r : Relay) :
    closeEach collaborators removed (c, r) = (.ok (), (c, r)) := by
  induction removed with
  | nil => rfl
  | cons x removed ih =>
    rw [List.forall_mem_cons] at h
    obtain ⟨⟨hreports, t, hhandle⟩, hrest⟩ := h
    rw [closeEach, bind_apply, close_apply, hreports, hhandle]
    exact ih hrest

theorem closeAll_journal {c : TopicCache OutletHandle} (hpoisoned : c.poisoned = false)
    (h : ∀ e ∈ c.entries.toList, ∃ t, e.2.handle = .journal t) (r : Relay) :
    (closeAll collaborators (c, r)).2.2 = r := by
  rw [closeAll, bind_apply, takeAll_apply, hpoisoned]
  simp only [Bool.false_eq_true, if_false]
  rcases collaborators.visit c.entries.toList r with ⟨visited, hvisited⟩
  have hremoved : ∀ x ∈ visited.map fun e => (⟨e.2.handle, []⟩ : Removed OutletHandle),
      x.reports = [] ∧ ∃ t, x.handle = .journal t :=
    List.forall_mem_map.2 fun e he => ⟨rfl, h e (hvisited.mem_iff.1 he)⟩
  rw [bind_apply, closeEach_journal hremoved]
  rfl

/-- The first message that is published on a handle of a new journal. -/
theorem publish_journal (exchange : HttpRequest → Exchange) (houtlet : r.outlet = .journal {})
    (t : TopicId) (m : Message) :
    ∃ outlet, r.publish exchange (.journal t) m =
      (.ok ⟨"log-1", t⟩, { r with
        outlet := outlet
        notices := r.notices ++ [.record (Journal.record t "log-1" m ++ [0x0a])] }) := by
  unfold publish
  rw [houtlet]
  exact ⟨_, rfl⟩

end Relay

/-! ## Deliveries into a journal -/

namespace SendPlan

variable {p : SendPlan} {f : Failure} {t : TopicId} {m : Message}

/-- Without a topic the delivery fails as the route says, and nothing but reports is left. -/
theorem deliver_unrouted (exchange : HttpRequest → Exchange)
    (hroute : topicOf p.broker (p.relay.table.route? p.broker) = .error f) :
    ∃ entries : List LogEntry,
      p.deliver exchange = (.error f, p.relay.notices ++ entries.map .report) := by
  have hstart : p.start exchange = (.ended (.error f),
      ({}, p.relay.reported (topicReport p.broker (p.relay.table.route? p.broker)))) := by
    rw [start, Sink.start_eq, Relay.getOrCreate_error hroute]
    rfl
  rw [deliver_eq, hstart]
  refine ⟨_, Prod.ext rfl ?_⟩
  rw [Relay.closeAll_journal rfl (by rintro e ⟨⟩)]
  rfl

/-- With a topic the message is written into the journal, once. -/
theorem deliver_journal (exchange : HttpRequest → Exchange)
    (hroute : topicOf p.broker (p.relay.table.route? p.broker) = .ok t)
    (houtlet : p.relay.outlet = .journal {})
    (hencode : p.sink.encoder p.event p.context.trace = .ok m) :
    ∃ entries : List LogEntry, p.deliver exchange =
      (.ok ⟨"log-1", t⟩, p.relay.notices ++ entries.map .report ++
        [.record (Journal.record t "log-1" m ++ [0x0a])]) := by
  obtain ⟨entries, hget⟩ := Relay.getOrCreate_journal hroute houtlet
  obtain ⟨outlet, hpublish⟩ := Relay.publish_journal exchange
    (r := p.relay.reported entries) houtlet t m
  have hstart : p.start exchange = (.ended (.ok ⟨"log-1", t⟩),
      ((TopicCache.bind {} p.broker ⟨.journal t, t⟩).2,
        ((p.relay.reported entries).publish exchange (.journal t) m).2)) := by
    rw [start, Sink.start_eq, hget]
    dsimp only
    rw [hencode]
    dsimp only [Relay.publisher]
    rw [hpublish]
    rfl
  rw [deliver_eq, hstart]
  refine ⟨entries, Prod.ext rfl ?_⟩
  rw [Relay.closeAll_journal rfl, hpublish]
  · rfl
  · intro e he
    have hmem : e ∈ [(p.broker, (⟨.journal t, t⟩ : CacheEntry OutletHandle))] := he
    rw [List.mem_singleton] at hmem
    exact ⟨t, by rw [hmem]⟩

end SendPlan

end EventIngress
