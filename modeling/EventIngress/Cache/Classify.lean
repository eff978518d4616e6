import EventIngress.Failure
import EventIngress.Log
import EventIngress.Routing.Route

/-!
# The topic that a route leads to

Results:

* `topicOf`: the topic of a broker by its route, or the failure that the route stands for.
* `topicReport`: what is reported where there is no topic.
* `topicOf_eq_ok_iff`: which routes lead to a topic.
-/

namespace EventIngress

/-- The topic that the events of a broker go to (`classify_route`): there has to be a route, it has
to be ready, and its topic has to be usable. -/
def topicOf (b : BrokerIdentity) : Option BrokerRoute → Except Failure TopicId
  | none => .error (.notFound b)
  | some ⟨.unready, _⟩ => .error (.notReady b)
  | some ⟨.ready, topic⟩ =>
    match TopicId.parse topic with
    | .ok t => .ok t
    | .error fault => .error (.incomplete b fault.message)

/-- What is reported where a route leads to no topic. -/
def topicReport (b : BrokerIdentity) : Option BrokerRoute → List LogEntry
  | none =>
    [{ level := .debug, part := .cache, text := "broker not found in routing table",
       values := [("broker", b.text)] }]
  | some ⟨.unready, _⟩ =>
    [{ level := .debug, part := .cache, text := "broker not ready",
       values := [("broker", b.text)] }]
  | some ⟨.ready, topic⟩ =>
    match TopicId.parse topic with
    | .ok _ => []
    | .error fault =>
      [{ level := .error, part := .cache,
         text := "broker route is ready but its decouple topic is unusable",
         values := [("broker", b.text), ("topic_id", topic), ("error", fault.message)] }]

/-- A route leads to a topic if it is ready and names the topic in a usable way. -/
theorem topicOf_eq_ok_iff {b : BrokerIdentity} {route : Option BrokerRoute} {t : TopicId} :
    topicOf b route = .ok t ↔
      ∃ topic, route = some ⟨.ready, topic⟩ ∧ TopicId.parse topic = .ok t := by
  constructor
  · intro h
    rcases route with _ | ⟨_ | _, topic⟩
    · cases h
    · cases h
    · refine ⟨topic, rfl, ?_⟩
      rw [topicOf] at h
      split at h
      · rename_i t' ht
        rw [ht, Except.ok.inj h]
      · cases h
  · rintro ⟨topic, rfl, ht⟩
    rw [topicOf, ht]

/-- What a route lacks is told apart from what a transport refuses. -/
theorem topicOf_ne_publish {b : BrokerIdentity} {route : Option BrokerRoute} {f : Failure}
    (h : topicOf b route = .error f) (fault : PublishFault) : f ≠ .publish fault := by
  rcases route with _ | ⟨_ | _, topic⟩
  · cases h
    exact Failure.noConfusion
  · cases h
    exact Failure.noConfusion
  · rw [topicOf] at h
    split at h <;> cases h
    exact Failure.noConfusion

end EventIngress
