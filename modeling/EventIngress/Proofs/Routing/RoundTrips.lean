import EventIngress.Proofs.Json.Records
import EventIngress.Proofs.Topic.Grammar
import EventIngress.Routing.Document

/-!
# Routing data and their JSON forms

The JSON form of a topic, a broker, a state, a route or a routing document is read back as what it
was written for. Nothing is asked of the texts in it: brokers and namespaces may be named by any
text, and a topic of a route or a queue may be unusable.

Results:

* `BrokerTarget.readsBack_write`, `RoutingDocument.readsBack_write`: the nested parts of a document.
* `routing_data_roundTrip`: everything that has a JSON form, and what follows for the routes of a
  document that is written again.
-/

namespace EventIngress

open Json (Written ReadsBack readsBack_part)

/-! ## Topics and brokers -/

theorem TopicId.readsBack_write (t : TopicId) : ReadsBack read t.write t := by
  intro rest hrest
  rw [read, write, Json.readsBack_readText t.text rest hrest]
  dsimp only
  rw [parse_text]

namespace BrokerIdentity

/-- The members of the JSON form of a broker. -/
def written (b : BrokerIdentity) : List (Written BrokerIdentity) :=
  [⟨"namespace", Json.writeText b.ns, fun x => { x with ns := b.ns }⟩,
    ⟨"name", Json.writeText b.name, fun x => { x with name := b.name }⟩]

theorem fits_written (b : BrokerIdentity) : shape.Fits [] b.written := by
  refine .of_names ["namespace", "name"] rfl ?_ (by decide) (by decide)
  intro w hw
  simp only [written, List.mem_cons, List.not_mem_nil, or_false] at hw
  rcases hw with rfl | rfl
  · exact readsBack_part (Json.readsBack_readText _) "namespace" true
      fun a (x : BrokerIdentity) => { x with ns := a }
  · exact readsBack_part (Json.readsBack_readText _) "name" true
      fun a (x : BrokerIdentity) => { x with name := a }

theorem readsBack_write (b : BrokerIdentity) : ReadsBack read b.write b :=
  Json.Record.readsBack_write rfl b.fits_written ⟨"", ""⟩

end BrokerIdentity

/-! ## Routes -/

theorem RouteState.readsBack_write (s : RouteState) : ReadsBack read s.write s := by
  cases s <;> exact Json.readsBack_readChoice rfl

namespace BrokerRoute

/-- The members of the JSON form of a route. -/
def written (r : BrokerRoute) : List (Written BrokerRoute) :=
  [⟨"state", r.state.write, fun x => { x with state := r.state }⟩,
    ⟨"topic_id", Json.writeText r.topic, fun x => { x with topic := r.topic }⟩]

theorem fits_written (r : BrokerRoute) : shape.Fits [] r.written := by
  refine .of_names ["state", "topic_id"] rfl ?_ (by decide) (by decide)
  intro w hw
  simp only [written, List.mem_cons, List.not_mem_nil, or_false] at hw
  rcases hw with rfl | rfl
  · exact readsBack_part r.state.readsBack_write "state" true
      fun a (x : BrokerRoute) => { x with state := a }
  · exact readsBack_part (Json.readsBack_readText _) "topic_id" false
      fun a (x : BrokerRoute) => { x with topic := a }

theorem readsBack_write (r : BrokerRoute) : ReadsBack read r.write r :=
  Json.Record.readsBack_write rfl r.fits_written ⟨.unready, ""⟩

end BrokerRoute

/-! ## Documents -/

namespace Queue

/-- The members of the JSON form of a queue. -/
def written (q : Queue) : List (Written Queue) :=
  [⟨"topic", Json.writeText q.topic, fun x => { x with topic := q.topic }⟩,
    ⟨"subscription", Json.writeText q.subscription, fun x =>
      { x with subscription := q.subscription }⟩]

theorem fits_written (q : Queue) : shape.Fits [] q.written := by
  refine .of_names ["topic", "subscription"] rfl ?_ (by decide) (by decide)
  intro w hw
  simp only [written, List.mem_cons, List.not_mem_nil, or_false] at hw
  rcases hw with rfl | rfl
  · exact readsBack_part (Json.readsBack_readText _) "topic" false
      fun a (x : Queue) => { x with topic := a }
  · exact readsBack_part (Json.readsBack_readText _) "subscription" false
      fun a (x : Queue) => { x with subscription := a }

theorem readsBack_write (q : Queue) : ReadsBack (shape.read {}) q.write q :=
  Json.Record.readsBack_write rfl q.fits_written {}

end Queue

namespace BrokerTarget

/-- The member with the state. -/
def writtenState (s : RouteState) : Written BrokerTarget :=
  ⟨"state", s.write, fun x => { x with state := s }⟩

/-- The member with the queue. -/
def writtenQueue (q : Queue) : Written BrokerTarget :=
  ⟨"decouple_queue", q.write, fun x => { x with queue := some q }⟩

/-- The members of the JSON form of what a document says about a broker. -/
def written (t : BrokerTarget) : List (Written BrokerTarget) :=
  writtenState t.state :: (t.queue.map writtenQueue).toList

theorem readsBack_writtenState (s : RouteState) :
    ReadsBack (shape.reader "state") (writtenState s).bytes (writtenState s).change :=
  readsBack_part s.readsBack_write "state" false fun a (x : BrokerTarget) => { x with state := a }

theorem readsBack_writtenQueue (q : Queue) :
    ReadsBack (shape.reader "decouple_queue") (writtenQueue q).bytes (writtenQueue q).change :=
  readsBack_part (q.readsBack_write.optional (by decide) (by decide)) "decouple_queue" false
    fun a (x : BrokerTarget) => { x with queue := a }

/-- What a document says about a broker is read back, with its queue and without. -/
theorem readsBack_write (t : BrokerTarget) : ReadsBack (shape.read {}) t.write t := by
  obtain ⟨state, queue⟩ := t
  cases queue with
  | none =>
    have hfits : shape.Fits [] [writtenState state] := by
      refine .of_names ["state"] rfl ?_ (by decide) (by decide)
      intro w hw
      cases List.mem_singleton.1 hw
      exact readsBack_writtenState state
    exact Json.Record.readsBack_write rfl hfits {}
  | some q =>
    have hfits : shape.Fits [] [writtenState state, writtenQueue q] := by
      refine .of_names ["state", "decouple_queue"] rfl ?_ (by decide) (by decide)
      intro w hw
      simp only [List.mem_cons, List.not_mem_nil, or_false] at hw
      rcases hw with rfl | rfl
      · exact readsBack_writtenState state
      · exact readsBack_writtenQueue q
    exact Json.Record.readsBack_write rfl hfits {}

end BrokerTarget

namespace RoutingDocument

/-- The JSON form of a namespace. -/
def writeNamespace (brokers : SortedMap String BrokerTarget) : Bytes :=
  Json.writeObject [("brokers", Json.writeMap brokers BrokerTarget.write)]

theorem readsBack_writeNamespace (brokers : SortedMap String BrokerTarget) :
    ReadsBack (namespaceShape.read .empty) (writeNamespace brokers) brokers := by
  have hbrokers := Json.readsBack_readMap BrokerTarget.readsBack_write brokers
  have hsingle := Json.Record.readsBack_single (r := namespaceShape) rfl hbrokers .empty
  exact hsingle

/-- A document is read back. -/
theorem readsBack_write (d : RoutingDocument) : ReadsBack read d.write d := by
  have hnamespaces := Json.readsBack_readMap readsBack_writeNamespace d.namespaces
  have hsingle := Json.Record.readsBack_single (r := shape) rfl hnamespaces {}
  exact hsingle

end RoutingDocument

/-! ## All of them -/

/-- Every topic, broker, state, route and routing document is read back from its JSON form as it
was. So every document that was read from any text, when it is written and read again, gives the
same routes in the same order, the same number of brokers and the same answer for every broker. -/
theorem routing_data_roundTrip :
    (∀ t : TopicId, Json.finish (TopicId.read t.write) = .ok t) ∧
    (∀ b : BrokerIdentity, Json.finish (BrokerIdentity.read b.write) = .ok b) ∧
    (∀ s : RouteState, Json.finish (RouteState.read s.write) = .ok s) ∧
    (∀ r : BrokerRoute, Json.finish (BrokerRoute.read r.write) = .ok r) ∧
    (∀ d : RoutingDocument, RoutingDocument.ofJson d.write = .ok d) ∧
    ∀ text d, RoutingDocument.ofJson text = .ok d →
      ∃ again, RoutingDocument.ofJson d.write = .ok again ∧ again.routes = d.routes ∧
        again.count = d.count ∧ ∀ b, again.route? b = d.route? b := by
  have hdocument (d : RoutingDocument) : RoutingDocument.ofJson d.write = .ok d :=
    d.readsBack_write.finish
  refine ⟨fun t => t.readsBack_write.finish, fun b => b.readsBack_write.finish,
    fun s => s.readsBack_write.finish, fun r => r.readsBack_write.finish, hdocument, ?_⟩
  intro text d _
  exact ⟨d, hdocument d, rfl, rfl, fun _ => rfl⟩

/-- A document in which a namespace comes twice, a broker has a line end in its name and no state,
and another namespace is empty: the second of the two namespaces counts. -/
theorem routing_data_roundTrip_repeated :
    let text := Bytes.ofText ("\x7b\"namespaces\":\x7b\"ns\":[],\"idle\":\x7b\x7d," ++
      "\"ns\":\x7b\"brokers\":\x7b\"b\\n1\":\x7b\"decouple_queue\":" ++
      "\x7b\"topic\":\"orders\"\x7d\x7d\x7d\x7d\x7d\x7d")
    let d : RoutingDocument := ⟨.ofList [("idle", .empty),
      ("ns", .ofList [("b\n1", { queue := some { topic := "orders" } })])]⟩
    RoutingDocument.ofJson text = .ok d ∧ ∃ again, RoutingDocument.ofJson d.write = .ok again ∧
      again.routes = [(⟨"ns", "b\n1"⟩, ⟨.unready, "orders"⟩)] ∧ again.count = 1 := by
  intro text d
  have hread : RoutingDocument.ofJson text = .ok d := by decide +kernel
  obtain ⟨again, hagain, hroutes, hcount, -⟩ :=
    routing_data_roundTrip.2.2.2.2.2 text d hread
  refine ⟨hread, again, hagain, ?_, ?_⟩
  · rw [hroutes]
    rfl
  · rw [hcount]
    rfl

end EventIngress
