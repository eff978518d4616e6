import EventIngress.Routing.Route

/-!
# Routing documents

A routing document lists brokers by namespace and name, each with its state and, once there is one,
its queue. Three views of a document agree: the list of its routes, their number, and the look-up
of a broker.

Results:

* `RoutingDocument`, `BrokerTarget`, `Queue`: documents and their parts.
* `RoutingDocument.routes`, `RoutingDocument.count`, `RoutingDocument.route?`: the three views.
* `RoutingDocument.ofJson`, `RoutingDocument.write`: the JSON form.
-/

namespace EventIngress

/-- The queue of a broker (`DecoupleQueue`): the topic that events are published to and the
subscription they are taken from. -/
structure Queue where
  topic : String := ""
  subscription : String := ""
  deriving DecidableEq, Repr

/-- What a document says about a broker. -/
structure BrokerTarget where
  state : RouteState := .unready
  queue : Option Queue := none
  deriving DecidableEq, Repr

/-- Brokers by namespace and name (`RoutingSnapshot`). -/
structure RoutingDocument where
  namespaces : SortedMap String (SortedMap String BrokerTarget) := .empty
  deriving DecidableEq

/-! ## Views -/

/-- The route that a broker of a document has (`BrokerTarget.route`); without a queue, its topic is
empty. -/
def BrokerTarget.route (t : BrokerTarget) : BrokerRoute :=
  ⟨t.state, (t.queue.map (·.topic)).getD ""⟩

namespace RoutingDocument

/-- The brokers of a document with their routes, in order (`RoutingSnapshot.routes`). -/
def routes (d : RoutingDocument) : List (BrokerIdentity × BrokerRoute) :=
  d.namespaces.toList.flatMap fun ns =>
    ns.2.toList.map fun broker => (⟨ns.1, broker.1⟩, broker.2.route)

/-- The number of brokers of a document (`broker_count`). -/
def count (d : RoutingDocument) : Nat :=
  d.namespaces.toList.foldr (fun ns n => ns.2.size + n) 0

/-- The route of a broker (`RoutingSnapshot.lookup`). -/
def route? (d : RoutingDocument) (b : BrokerIdentity) : Option BrokerRoute :=
  ((d.namespaces.find? b.ns).bind fun brokers => brokers.find? b.name).map (·.route)

end RoutingDocument

/-! ## The JSON form -/

namespace Queue

/-- The shape of the JSON form of a queue. -/
def shape : Json.Record Queue where
  name := "DecoupleQueue"
  fields :=
    [.part "topic" false Json.readText fun a q => { q with topic := a },
      .part "subscription" false Json.readText fun a q => { q with subscription := a }]

/-- The JSON form of a queue. -/
def write (q : Queue) : Bytes :=
  Json.writeObject
    [("topic", Json.writeText q.topic), ("subscription", Json.writeText q.subscription)]

end Queue

namespace BrokerTarget

/-- The shape of the JSON form of what a document says about a broker. -/
def shape : Json.Record BrokerTarget where
  name := "BrokerTarget"
  fields :=
    [.part "state" false RouteState.read fun a t => { t with state := a },
      .part "decouple_queue" false (Json.readOptional (Queue.shape.read {})) fun a t =>
        { t with queue := a }]

/-- The JSON form of what a document says about a broker. -/
def write (t : BrokerTarget) : Bytes :=
  Json.writeObject
    (("state", t.state.write) :: (t.queue.map fun q => ("decouple_queue", q.write)).toList)

end BrokerTarget

namespace RoutingDocument

/-- The shape of the JSON form of a namespace. -/
def namespaceShape : Json.Record (SortedMap String BrokerTarget) where
  name := "NamespaceTargets"
  fields := [.part "brokers" false (Json.readMap (BrokerTarget.shape.read {})) fun a _ => a]

/-- The shape of the JSON form of a document. -/
def shape : Json.Record RoutingDocument where
  name := "RoutingSnapshot"
  fields :=
    [.part "namespaces" false (Json.readMap (namespaceShape.read .empty)) fun a _ => ⟨a⟩]

/-- Reads the JSON form of a document. -/
def read (input : Bytes) : Json.Scan RoutingDocument :=
  shape.read {} input

/-- The document of a whole JSON text (`RoutingSnapshot.from_json`). -/
def ofJson (text : Bytes) : Except Json.Fault RoutingDocument :=
  Json.finish (read text)

/-- The JSON form of a document. -/
def write (d : RoutingDocument) : Bytes :=
  Json.writeObject
    [("namespaces", Json.writeMap d.namespaces fun brokers =>
      Json.writeObject [("brokers", Json.writeMap brokers BrokerTarget.write)])]

end RoutingDocument

end EventIngress
