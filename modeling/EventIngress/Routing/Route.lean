import EventIngress.Broker
import EventIngress.Json.Shape
import EventIngress.Json.Write
import EventIngress.Topic

/-!
# Routes

The route of a broker says whether the broker is provisioned and which topic its events go to. The
topic is raw text: it may be empty or unusable.

Results:

* `RouteState`, `BrokerRoute`: routes, with their JSON forms.
* `BrokerIdentity.write`, `BrokerIdentity.read`: the JSON form of a broker.
* `TopicId.write`, `TopicId.read`: the JSON form of a topic.
-/

namespace EventIngress

/-- Whether a broker is provisioned. -/
inductive RouteState where
  | unready
  | ready
  deriving DecidableEq, Repr, Inhabited

/-- The route of a broker. -/
structure BrokerRoute where
  state : RouteState
  topic : String
  deriving DecidableEq, Repr

namespace RouteState

/-- The word for a state. -/
def word : RouteState → String
  | unready => "unready"
  | ready => "ready"

/-- Reads the word for a state. -/
def read (input : Bytes) : Json.Scan RouteState :=
  Json.readChoice ([unready, ready].map fun s => (s.word, s)) input

/-- The JSON form of a state. -/
def write (s : RouteState) : Bytes :=
  Json.writeText s.word

end RouteState

namespace BrokerRoute

/-- The shape of the JSON form of a route. -/
def shape : Json.Record BrokerRoute where
  name := "BrokerRoute"
  fields :=
    [.part "state" true RouteState.read fun a r => { r with state := a },
      .part "topic_id" false Json.readText fun a r => { r with topic := a }]

/-- Reads the JSON form of a route. -/
def read (input : Bytes) : Json.Scan BrokerRoute :=
  shape.read ⟨.unready, ""⟩ input

/-- The JSON form of a route. -/
def write (r : BrokerRoute) : Bytes :=
  Json.writeObject [("state", r.state.write), ("topic_id", Json.writeText r.topic)]

end BrokerRoute

namespace BrokerIdentity

/-- The shape of the JSON form of a broker. -/
def shape : Json.Record BrokerIdentity where
  name := "BrokerIdentity"
  fields :=
    [.part "namespace" true Json.readText fun a b => { b with ns := a },
      .part "name" true Json.readText fun a b => { b with name := a }]

/-- Reads the JSON form of a broker. -/
def read (input : Bytes) : Json.Scan BrokerIdentity :=
  shape.read ⟨"", ""⟩ input

/-- The JSON form of a broker. -/
def write (b : BrokerIdentity) : Bytes :=
  Json.writeObject [("namespace", Json.writeText b.ns), ("name", Json.writeText b.name)]

end BrokerIdentity

namespace TopicId

/-- Reads the JSON form of a topic. A text that is no topic is a mismatch. -/
def read (input : Bytes) : Json.Scan TopicId :=
  match Json.readText input with
  | .error fault => .error fault
  | .ok (s, rest) =>
    match parse s with
    | .error fault => .error (.mismatch (.rule fault.message))
    | .ok t => .ok (t, rest)

/-- The JSON form of a topic: its text form. -/
def write (t : TopicId) : Bytes :=
  Json.writeText t.text

end TopicId

end EventIngress
