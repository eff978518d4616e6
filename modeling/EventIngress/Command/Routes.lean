import EventIngress.Cache.Classify
import EventIngress.Command.Outcome

/-!
# Checking a routing document

Each broker of a document gets a line: what its route stands for, and the topic if there is one.

Results:

* `routeLabel`, `routeLine`: the line of a broker.
* `checkRoutes`: the lines of a document. Routes that never lead to a topic are a failure.
-/

namespace EventIngress

/-- The word for what a route leads to (`classification_label`). -/
def routeLabel : Except Failure TopicId → String
  | .ok _ => "ready"
  | .error (.notReady _) => "not_ready"
  | .error (.notFound _) => "not_found"
  | .error _ => "incomplete"

/-- The line of a broker (`route_line`). -/
def routeLine (b : BrokerIdentity) (result : Except Failure TopicId) : String :=
  b.text ++ "\t" ++ routeLabel result ++
    (match result with
      | .ok topic => "\t" ++ topic.text
      | .error _ => "")

/-- Whether a route is ready and yet leads to no topic. -/
def isIncomplete : Except Failure TopicId → Bool
  | .error (.incomplete _ _) => true
  | _ => false

/-- What the check of a document leaves. -/
def checkDocument (d : RoutingDocument) : Outcome :=
  let results := d.routes.map fun entry => (entry.1, topicOf entry.1 (some entry.2))
  { status := if results.any (isIncomplete ·.2) then .failure else .success
    output := results.map fun result => routeLine result.1 result.2
    notices := d.routes.flatMap fun entry =>
      (topicReport entry.1 (some entry.2)).map .report }

/-- Checks the routing document in a file (`command_routes_check`). -/
def checkRoutes (files : FileTree) (env : Environment) (file : String) (maxBytes : Nat) : Outcome :=
  match RoutingDocument.load files file maxBytes with
  | .error fault => .refused (.routing file fault)
  | .ok document => (checkDocument document).logged (.ofSettings {} env)

end EventIngress
