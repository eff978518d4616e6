import EventIngress.Json.Shape
import EventIngress.Json.Write
import EventIngress.Log
import EventIngress.Text.Base64
import EventIngress.Transport.Progress
import EventIngress.Url.Basic

/-!
# Publishing over HTTP

Each message becomes one request to a publish service. The service names topics by
`projects/{project}/topics/{name}`; a topic without a project gets the project of the factory. What
happens to a request on its way is not decided here: a publish is interpreted by the exchange that it
leads to.

Results:

* `PubSubConfig`, `PubSubFactory.make`: settings and the factory they make.
* `PubSubFactory.openTopic`: the handle of a topic.
* `PubSubHandle.request`: the request for a message.
* `PubSubHandle.publish`: what an exchange means for a publish.
-/

namespace EventIngress

/-- The settings of a factory (`PubSubHttpConfig`). -/
structure PubSubConfig where
  endpoint : String := "https://pubsub.googleapis.com"
  project : Option String := none
  token : Option String := none
  connectTimeout : Span := .ofMillis 5000
  requestTimeout : Span := .ofMillis 30000

/-- Opens handles that publish over HTTP (`PubSubHttpFactory`). The endpoint has no slash at its
end. -/
structure PubSubFactory where
  endpoint : String
  project : Option String
  authorization : Option String

/-- A handle that publishes over HTTP (`PubSubTopicHandle`). -/
structure PubSubHandle where
  topic : TopicId
  url : String
  authorization : Option String
  closed : Bool := false

/-- A request of a publish. -/
structure HttpRequest where
  method : String
  url : String
  authorization : Option String
  contentType : String
  body : Bytes

/-- What becomes of a request. -/
inductive Exchange where
  /-- There is no answer. -/
  | failed (reason : String)
  | answered (status : Nat) (body : Bytes)

namespace PubSubFactory

/-- A text without slashes at its end. -/
def trimSlashes (s : String) : String :=
  String.ofList (s.toList.reverse.dropWhile (· == '/')).reverse

/-- Whether a byte may stand in the value of a header. -/
def isHeaderByte (b : UInt8) : Bool :=
  (0x20 ≤ b && b != 0x7f) || b == 0x09

/-- The factory of some settings (`PubSubHttpFactory.new`). The endpoint has to be a URL, and the
token has to fit into a header. -/
def make (config : PubSubConfig) : Except OpenFault PubSubFactory :=
  match Url.parse config.endpoint with
  | .error fault => .error (.unavailable ("invalid pubsub endpoint: " ++ fault.message))
  | .ok _ =>
    if (config.token.map Bytes.ofText).any fun token => !token.all isHeaderByte then
      .error (.unavailable "invalid pubsub auth token")
    else
      .ok ⟨trimSlashes config.endpoint, config.project, config.token.map ("Bearer " ++ ·)⟩

/-- The name of a topic for the service (`resource_name`). -/
def resourceName (f : PubSubFactory) (topic : TopicId) : Except OpenFault String :=
  if topic.isQualified then .ok topic.text
  else
    match f.project with
    | some project => .ok ("projects/" ++ project ++ "/topics/" ++ topic.name)
    | none => .error (.invalidTopic topic "short topic id requires a project")

/-- The URL that messages on a topic are sent to. -/
def publishUrl (f : PubSubFactory) (resource : String) : String :=
  f.endpoint ++ "/v1/" ++ resource ++ ":publish"

/-- Opens the handle of a topic (`PubSubHttpFactory.open`). -/
def openTopic (f : PubSubFactory) (topic : TopicId) : Except OpenFault PubSubHandle :=
  (f.resourceName topic).map fun resource =>
    { topic := topic, url := f.publishUrl resource, authorization := f.authorization }

end PubSubFactory

namespace HttpRequest

/-- What the request asks its host for, if it has a URL. -/
def target? (r : HttpRequest) : Option String :=
  (Url.parse r.url).toOption.map (·.target)

end HttpRequest

namespace PubSubHandle

/-- The body of the request for a message (`PublishRequest`). -/
def requestBody (m : Message) : Bytes :=
  Json.writeObject [("messages", Json.writeArray [Json.writeObject
    [("data", Json.writeText (Base64.encode m.body)),
      ("attributes", Json.writeMap m.attributes Json.writeText)]])]

/-- The request for a message. -/
def request (h : PubSubHandle) (m : Message) : HttpRequest :=
  ⟨"POST", h.url, h.authorization, "application/json", requestBody m⟩

/-- The shape of an answer that takes messages (`PublishResponse`): their ids. -/
def answerShape : Json.Record (List String) where
  name := "PublishResponse"
  fields := [.part "messageIds" false (Json.readList Json.readText) fun a _ => a]

/-- Largest number of characters that are kept of an answer that refuses a message
(`MAX_ERROR_BODY_CHARS`). -/
def maxRefusal : Nat := 512

/-- The reason of an answer without ids. -/
def noId : String := "pubsub response carried no message id"

/-- The ids of an answer. -/
def answerIds (body : Bytes) : Except Json.Fault (List String) :=
  Json.finish (answerShape.read [] body)

/-- What an exchange means for a publish. -/
def interpret (topic : TopicId) : Exchange → Except PublishFault Ack
  | .failed reason => .error (.transport reason)
  | .answered status body =>
    if 200 ≤ status ∧ status < 300 then
      match answerIds body with
      | .error _ => .error (.transport "error decoding response body")
      | .ok [] => .error (.transport noId)
      | .ok (messageId :: _) => .ok ⟨messageId, topic⟩
    else
      .error (.rejected status (String.ofList ((Bytes.lossyText body).toList.take maxRefusal)))

/-- Publishes a message (`PubSubTopicHandle.publish`): a closed handle makes no request, any other
makes one, and the exchange that it leads to decides. -/
def publish (h : PubSubHandle) (m : Message) (exchange : HttpRequest → Exchange) :
    Option HttpRequest × Except PublishFault Ack :=
  if h.closed then (none, .error (.closed h.topic))
  else (some (h.request m), interpret h.topic (exchange (h.request m)))

/-- Closes the handle (`PubSubTopicHandle.close`); the first time this is reported. -/
def close (h : PubSubHandle) : List LogEntry × PubSubHandle :=
  if h.closed then ([], h)
  else
    ([{ level := .debug, part := .pubSub, text := "pubsub topic handle closed",
        values := [("topic", h.topic.text)] }],
      { h with closed := true })

end PubSubHandle

end EventIngress
