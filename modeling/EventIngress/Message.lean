import EventIngress.SortedMap
import EventIngress.Text.Utf8
import EventIngress.Topic

/-!
# Messages

What is published on a topic: attributes by name, and a body.

Results:

* `Message`: the message.
* `Ack`: what a transport answers when it has taken a message.
-/

namespace EventIngress

/-- A message: attributes by name, and a body. -/
structure Message where
  attributes : SortedMap String String := .empty
  body : Bytes := []
  deriving DecidableEq

/-- That a message was taken (`PublishAck`): its id and its topic. -/
structure Ack where
  messageId : String
  topic : TopicId
  deriving DecidableEq

end EventIngress
