import EventIngress.Broker
import EventIngress.Time.Span
import EventIngress.Topic

/-!
# Why an event is not published

A failure is a cause together with what it is about. Its kind is a stable label; whether trying
again later makes sense follows from the cause.

Results:

* `OpenFault`, `EncodeFault`, `PublishFault`: what can fail at one topic or one message.
* `Failure`: what can fail on the way of an event, with `Failure.kind`, `Failure.message` and
  `Failure.retryable`.
-/

namespace EventIngress

/-! ## Opening a topic -/

/-- Why a topic cannot be opened (`HandleOpenError`). -/
inductive OpenFault where
  /-- The transport does not take the topic. -/
  | invalidTopic (topic : TopicId) (reason : String)
  /-- The transport cannot be reached. -/
  | unavailable (reason : String)
  deriving DecidableEq

namespace OpenFault

/-- The wording of the fault. -/
def message : OpenFault → String
  | invalidTopic topic reason => "topic " ++ topic.text ++ " cannot be opened: " ++ reason
  | unavailable reason => "transport unavailable: " ++ reason

/-- Whether trying again makes sense (`HandleOpenError.is_retryable`). -/
def retryable : OpenFault → Bool
  | invalidTopic _ _ => false
  | unavailable _ => true

end OpenFault

/-! ## Encoding an event -/

/-- Why an event has no message (`EncodeError`). -/
inductive EncodeFault where
  /-- The event breaks a rule. -/
  | invalidEvent (reason : String)
  /-- The body cannot be written. -/
  | serialization (reason : String)
  deriving DecidableEq

namespace EncodeFault

/-- The wording of the fault. -/
def message : EncodeFault → String
  | invalidEvent reason => "invalid event: " ++ reason
  | serialization reason => "event serialization failed: " ++ reason

end EncodeFault

/-! ## Publishing a message -/

/-- Why a message is not taken (`PublishError`). -/
inductive PublishFault where
  /-- The handle of the topic is closed. -/
  | closed (topic : TopicId)
  /-- The message does not get through. -/
  | transport (reason : String)
  /-- The other side refuses the message with a status. -/
  | rejected (status : Nat) (reason : String)
  deriving DecidableEq

namespace PublishFault

/-- The wording of the fault. -/
def message : PublishFault → String
  | closed topic => "topic handle " ++ topic.text ++ " is closed"
  | transport reason => "transport failure: " ++ reason
  | rejected status reason =>
    "transport rejected message (status " ++ toString status ++ "): " ++ reason

/-- Whether trying again makes sense (`PublishError.is_retryable`): a refusal has to say so by its
status. -/
def retryable : PublishFault → Bool
  | closed _ => true
  | transport _ => true
  | rejected status _ => status == 429 || 500 ≤ status

end PublishFault

/-! ## All failures -/

/-- Why an event is not published (`DecoupleError`). -/
inductive Failure where
  /-- There is no route for the broker. -/
  | notFound (broker : BrokerIdentity)
  /-- The broker is not provisioned yet. -/
  | notReady (broker : BrokerIdentity)
  /-- The route of the broker names no usable topic. -/
  | incomplete (broker : BrokerIdentity) (reason : String)
  | handleOpen (fault : OpenFault)
  | encode (fault : EncodeFault)
  | publish (fault : PublishFault)
  /-- The message was not taken in time. -/
  | cancelled (timeout : Span)
  | internal (reason : String)
  deriving DecidableEq

namespace Failure

/-- The label of the kind of a failure (`DecoupleError.kind`). -/
def kind : Failure → String
  | notFound _ => "not_found"
  | notReady _ => "not_ready"
  | incomplete _ _ => "incomplete"
  | handleOpen _ => "handle_open"
  | encode _ => "encode"
  | publish _ => "publish"
  | cancelled _ => "cancelled"
  | internal _ => "internal"

/-- The wording of a failure. -/
def message : Failure → String
  | notFound broker => "broker " ++ broker.text ++ " not found in routing table"
  | notReady broker => "broker " ++ broker.text ++ " is not ready"
  | incomplete broker reason => "broker " ++ broker.text ++ " has an incomplete route: " ++ reason
  | handleOpen fault => fault.message
  | encode fault => fault.message
  | publish fault => fault.message
  | cancelled timeout => "publish cancelled after " ++ timeout.text
  | internal reason => "internal error: " ++ reason

/-- Whether trying again makes sense (`DecoupleError.is_retryable`). -/
def retryable : Failure → Bool
  | notFound _ => true
  | notReady _ => true
  | incomplete _ _ => false
  | handleOpen fault => fault.retryable
  | encode _ => false
  | publish fault => fault.retryable
  | cancelled _ => true
  | internal _ => false

end Failure

end EventIngress
