import EventIngress.Transport.Progress

/-!
# Publishing into a channel

A channel holds a bounded number of messages until they are received. A publish takes its message
id first. If there is no room it waits; waiting publishes get room in the order in which they
started to wait. A publish that gives up leaves nothing in the channel.

Results:

* `Channel`, `Delivery`: the channel and what is in it.
* `Channel.publish`, `Channel.withdraw`: the start and the giving up of a publish.
* `Channel.receive`, `Channel.hangUp`: the other end.
-/

namespace EventIngress

/-- A message in a channel, with its topic and its id (`PublishedMessage`). -/
structure Delivery where
  message : Message
  topic : TopicId
  messageId : String
  deriving DecidableEq

/-- The answer to the publish of a delivery. -/
def Delivery.ack (d : Delivery) : Ack :=
  ⟨d.messageId, d.topic⟩

/-- A bounded channel. `waiting` holds the deliveries without room, each with the number of the
publish that waits. -/
structure Channel where
  capacity : Nat
  issuer : Issuer
  queue : List Delivery := []
  waiting : List (Nat × Delivery) := []
  receiving : Bool := true

namespace Channel

/-- The reason of a publish that nobody will receive. -/
def hungUp : String := "channel receiver dropped"

/-- Whether a topic can be opened (`ChannelTopicFactory.open`). -/
def openFault? (c : Channel) : Option OpenFault :=
  if c.receiving then none else some (.unavailable hungUp)

/-- Starts a publish of a message on a topic (`ChannelTopicHandle.publish`). `ticket` is the number
of the publish. -/
def publish (c : Channel) (topic : TopicId) (closed : Bool) (ticket : Nat) (m : Message) :
    Progress × Channel :=
  if closed then (.ended (.error (.closed topic)), c)
  else
    let (messageId, issuer) := c.issuer.next
    let c := { c with issuer := issuer }
    let d : Delivery := ⟨m, topic, messageId⟩
    if !c.receiving then (.ended (.error (.transport hungUp)), c)
    else if c.queue.length < c.capacity then
      (.ended (.ok d.ack), { c with queue := c.queue ++ [d] })
    else (.waiting, { c with waiting := c.waiting ++ [(ticket, d)] })

/-- Gives up a waiting publish. -/
def withdraw (c : Channel) (ticket : Nat) : Channel :=
  { c with waiting := c.waiting.filter fun w => w.1 != ticket }

/-- Receives the oldest delivery, if there is one. The room goes to the publish that waits longest,
which is thereby ended; its number and its answer are yielded too. -/
def receive (c : Channel) : Option Delivery × Option (Nat × Ack) × Channel :=
  match c.queue with
  | [] => (none, none, c)
  | d :: queue =>
    match c.waiting with
    | [] => (some d, none, { c with queue := queue })
    | (ticket, w) :: waiting =>
      (some d, some (ticket, w.ack), { c with queue := queue ++ [w], waiting := waiting })

/-- Drops the receiving end. The publishes that wait are ended; their numbers are yielded. -/
def hangUp (c : Channel) : List Nat × Channel :=
  (c.waiting.map (·.1), { c with queue := [], waiting := [], receiving := false })

end Channel

end EventIngress
