import EventIngress.Cache.Access
import EventIngress.Encoding.Binary

/-!
# Sinks

A sink sends an event to a broker: it gets the handle of the broker from its cache, encodes the event
and publishes the message on the handle. A publish that takes longer than the timeout of the send,
or else of the sink, is given up.

Results:

* `Sink.prepare`: the way of an event up to the publish.
* `Sink.timeoutFor`, `Sink.outcome`: the timeout of a send, and what a publish means for it.
* `SinkBuilder.build`: a sink needs a routing table and a factory of handles.
-/

namespace EventIngress

/-- Makes messages of events (`EventEncoder`). -/
abbrev Encoder := Event → Option TraceContext → Except EncodeFault Message

/-- What goes with a send besides the event. -/
structure SendContext where
  trace : Option TraceContext := none
  timeout : Option Span := none

/-- A sink (`DecoupleSink`): how it encodes, and how long it waits if a send does not say. -/
structure Sink where
  encoder : Encoder := Encoding.encode
  timeout : Option Span := none

namespace Sink

variable {η σ : Type}

/-- The handle and the message for an event: the first half of `send_to`. -/
def prepare (s : Sink) (k : Collaborators η σ) (b : BrokerIdentity) (e : Event)
    (ctx : SendContext) : CacheUse η σ (η × Message) := do
  let h ← TopicCache.getOrCreate k b
  match s.encoder e ctx.trace with
  | .ok m => return (h, m)
  | .error fault => CacheUse.fail (.encode fault)

/-- How long the publish in `send_to` may take. -/
def timeoutFor (s : Sink) (ctx : SendContext) : Option Span :=
  ctx.timeout <|> s.timeout

/-- What the result of a publish means for `send_to`, if it comes in time. -/
def outcome (result : Except PublishFault Ack) : Except Failure Ack :=
  result.mapError .publish

end Sink

/-! ## Building -/

/-- Why a sink cannot be built (`BuildError`). -/
inductive BuildFault where
  | missingRoutingTable
  | missingTopicFactory
  deriving DecidableEq, Repr

namespace BuildFault

/-- The wording of the fault. -/
def message : BuildFault → String
  | missingRoutingTable => "decouple sink routing table is not configured"
  | missingTopicFactory => "decouple sink topic factory is not configured"

end BuildFault

/-- The parts of a sink as they come together (`DecoupleSinkBuilder`): a routing table of type `ρ`,
a factory of type `φ`, an encoder if it is not the binary one, and a timeout. -/
structure SinkBuilder (ρ φ : Type) where
  routing : Option ρ := none
  factory : Option φ := none
  encoder : Option Encoder := none
  timeout : Option Span := none

namespace SinkBuilder

variable {ρ φ : Type}

/-- The routing table, the factory and the sink (`DecoupleSinkBuilder.build`). The routing table is
missed first. -/
def build (b : SinkBuilder ρ φ) : Except BuildFault (ρ × φ × Sink) :=
  match b.routing, b.factory with
  | none, _ => .error .missingRoutingTable
  | some _, none => .error .missingTopicFactory
  | some routing, some factory =>
    .ok (routing, factory, ⟨b.encoder.getD Encoding.encode, b.timeout⟩)

end SinkBuilder

end EventIngress
