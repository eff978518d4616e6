import EventIngress.Command.Arguments
import EventIngress.Command.Outcome
import EventIngress.Sink.Basic
import EventIngress.Transport.Journal

/-!
# Sending one event

First all that is needed is put together, and nothing is written until that has succeeded. Then the
event goes through a sink whose cache is empty, and at the end all handles are closed.

Results:

* `SendPlan.make`: what is needed for a send.
* `SendPlan.deliver`: the send itself.
* `SendOptions.run`: both, and what they leave.
-/

namespace EventIngress

/-! ## Transports -/

/-- Where the messages of a send go. -/
inductive Outlet where
  | journal (j : Journal)
  | pubSub (f : PubSubFactory)

/-- An open handle of an outlet. -/
inductive OutletHandle where
  | journal (topic : TopicId)
  | pubSub (h : PubSubHandle)

/-- The outlet of the settings (`build_sink`). -/
def Outlet.make (env : Environment) : TransportSettings → Except CommandFault Outlet
  | .journal => .ok (.journal {})
  | .pubSub settings =>
    match settings.resolve env with
    | .error fault => .error (.config fault)
    | .ok config =>
      match PubSubFactory.make config with
      | .error fault => .error (.transport fault)
      | .ok factory => .ok (.pubSub factory)

/-- What the sink of a send works with, and what has been written so far. -/
structure Relay where
  table : FileTable
  outlet : Outlet
  notices : List Notice := []

namespace Relay

/-- Writes a notice. -/
def note (n : Notice) (r : Relay) : Relay :=
  { r with notices := r.notices ++ [n] }

/-- Opens the handle of a topic. -/
def openTopic (topic : TopicId) (r : Relay) : Except OpenFault OutletHandle :=
  match r.outlet with
  | .journal _ => .ok (.journal topic)
  | .pubSub f => (f.openTopic topic).map .pubSub

/-- Closes a handle. -/
def close (h : OutletHandle) (r : Relay) : Relay :=
  match h with
  | .journal _ => r
  | .pubSub h => h.close.1.foldl (fun r entry => r.note (.report entry)) r

/-- The collaborators of a cache. -/
def collaborators : Collaborators OutletHandle Relay where
  route b r := (.answer (r.table.route? b), r)
  openTopic topic r := (.answer (r.openTopic topic), r)
  close _ h r := r.close h
  report entry r := r.note (.report entry)

/-- Publishes a message on an open handle. -/
def publish (exchange : HttpRequest → Exchange) (h : OutletHandle) (m : Message) (r : Relay) :
    Except PublishFault Ack × Relay :=
  match h, r.outlet with
  | .pubSub h, _ => ((h.publish m exchange).2, r)
  | .journal topic, .pubSub _ => (.error (.closed topic), r)
  | .journal topic, .journal j =>
    match j.publish topic false m with
    | (.ended result, after) =>
      (result,
        { r with
          outlet := .journal { after with written := [] }
          notices := r.notices ++ [.record after.written] })
    | (_, after) =>
      (.error (.transport "log writer stopped"), { r with outlet := .journal after })

end Relay

/-! ## What a send needs -/

/-- Largest size of the file of an event (`MAX_EVENT_BYTES`). -/
def maxEventBytes : Nat := 1024 * 1024

/-- The bytes of a file of limited size (`read_bytes_with_limit`). The size is looked at before the
file is read, and no more is read than is needed to see that the file is larger. -/
def readLimited (files : FileTree) (path : String) (limit : Nat) : Except CommandFault Bytes :=
  match files.size path with
  | .error fault => .error (.eventFile path fault)
  | .ok size =>
    if limit < size then .error (.eventSize path size limit)
    else
      match files.readUpTo path (limit + 1) with
      | .error fault => .error (.eventFile path fault)
      | .ok content =>
        if limit < content.length then .error (.eventSize path content.length limit)
        else .ok content

/-- The event in a file (`read_event`); it obeys all rules. -/
def readEvent (files : FileTree) (path : String) : Except CommandFault Event :=
  match readLimited files path maxEventBytes with
  | .error fault => .error fault
  | .ok content =>
    match Event.ofDocument content with
    | .error fault => .error (.eventDocument path fault)
    | .ok event =>
      match event.fault? with
      | some fault => .error (.event path fault)
      | none => .ok event

/-- The trace context of the options (`parse_trace`). -/
def SendOptions.trace (o : SendOptions) : Except CommandFault (Option TraceContext) :=
  match o.traceparent with
  | none => .ok none
  | some text =>
    match TraceContext.parse text with
    | .error fault => .error (.traceparent fault)
    | .ok trace =>
      match o.tracestate with
      | none => .ok (some trace)
      | some state => .ok (some (trace.withTracestate state))

/-- All that is needed for a send. -/
structure SendPlan where
  broker : BrokerIdentity
  event : Event
  context : SendContext
  sink : Sink
  relay : Relay

/-- Puts together what is needed for a send. What is missed first is reported. -/
def SendPlan.make (files : FileTree) (env : Environment) (config : IngressConfig)
    (o : SendOptions) : Except CommandFault SendPlan := do
  let broker ← (BrokerIdentity.parse o.broker).mapError .broker
  let event ← readEvent files o.event
  let trace ← o.trace
  let table ← (FileTable.openFile files config.routing.path config.routing.maxBytes).mapError
    (.routing config.routing.path)
  let outlet ← Outlet.make env config.transport
  return {
    broker := broker
    event := event
    context := { trace := trace }
    sink := { timeout := config.publish.timeoutMillis.map .ofMillis }
    relay := { table := table, outlet := outlet } }

/-! ## The send -/

/-- The failure of a send that does not get to its publish. -/
def Stop.toFailure : Stop → Failure
  | .failure f => f
  | .broken => .internal "a collaborator broke down"

/-- Sends the event and closes all handles: `send_to`, and then `shutdown` whatever came of it. -/
def SendPlan.deliver (exchange : HttpRequest → Exchange) (p : SendPlan) :
    Except Failure Ack × List Notice :=
  let prepared := (p.sink.prepare Relay.collaborators p.broker p.event p.context).run.run
    ({}, p.relay)
  match prepared with
  | (.error stop, (cache, relay)) =>
    let (_, (_, relay)) := (TopicCache.closeAll Relay.collaborators).run.run (cache, relay)
    (.error stop.toFailure, relay.notices)
  | (.ok (h, m), (cache, relay)) =>
    let (result, relay) := relay.publish exchange h m
    let (_, (_, relay)) := (TopicCache.closeAll Relay.collaborators).run.run (cache, relay)
    (Sink.outcome result, relay.notices)

/-- What `command_send` reports of a message that was taken. -/
def publishedReport (b : BrokerIdentity) (ack : Ack) : LogEntry :=
  { level := .info, part := .command, text := "event published",
    values := [("broker", b.text), ("topic", ack.topic.text), ("message_id", ack.messageId)] }

/-- The line of output for a message that was taken (`ack_json`). -/
def ackLine (b : BrokerIdentity) (ack : Ack) : String :=
  Bytes.lossyText (Json.writeObject
    [("broker", Json.writeText b.text), ("message_id", Json.writeText ack.messageId),
      ("topic_id", Json.writeText ack.topic.text)])

namespace SendOptions

/-- Sends an event with settings that have been read. -/
def runWith (files : FileTree) (env : Environment) (exchange : HttpRequest → Exchange)
    (config : IngressConfig) (o : SendOptions) : Outcome :=
  match SendPlan.make files env config o with
  | .error fault => .refused fault
  | .ok plan =>
    match plan.deliver exchange with
    | (.error failure, notices) => .stopped (.send failure) notices
    | (.ok ack, notices) =>
      { output := [ackLine plan.broker ack]
        notices := notices ++ [.report (publishedReport plan.broker ack)] }

/-- Sends an event (`command_send`). -/
def run (files : FileTree) (env : Environment) (exchange : HttpRequest → Exchange)
    (o : SendOptions) : Outcome :=
  match IngressConfig.load files o.config env with
  | .error fault => .refused (.config fault)
  | .ok config => (o.runWith files env exchange config).logged (.ofSettings config.log env)

end SendOptions

end EventIngress
