import EventIngress.Cache.Access
import EventIngress.Routing.Memory
import EventIngress.Transport.Channel
import EventIngress.Transport.Journal
import EventIngress.Transport.Recorder

/-!
# Collaborators that can be scripted

A routing table in memory whose next answers can be laid down, and a factory whose handles belong to
one of three transports. Handles are numbered in the order in which they are opened. Each keeps the
messages that were taken on it and what the cache looked like whenever it was closed.

Results:

* `World`: the state of the collaborators.
* `World.collaborators`: the collaborators of a cache.
* `World.startPublish`, `World.withdraw`: publishing on a handle.
-/

namespace EventIngress

/-- The transport that handles belong to. -/
inductive Transport where
  /-- Each handle records its messages. -/
  | recorders
  | channel (c : Channel)
  | journal (j : Journal)

/-- What is wrong with opening handles. -/
inductive OpenTrouble where
  | unavailable (reason : String)
  | invalidTopic (reason : String)
  /-- The factory breaks down. -/
  | breaks
  deriving DecidableEq, Repr

/-- What a cache looked like when a handle was closed: its size, and the topic that the broker of
interest was bound to. -/
structure Closing where
  size : Nat
  bound : Option TopicId
  deriving DecidableEq

/-- An open or closed handle. -/
structure Handle where
  topic : TopicId
  recorder : Recorder
  closed : Bool := false
  accepted : List Message := []
  closings : List Closing := []

/-- The state of the collaborators. `lookups` and `reports` count and list what has happened since
they were last cleared; `interest` is the broker that is noted when a handle is closed. -/
structure World where
  table : MemoryTable := .empty
  script : List (Option BrokerRoute) := []
  transport : Transport := .recorders
  trouble : Option OpenTrouble := none
  gateNext : Bool := false
  refusal : Option Refusal := none
  opens : Nat := 0
  handles : List Handle := []
  lookups : Nat := 0
  reports : List LogEntry := []
  interest : Option BrokerIdentity := none

namespace World

/-! ## Collaborating with a cache -/

/-- Answers for the route of a broker, by the script as long as there is one. -/
def route (b : BrokerIdentity) (w : World) : Reply (Option BrokerRoute) × World :=
  let w := { w with lookups := w.lookups + 1 }
  match w.script with
  | r :: script => (.answer r, { w with script := script })
  | [] => (.answer (w.table.find? b), w)

/-- The fault of the transport, if it opens no handles. -/
def transportFault? : Transport → Option OpenFault
  | .channel c => c.openFault?
  | _ => none

/-- Adds a handle. A recorder is gated if a gate was asked for. -/
def addHandle (topic : TopicId) (w : World) : Nat × World :=
  let gated :=
    match w.transport with
    | .recorders => w.gateNext
    | _ => false
  let recorder : Recorder := { topic := topic, gate := if gated then some {} else none }
  (w.handles.length,
    { w with
      handles := w.handles ++ [{ topic := topic, recorder := recorder }]
      gateNext := w.gateNext && !gated })

/-- Opens a handle. -/
def openTopic (topic : TopicId) (w : World) : Reply (Except OpenFault Nat) × World :=
  let w := { w with opens := w.opens + 1 }
  match w.trouble with
  | some .breaks => (.broken, w)
  | some (.unavailable reason) => (.answer (.error (.unavailable reason)), w)
  | some (.invalidTopic reason) => (.answer (.error (.invalidTopic topic reason)), w)
  | none =>
    match transportFault? w.transport with
    | some fault => (.answer (.error fault), w)
    | none =>
      let (h, w) := w.addHandle topic
      (.answer (.ok h), w)

/-- Changes a handle. -/
def modifyHandle (w : World) (h : Nat) (f : Handle → Handle) : World :=
  { w with handles := w.handles.modify h f }

/-- Closes a handle and notes what the cache looks like. -/
def close (c : TopicCache Nat) (h : Nat) (w : World) : World :=
  let closing : Closing := ⟨c.size, w.interest.bind c.boundTopic?⟩
  w.modifyHandle h fun x => { x with closed := true, closings := x.closings ++ [closing] }

/-- Takes a report. -/
def report (e : LogEntry) (w : World) : World :=
  { w with reports := w.reports ++ [e] }

/-- The collaborators of a cache. -/
def collaborators : Collaborators Nat World where
  route := route
  openTopic := openTopic
  close := close
  report := report

/-! ## Publishing -/

/-- Notes that a message was taken on a handle. -/
def accept (w : World) (h : Nat) (m : Message) : World :=
  w.modifyHandle h fun x => { x with accepted := x.accepted ++ [m] }

/-- Starts a publish on a handle. `ticket` is the number of the publish. -/
def startPublish (w : World) (h : Nat) (ticket : Nat) (m : Message) : Progress × World :=
  match w.handles[h]? with
  | none => (.broken, w)
  | some handle =>
    let (progress, w) :=
      match w.transport with
      | .recorders =>
        let (progress, r) := handle.recorder.publish handle.closed w.refusal ticket
        (progress, w.modifyHandle h fun x => { x with recorder := r })
      | .channel c =>
        let (progress, c) := c.publish handle.topic handle.closed ticket m
        (progress, { w with transport := .channel c })
      | .journal j =>
        let (progress, j) := j.publish handle.topic handle.closed m
        (progress, { w with transport := .journal j })
    match progress with
    | .ended (.ok ack) => (.ended (.ok ack), w.accept h m)
    | other => (other, w)

/-- Gives up a waiting publish on a handle. -/
def withdraw (w : World) (h ticket : Nat) : World :=
  match w.transport with
  | .recorders => w.modifyHandle h fun x => { x with recorder := x.recorder.withdraw ticket }
  | .channel c => { w with transport := .channel (c.withdraw ticket) }
  | .journal _ => w

/-- What the journal has written. -/
def written (w : World) : Bytes :=
  match w.transport with
  | .journal j => j.written
  | _ => []

/-- Clears what is counted and listed, and sets the broker of interest. -/
def clear (w : World) (interest : Option BrokerIdentity) : World :=
  let transport : Transport :=
    match w.transport with
    | .journal j => .journal { j with written := [] }
    | other => other
  { w with lookups := 0, reports := [], interest := interest, transport := transport }

/-- Sets how the writer of the journal behaves. -/
def setWriter (w : World) (mode : WriterMode) : World :=
  match w.transport with
  | .journal j => { w with transport := .journal { j with mode := mode } }
  | _ => w

end World

end EventIngress
