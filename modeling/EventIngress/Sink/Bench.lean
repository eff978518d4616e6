import EventIngress.Sink.Basic
import EventIngress.Sink.World

/-!
# A sink under a virtual clock

A sink with scripted collaborators, and sends that go on in the background. The clock counts
milliseconds and moves only when everything that goes on is waiting. A send that waits is given up
as soon as the clock reaches its deadline, which is its timeout in full milliseconds after its
start.

Results:

* `Bench`: the sink, its cache, its collaborators, the clock and what waits.
* `Bench.send`, `Bench.sendInBackground`, `Bench.publish`: starting sends and publishes.
* `Bench.join`, `Bench.cancel`, `Bench.advance`: waiting for sends, giving them up, passing time.
* `Bench.receive`, `Bench.hangUp`, `Bench.release`: the other end of the transports.
-/

namespace EventIngress

/-- How a send ends. -/
inductive SendResult where
  | ended (result : Except Failure Ack)
  /-- A collaborator broke down. -/
  | broken

/-- A publish that waits. `name` is the name of the send in the background that it belongs to;
`limit` is the deadline and the timeout that it comes from. -/
structure WaitingPublish where
  ticket : Nat
  handle : Nat
  message : Message
  name : Option String := none
  limit : Option (Nat × Span) := none

/-- A sink with its surroundings. `ended` holds the results of the sends in the background that
nobody has asked for yet. -/
structure Bench where
  sink : Sink := {}
  cache : TopicCache Nat := {}
  world : World := {}
  now : Nat := 0
  tickets : Nat := 0
  waiting : List WaitingPublish := []
  ended : List (String × SendResult) := []

namespace Bench

/-! ## Using the cache -/

/-- Uses the cache. -/
def run {α : Type} (t : Bench) (use : CacheUse Nat World α) : Except Stop α × Bench :=
  let (result, (cache, world)) := use.run.run (t.cache, t.world)
  (result, { t with cache := cache, world := world })

/-- The handle of a broker (`get_or_create`). -/
def get (t : Bench) (b : BrokerIdentity) : Except Stop Nat × Bench :=
  t.run (TopicCache.getOrCreate World.collaborators b)

/-- Gets the handle of a broker several times. -/
def getTimes (t : Bench) (b : BrokerIdentity) : Nat → List (Except Stop Nat) × Bench
  | 0 => ([], t)
  | n + 1 =>
    let (first, t) := t.get b
    let (rest, t) := getTimes t b n
    (first :: rest, t)

/-- Removes the handles of brokers without a route (`prune_absent`). -/
def prune (t : Bench) : Except Stop Nat × Bench :=
  t.run (TopicCache.pruneAbsent World.collaborators)

/-- Removes all handles (`DecoupleSink.shutdown`). -/
def closeAll (t : Bench) : Except Stop Nat × Bench :=
  t.run (TopicCache.closeAll World.collaborators)

/-- Closes a handle, whether the cache holds it or not. -/
def close (t : Bench) (h : Nat) : Bench :=
  { t with world := t.world.close t.cache h }

/-! ## Ends of publishes -/

/-- Notes the result of a send in the background. -/
def note (t : Bench) (name : Option String) (result : SendResult) : Bench :=
  match name with
  | none => t
  | some name => { t with ended := t.ended ++ [(name, result)] }

/-- Ends a waiting publish. -/
def conclude (t : Bench) (ticket : Nat) (result : Except PublishFault Ack) : Bench :=
  match t.waiting.find? fun w => w.ticket == ticket with
  | none => t
  | some w =>
    let world :=
      match result with
      | .ok _ => t.world.accept w.handle w.message
      | .error _ => t.world
    let t := { t with world := world, waiting := t.waiting.filter fun w => w.ticket != ticket }
    t.note w.name (.ended (Sink.outcome result))

/-- Gives up a waiting publish. -/
def giveUp (t : Bench) (w : WaitingPublish) : Bench :=
  { t with
    world := t.world.withdraw w.handle w.ticket
    waiting := t.waiting.filter fun x => x.ticket != w.ticket }

/-! ## Time -/

/-- Gives up a publish that has reached its deadline. -/
def expire (t : Bench) (w : WaitingPublish) : Bench :=
  match w.limit with
  | none => t
  | some (_, timeout) => (t.giveUp w).note w.name (.ended (.error (.cancelled timeout)))

/-- Lets the clock go on to a time; the publishes whose deadlines it reaches are given up. -/
def passUntil (t : Bench) (time : Nat) : Bench :=
  let due := t.waiting.filter fun w => w.limit.any fun l => l.1 ≤ time
  { due.foldl expire t with now := max t.now time }

/-- The deadline of a timeout that starts now. -/
def deadline (t : Bench) (timeout : Span) : Nat :=
  t.now + (timeout.nanos + 999999) / 1000000

/-- How long a step waits for a result: one second. -/
def patience : Nat := 1000

/-! ## Sending -/

/-- Where a started send stands. -/
inductive Started where
  | ended (result : SendResult)
  /-- The publish waits; this is its number. -/
  | waiting (ticket : Nat)

/-- Starts a send. -/
def start (t : Bench) (b : BrokerIdentity) (e : Event) (ctx : SendContext)
    (name : Option String) : Started × Bench :=
  match t.run (t.sink.prepare World.collaborators b e ctx) with
  | (.error (.failure f), t) => (.ended (.ended (.error f)), t)
  | (.error .broken, t) => (.ended .broken, t)
  | (.ok (h, m), t) =>
    let ticket := t.tickets
    let (progress, world) := t.world.startPublish h ticket m
    let t := { t with world := world, tickets := ticket + 1 }
    match progress with
    | .ended result => (.ended (.ended (Sink.outcome result)), t)
    | .broken => (.ended .broken, t)
    | .waiting =>
      let limit := (t.sink.timeoutFor ctx).map fun timeout => (t.deadline timeout, timeout)
      let w : WaitingPublish := ⟨ticket, h, m, name, limit⟩
      (.waiting ticket, { t with waiting := t.waiting ++ [w] })

/-- Sends an event and waits for the result (`DecoupleSink.send_to`). There is none if the publish
waits without end. -/
def send (t : Bench) (b : BrokerIdentity) (e : Event) (ctx : SendContext) :
    Option SendResult × Bench :=
  match t.start b e ctx none with
  | (.ended result, t) => (some result, t)
  | (.waiting ticket, t) =>
    match (t.waiting.find? fun w => w.ticket == ticket).bind (·.limit) with
    | none => (none, t)
    | some (time, timeout) => (some (.ended (.error (.cancelled timeout))), t.passUntil time)

/-- Starts a send that goes on in the background under a name. -/
def sendInBackground (t : Bench) (name : String) (b : BrokerIdentity) (e : Event)
    (ctx : SendContext) : Bench :=
  match t.start b e ctx (some name) with
  | (.ended result, t) => t.note (some name) result
  | (.waiting _, t) => t.passUntil t.now

/-- Publishes a message on a handle. There is no result if the publish waits; it goes on waiting. -/
def publish (t : Bench) (h : Nat) (m : Message) : Option Progress × Bench :=
  match t.world.handles[h]? with
  | none => (none, t)
  | some _ =>
    let ticket := t.tickets
    let (progress, world) := t.world.startPublish h ticket m
    let t := { t with world := world, tickets := ticket + 1 }
    match progress with
    | .waiting =>
      let w : WaitingPublish := { ticket := ticket, handle := h, message := m }
      (some .waiting, { t with waiting := t.waiting ++ [w] }.passUntil (t.now + patience))
    | other => (some other, t)

/-! ## Sends in the background -/

/-- What is known of a send in the background. -/
inductive Joined where
  | ended (result : SendResult)
  | waiting

/-- Takes the result of a send in the background if there is one. -/
def takeEnded (t : Bench) (name : String) : Option SendResult × Bench :=
  match t.ended.find? fun e => e.1 == name with
  | none => (none, t)
  | some (_, result) => (some result, { t with ended := t.ended.filter fun e => e.1 != name })

/-- Waits for a send in the background, up to a second. Nothing for a name that is not known. -/
def join (t : Bench) (name : String) : Option Joined × Bench :=
  match t.takeEnded name with
  | (some result, t) => (some (.ended result), t)
  | (none, t) =>
    match t.waiting.find? fun w => w.name == some name with
    | none => (none, t)
    | some w =>
      let limit := t.now + patience
      let time := (w.limit.map (·.1)).getD (limit + 1)
      match (t.passUntil (min time limit)).takeEnded name with
      | (some result, t) => (some (.ended result), t)
      | (none, t) => (some .waiting, t)

/-- Gives up a send in the background. Nothing for a name that is not known. -/
def cancel (t : Bench) (name : String) : Option Bench :=
  match t.takeEnded name with
  | (some _, t) => some t
  | (none, t) => (t.waiting.find? fun w => w.name == some name).map t.giveUp

/-- The names of the sends in the background that have ended, in order. -/
def endedNames (t : Bench) : List String :=
  (t.ended.map (·.1)).mergeSort (fun a b => decide (a ≤ b))

/-- Lets time pass. -/
def advance (t : Bench) (millis : Nat) : Bench :=
  t.passUntil (t.now + millis)

/-! ## The other end of the transports -/

/-- Adds a permit at the gate of a handle. Nothing for a handle that does not exist. -/
def release (t : Bench) (h : Nat) : Option Bench :=
  t.world.handles[h]?.map fun handle =>
    let (done, recorder) := handle.recorder.release t.world.refusal
    let t := { t with world := t.world.modifyHandle h fun x => { x with recorder := recorder } }
    match done with
    | none => t
    | some (ticket, result) => t.conclude ticket result

/-- Receives a delivery from the channel. -/
def receive (t : Bench) : Option Delivery × Bench :=
  match t.world.transport with
  | .channel c =>
    let (d, done, c) := c.receive
    let t := { t with world := { t.world with transport := .channel c } }
    match done with
    | none => (d, t)
    | some (ticket, ack) => (d, t.conclude ticket (.ok ack))
  | _ => (none, t)

/-- Drops the receiving end of the channel. -/
def hangUp (t : Bench) : Bench :=
  match t.world.transport with
  | .channel c =>
    let (tickets, c) := c.hangUp
    let t := { t with world := { t.world with transport := .channel c } }
    tickets.foldl (fun t ticket => t.conclude ticket (.error (.transport Channel.hungUp))) t
  | _ => t

end Bench

end EventIngress
