import EventIngress.Proofs.Cache.Parts
import EventIngress.Sink.Basic

/-!
# Calls of a cache, turn by turn

Several callers use a cache side by side. A call goes on in turns: each turn is a part of the use
that holds the lock at most once, or the closing of one handle. Between two turns of a call there
may be any turns of others, and what is outside the cache may change in any way.

* Getting a handle: a look at the route; a look into the cache under the shared lock; the exclusive
  section `TopicCache.install`; the closing of the displaced handle; the return.
* Sending: the same, and then the event is encoded and its message published on the handle.
* Pruning and closing all: the exclusive section; the closing of one removed handle after another;
  the return.

The collaborators are arbitrary. What they are asked for and what they answer is recorded.

Results:

* `CacheEvent`, `Collaborators.recorded`: the record.
* `Call`, `Call.advance`: how far a call has come, and a turn of it.
* `Call.advance_rest`: the turns of a call make up the use of the cache that the call stands for.
-/

namespace EventIngress

/-! ## The record -/

/-- What the uses of a cache and its collaborators do together. -/
inductive CacheEvent (η : Type) where
  /-- The route of a broker was asked for. -/
  | asked (b : BrokerIdentity) (route : Option BrokerRoute)
  /-- A handle was opened for a topic, by a call for a broker. -/
  | opened (caller : Option BrokerIdentity) (h : η) (t : TopicId)
  | closed (h : η)
  deriving DecidableEq

namespace CacheEvent

variable {η : Type}

/-- The handle that was opened. -/
def opened? : CacheEvent η → Option η
  | opened _ h _ => some h
  | _ => none

/-- The handle that was closed. -/
def closed? : CacheEvent η → Option η
  | closed h => some h
  | _ => none

end CacheEvent

/-- Collaborators that keep a record of what they do for a call. -/
def Collaborators.recorded {η σ : Type} (k : Collaborators η σ) (caller : Option BrokerIdentity) :
    Collaborators η (σ × List (CacheEvent η)) where
  route b s :=
    match k.route b s.1 with
    | (.answer a, w) => (.answer a, (w, s.2 ++ [.asked b a]))
    | (.broken, w) => (.broken, (w, s.2))
  openTopic t s :=
    match k.openTopic t s.1 with
    | (.answer (.ok h), w) => (.answer (.ok h), (w, s.2 ++ [.opened caller h t]))
    | (.answer (.error fault), w) => (.answer (.error fault), (w, s.2))
    | (.broken, w) => (.broken, (w, s.2))
  close c h s := (k.close c h s.1, s.2 ++ [.closed h])
  report e s := (k.report e s.1, s.2)
  visit entries s := k.visit entries s.1

/-! ## Calls -/

/-- What a handle is wanted for. -/
inductive Purpose where
  /-- The handle itself is the result. -/
  | handle
  /-- An event is sent: its message, if it has one, is published on the handle. -/
  | sending (message : Except EncodeFault Message)

/-- How a call ended. -/
inductive Ending (η : Type) where
  /-- It yielded the handle of a broker. -/
  | got (b : BrokerIdentity) (h : η)
  /-- It had the handle of a broker, and this came of the send. -/
  | sent (b : BrokerIdentity) (h : η) (result : Except Failure Ack)
  /-- It removed this many handles. -/
  | removed (count : Nat)
  /-- It had no result. -/
  | stopped (caller : Option BrokerIdentity) (why : Stop)

/-- How far a call has come: one of `get_or_create`, `send_to`, `prune_absent` or `close_all`. -/
inductive Call (η : Type) where
  /-- Will look at the route. -/
  | resolving (b : BrokerIdentity) (p : Purpose)
  /-- Will look into the cache for the topic that the route named. -/
  | peeking (b : BrokerIdentity) (p : Purpose) (t : TopicId)
  /-- Will take the exclusive lock. -/
  | installing (b : BrokerIdentity) (p : Purpose)
  /-- Has the handle; will close what it displaced, and return. -/
  | returning (b : BrokerIdentity) (p : Purpose) (h : η) (rest : List (Removed η))
  /-- Has the handle and a message; will publish it. -/
  | publishing (b : BrokerIdentity) (h : η) (m : Message)
  /-- Will take the exclusive lock to remove the handles of absent brokers. -/
  | pruning
  /-- Will take the exclusive lock to remove all handles. -/
  | emptying
  /-- Has removed handles; will close the rest of them, and return. -/
  | closing (rest : List (Removed η)) (count : Nat)
  | ended (e : Ending η)

/-- What can be asked of a cache. -/
inductive Task where
  | get (b : BrokerIdentity) (p : Purpose)
  | prune
  | closeAll

/-- A call that begins. -/
def Task.call {η : Type} : Task → Call η
  | get b p => .resolving b p
  | prune => .pruning
  | closeAll => .emptying

/-- What follows when the handle is there. -/
def Purpose.next {η : Type} (b : BrokerIdentity) (h : η) : Purpose → Call η
  | handle => .ended (.got b h)
  | sending (.ok m) => .publishing b h m
  | sending (.error fault) => .ended (.sent b h (.error (.encode fault)))

namespace Call

variable {η σ : Type}

/-- The broker that a call is for. -/
def broker? : Call η → Option BrokerIdentity
  | resolving b _ => some b
  | peeking b _ _ => some b
  | installing b _ => some b
  | returning b _ _ _ => some b
  | publishing b _ _ => some b
  | pruning => none
  | emptying => none
  | closing _ _ => none
  | ended (.got b _) => some b
  | ended (.sent b _ _) => some b
  | ended (.removed _) => none
  | ended (.stopped caller _) => caller

/-- The handles that a call is still to close. -/
def toClose : Call η → List η
  | returning _ _ _ rest => rest.map (·.handle)
  | closing rest _ => rest.map (·.handle)
  | _ => []

/-- Whether a call may yet end without a result: it needs the route, the lock or a handle. -/
def mayStop : Call η → Bool
  | resolving _ _ => true
  | peeking _ _ _ => true
  | installing _ _ => true
  | pruning => true
  | emptying => true
  | _ => false

/-- Whether a call has not ended. -/
def inFlight : Call η → Bool
  | ended _ => false
  | _ => true

/-- Whether a call is getting its handle. -/
def getting : Call η → Bool
  | resolving _ _ => true
  | peeking _ _ _ => true
  | installing _ _ => true
  | returning _ _ _ _ => true
  | _ => false

/-- The handle that a call has got, with its broker. -/
def handle? : Call η → Option (BrokerIdentity × η)
  | returning b _ h _ => some (b, h)
  | publishing b h _ => some (b, h)
  | ended (.got b h) => some (b, h)
  | ended (.sent b h _) => some (b, h)
  | _ => none

open CacheUse TopicCache

/-- A turn of a call. A publish is answered by the transport, not by a turn. -/
def advance (k : Collaborators η σ) : Call η → CacheUse η σ (Call η)
  | resolving b p => do return peeking b p (← resolve k b)
  | peeking b p t => do
    match ← peek k b t with
    | some h => return returning b p h []
    | none => return installing b p
  | installing b p => do
    let (h, displaced) ← install k b
    return returning b p h displaced
  | returning b p h [] => return p.next b h
  | returning b p h (r :: rest) => do
    close k r
    return returning b p h rest
  | publishing b h m => return publishing b h m
  | pruning => do
    let removed ← takeAbsent k
    return closing removed removed.length
  | emptying => do
    let removed ← takeAll k
    return closing removed removed.length
  | closing [] count => return ended (.removed count)
  | closing (r :: rest) count => do
    close k r
    return closing rest count
  | ended e => return ended e

/-- All that a call has left to do, without a pause. -/
def rest (k : Collaborators η σ) : Call η → CacheUse η σ (Call η)
  | resolving b p => return p.next b (← getOrCreate k b)
  | peeking b p t => do
    match ← peek k b t with
    | some h => return p.next b h
    | none =>
      let (h, displaced) ← install k b
      closeEach k displaced
      return p.next b h
  | installing b p => do
    let (h, displaced) ← install k b
    closeEach k displaced
    return p.next b h
  | returning b p h displaced => do
    closeEach k displaced
    return p.next b h
  | publishing b h m => return publishing b h m
  | pruning => return ended (.removed (← pruneAbsent k))
  | emptying => return ended (.removed (← closeAll k))
  | closing removed count => do
    closeEach k removed
    return ended (.removed count)
  | ended e => return ended e

/-- The turns of a call, one after another, are the use of the cache that it stands for. -/
theorem advance_rest (k : Collaborators η σ) (c : Call η) : c.advance k >>= rest k = c.rest k := by
  cases c with
  | resolving b p =>
    rw [advance, rest, getOrCreate]
    simp only [bind_assoc, pure_bind]
    refine bind_congr fun t => ?_
    rw [rest]
    refine bind_congr fun found => ?_
    cases found with
    | some h => rfl
    | none => simp only [bind_assoc, pure_bind]
  | peeking b p t =>
    rw [advance, rest]
    simp only [bind_assoc]
    refine bind_congr fun found => ?_
    cases found with
    | some h => rfl
    | none => rfl
  | installing b p =>
    rw [advance, rest]
    simp only [bind_assoc, pure_bind]
    rfl
  | returning b p h displaced =>
    cases displaced with
    | nil =>
      rw [advance, pure_bind, rest, closeEach, pure_bind]
      rcases p with _ | (_ | _) <;> rfl
    | cons r displaced =>
      rw [advance, rest, closeEach]
      simp only [bind_assoc, pure_bind]
      rfl
  | publishing b h m => rfl
  | pruning =>
    rw [advance, rest, pruneAbsent]
    simp only [bind_assoc, pure_bind]
    rfl
  | emptying =>
    rw [advance, rest, closeAll]
    simp only [bind_assoc, pure_bind]
    rfl
  | closing removed count =>
    cases removed with
    | nil => rfl
    | cons r removed =>
      rw [advance, rest, closeEach]
      simp only [bind_assoc, pure_bind]
      rfl
  | ended e => rfl

end Call

end EventIngress
