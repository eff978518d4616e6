import EventIngress.Cache.Classify

/-!
# Topic caches

A topic cache holds at most one open handle for each broker, together with the topic that the handle
was opened for. What the cache does under its lock is given here step by step, as functions of the
entries; `Cache.Access` puts the steps together. A step that breaks down under the exclusive lock
leaves the lock poisoned.

Results:

* `TopicCache`, `CacheEntry`: the cache.
* `TopicCache.hit?`, `TopicCache.bind`: the look-up and the change of one entry.
* `TopicCache.prune`, `TopicCache.drain`: the removal of entries.
-/

namespace EventIngress

/-- An open handle and the topic that it was opened for. -/
structure CacheEntry (η : Type) where
  handle : η
  topic : TopicId
  deriving DecidableEq

/-- Open handles by broker. -/
structure TopicCache (η : Type) where
  entries : SortedMap BrokerIdentity (CacheEntry η) := .empty
  poisoned : Bool := false

/-- The two ways to take the lock of a cache. -/
inductive LockMode where
  | read
  | write
  deriving DecidableEq, Repr

namespace LockMode

/-- The word for a way to take the lock. -/
def word : LockMode → String
  | read => "read"
  | write => "write"

/-- The failure to take a poisoned lock (`lock_poisoned`). -/
def failure (m : LockMode) : Failure :=
  .internal ("topic cache " ++ m.word ++ " lock poisoned")

/-- What is reported of a poisoned lock. -/
def report (m : LockMode) : LogEntry :=
  { level := .error, part := .cache, text := "topic cache lock poisoned",
    values := [("mode", m.word)] }

end LockMode

namespace TopicCache

variable {η : Type}

/-- Number of brokers with a handle (`TopicCache.len`). -/
def size (c : TopicCache η) : Nat :=
  c.entries.size

/-- Whether no broker has a handle (`TopicCache.is_empty`). -/
def isEmpty (c : TopicCache η) : Bool :=
  c.entries.isEmpty

/-- The topic that the handle of a broker was opened for (`TopicCache.bound_topic`). -/
def boundTopic? (c : TopicCache η) (b : BrokerIdentity) : Option TopicId :=
  (c.entries.find? b).map (·.topic)

/-- The handle of a broker, if it was opened for this topic. -/
def hit? (c : TopicCache η) (b : BrokerIdentity) (topic : TopicId) : Option η :=
  (c.entries.find? b).bind fun e => if e.topic = topic then some e.handle else none

/-- Gives a broker a handle, and yields the entry that it had. -/
def bind (c : TopicCache η) (b : BrokerIdentity) (e : CacheEntry η) :
    Option (CacheEntry η) × TopicCache η :=
  (c.entries.find? b, { c with entries := c.entries.insert b e })

/-- Removes the entries of the brokers that are absent, and yields them in the order in which all
entries have been visited. -/
def prune (c : TopicCache η) (visited : List (BrokerIdentity × CacheEntry η))
    (absent : BrokerIdentity → Bool) : List (BrokerIdentity × CacheEntry η) × TopicCache η :=
  (visited.filter fun e => absent e.1, { c with entries := c.entries.filter fun b _ => !absent b })

/-- Removes all entries, and yields them in the order in which they have been visited. -/
def drain (c : TopicCache η) (visited : List (BrokerIdentity × CacheEntry η)) :
    List (BrokerIdentity × CacheEntry η) × TopicCache η :=
  (visited, { c with entries := .empty })

/-- Leaves the lock poisoned. -/
def poison (c : TopicCache η) : TopicCache η :=
  { c with poisoned := true }

/-! ## Reports -/

/-- What is reported before a handle is opened. -/
def missReport (b : BrokerIdentity) (topic : TopicId) : LogEntry :=
  { level := .debug, part := .cache, text := "topic cache miss",
    values := [("broker", b.text), ("topic", topic.text)] }

/-- What is reported after a handle was opened. -/
def boundReport (b : BrokerIdentity) (topic : TopicId) : Option (CacheEntry η) → LogEntry
  | none =>
    { level := .info, part := .cache, text := "opened decouple topic",
      values := [("broker", b.text), ("topic", topic.text)] }
  | some previous =>
    { level := .info, part := .cache, text := "rotated decouple topic",
      values := [("broker", b.text), ("previous_topic", previous.topic.text),
        ("topic", topic.text)] }

/-- What is reported of a removed entry. -/
def pruneReport (e : BrokerIdentity × CacheEntry η) : LogEntry :=
  { level := .info, part := .cache, text := "pruned decouple topic",
    values := [("broker", e.1.text), ("topic", e.2.topic.text)] }

end TopicCache

end EventIngress
