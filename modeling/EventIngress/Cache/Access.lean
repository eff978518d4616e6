import EventIngress.Cache.Basic

/-!
# Using a topic cache

A cache works with a routing table and with a factory of handles, its collaborators. Every use of
the cache asks the routing table anew, so that a handle is only given out while the route of its
broker names its topic. The exclusive lock is held from the second look at the route until the new
handle is in the cache; the handle that it displaces is closed after that. Each use is put together
from parts that hold the lock at most once, and between which other uses may come. Where a use
visits all entries, it does so in no particular order.

Results:

* `Collaborators`: what a cache works with.
* `TopicCache.peek`, `TopicCache.install`: the parts of a use that hold the shared and the exclusive
  lock, and `TopicCache.getOrCreate`: the handle of a broker.
* `TopicCache.takeAbsent`, `TopicCache.takeAll`: the removal of entries under the exclusive lock;
  `TopicCache.pruneAbsent`, `TopicCache.closeAll`: with the closing of their handles.
-/

namespace EventIngress

/-- The reply of a collaborator: an answer, unless the collaborator breaks down. -/
inductive Reply (α : Type) where
  | answer (a : α)
  | broken

/-- Why a use of a cache ends without a result. -/
inductive Stop where
  | failure (f : Failure)
  /-- A collaborator broke down. -/
  | broken

/-- What a cache works with. The state of the collaborators is a `σ`, their handles are `η`s. -/
structure Collaborators (η σ : Type) where
  /-- The route of a broker. -/
  route : BrokerIdentity → σ → Reply (Option BrokerRoute) × σ
  /-- Opens a handle. -/
  openTopic : TopicId → σ → Reply (Except OpenFault η) × σ
  /-- Closes a handle; the cache is as it is at that moment. -/
  close : TopicCache η → η → σ → σ
  /-- Takes a report. -/
  report : LogEntry → σ → σ
  /-- The order in which all entries of a cache are visited. A cache promises none. -/
  visit : (entries : List (BrokerIdentity × CacheEntry η)) → σ →
      { visited : List (BrokerIdentity × CacheEntry η) // visited.Perm entries } :=
    fun entries _ => ⟨entries, .refl entries⟩

/-- Takes reports in order. -/
def Collaborators.reportAll {η σ : Type} (k : Collaborators η σ) (entries : List LogEntry) (s : σ) :
    σ :=
  entries.foldl (fun s e => k.report e s) s

/-- A handle that was taken out of a cache, with what is reported before it is closed. -/
structure Removed (η : Type) where
  handle : η
  reports : List LogEntry := []

/-- A use of a cache. -/
abbrev CacheUse (η σ : Type) := ExceptT Stop (StateM (TopicCache η × σ))

namespace CacheUse

variable {η σ α : Type}

/-- The cache as it is. -/
def cache : CacheUse η σ (TopicCache η) :=
  return (← get).1

/-- Changes the cache. -/
def change (f : TopicCache η → α × TopicCache η) : CacheUse η σ α :=
  modifyGet fun (c, s) =>
    let (a, c) := f c
    (a, (c, s))

/-- All entries, as they are visited. -/
def visitAll (k : Collaborators η σ) : CacheUse η σ (List (BrokerIdentity × CacheEntry η)) :=
  return (k.visit (← get).1.entries.toList (← get).2).val

/-- Changes the state of the collaborators. -/
def effect (f : σ → σ) : CacheUse η σ Unit :=
  modify fun (c, s) => (c, f s)

/-- Asks a collaborator. -/
def ask (f : σ → Reply α × σ) : CacheUse η σ α := do
  let reply ← modifyGet fun (c, s) =>
    let (r, s) := f s
    (r, (c, s))
  match reply with
  | .answer a => return a
  | .broken => throw .broken

/-- Fails. -/
def fail (f : Failure) : CacheUse η σ α :=
  throw (.failure f)

/-- Makes reports. -/
def reportAll (k : Collaborators η σ) (entries : List LogEntry) : CacheUse η σ Unit :=
  effect (k.reportAll entries)

/-- Takes the lock, unless it is poisoned. -/
def lock (k : Collaborators η σ) (mode : LockMode) : CacheUse η σ Unit := do
  if (← cache).poisoned then
    reportAll k [mode.report]
    fail mode.failure

/-- Does something under the exclusive lock: the lock is poisoned where it breaks down. -/
def exclusively (action : CacheUse η σ α) : CacheUse η σ α := fun s =>
  match action s with
  | (.error .broken, (c, s)) => (.error .broken, (c.poison, s))
  | result => result

/-- The topic that the route of a broker leads to now (`TopicCache.resolve`). -/
def resolve (k : Collaborators η σ) (b : BrokerIdentity) : CacheUse η σ TopicId := do
  let route ← ask (k.route b)
  reportAll k (topicReport b route)
  match topicOf b route with
  | .ok topic => return topic
  | .error f => fail f

/-- Closes a handle that was taken out. -/
def close (k : Collaborators η σ) (r : Removed η) : CacheUse η σ Unit := do
  reportAll k r.reports
  let c ← cache
  effect (k.close c r.handle)

/-- Closes the handles that were taken out, one after another. -/
def closeEach (k : Collaborators η σ) : List (Removed η) → CacheUse η σ Unit
  | [] => return
  | r :: rest => do
    close k r
    closeEach k rest

end CacheUse

namespace TopicCache

open CacheUse

variable {η σ : Type}

/-- What `get_or_create` does under the exclusive lock: the route is looked at again, and a handle is
opened unless there is one by now. Yields the handle, and what there is to report and to close if it
is a new one. -/
def createUnderLock (k : Collaborators η σ) (b : BrokerIdentity) :
    CacheUse η σ (η × Option (LogEntry × Option (CacheEntry η))) := do
  let topic ← resolve k b
  match (← cache).hit? b topic with
  | some h => return (h, none)
  | none =>
    reportAll k [missReport b topic]
    match ← ask (k.openTopic topic) with
    | .error fault => fail (.handleOpen fault)
    | .ok h =>
      let previous ← change fun c => c.bind b ⟨h, topic⟩
      return (h, some (boundReport b topic previous, previous))

/-- What the cache holds for a broker and a topic: the look-up of `get_or_create` under the shared
lock. -/
def peek (k : Collaborators η σ) (b : BrokerIdentity) (topic : TopicId) :
    CacheUse η σ (Option η) := do
  lock k .read
  return (← cache).hit? b topic

/-- Takes the exclusive lock to get a handle for a broker, where `get_or_create` has found none. Yields
the handle, and the handle that it took the place of, which is still to be closed. -/
def install (k : Collaborators η σ) (b : BrokerIdentity) : CacheUse η σ (η × List (Removed η)) := do
  lock k .write
  let (h, created) ← exclusively (createUnderLock k b)
  match created with
  | none => return (h, [])
  | some (report, none) =>
    reportAll k [report]
    return (h, [])
  | some (report, some e) => return (h, [⟨e.handle, [report]⟩])

/-- The handle of a broker for the topic that its route names (`TopicCache.get_or_create`). It is
opened if there is none, and it takes the place of a handle for another topic. -/
def getOrCreate (k : Collaborators η σ) (b : BrokerIdentity) : CacheUse η σ η := do
  let topic ← resolve k b
  match ← peek k b topic with
  | some h => return h
  | none =>
    let (h, displaced) ← install k b
    closeEach k displaced
    return h

/-- Asks the routing table for each of the brokers, and yields those that it does not know. -/
def absentAmong (k : Collaborators η σ) : List BrokerIdentity → CacheUse η σ (List BrokerIdentity)
  | [] => return []
  | b :: bs => do
    let route ← ask (k.route b)
    let absent ← absentAmong k bs
    return if route.isNone then b :: absent else absent

/-- Takes the handles of the brokers that the routing table does not know out of the cache: what
`prune_absent` does under the exclusive lock. -/
def takeAbsent (k : Collaborators η σ) : CacheUse η σ (List (Removed η)) := do
  lock k .write
  let removed ← exclusively do
    let visited ← visitAll k
    let absent ← absentAmong k (visited.map (·.1))
    change fun c => c.prune visited absent.contains
  return removed.map fun e => ⟨e.2.handle, [pruneReport e]⟩

/-- Takes all handles out of the cache: what `close_all` does under the exclusive lock. -/
def takeAll (k : Collaborators η σ) : CacheUse η σ (List (Removed η)) := do
  lock k .write
  let visited ← visitAll k
  let removed ← change fun c => c.drain visited
  return removed.map fun e => ⟨e.2.handle, []⟩

/-- Removes and closes the handles of the brokers that the routing table does not know
(`TopicCache.prune_absent`). Yields their number. -/
def pruneAbsent (k : Collaborators η σ) : CacheUse η σ Nat := do
  let removed ← takeAbsent k
  closeEach k removed
  return removed.length

/-- Removes and closes all handles (`TopicCache.close_all`). Yields their number. -/
def closeAll (k : Collaborators η σ) : CacheUse η σ Nat := do
  let removed ← takeAll k
  closeEach k removed
  return removed.length

end TopicCache

end EventIngress
