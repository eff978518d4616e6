import EventIngress.Routing.Route

/-!
# Routing tables in memory

Results:

* `MemoryTable`: routes by broker, with `upsert`, `remove` and `replace`.
-/

namespace EventIngress

/-- Routes by broker (`InMemoryRoutingTable`). -/
abbrev MemoryTable := SortedMap BrokerIdentity BrokerRoute

namespace MemoryTable

/-- Sets the route of a broker and yields the route that it had (`InMemoryRoutingTable.upsert`). -/
def upsert (t : MemoryTable) (b : BrokerIdentity) (r : BrokerRoute) :
    Option BrokerRoute × MemoryTable :=
  (t.find? b, t.insert b r)

/-- Removes the route of a broker and yields the route that it had
(`InMemoryRoutingTable.remove`). -/
def remove (t : MemoryTable) (b : BrokerIdentity) : Option BrokerRoute × MemoryTable :=
  (t.find? b, t.erase b)

/-- The table of a list of routes (`InMemoryRoutingTable.replace`); of several routes of one broker,
the last counts. -/
def replace (routes : List (BrokerIdentity × BrokerRoute)) : MemoryTable :=
  .ofList routes

end MemoryTable

end EventIngress
