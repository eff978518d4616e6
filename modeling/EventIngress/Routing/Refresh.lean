import EventIngress.Cache.Classify
import EventIngress.Routing.File

/-!
# Refreshing routing tables

A refresh renews a file table at every multiple of its period after its start, as long as the table
is in use. It does not keep the table in use itself: once the table has been dropped, the refresh
ends at its next tick.

Time is counted in units of a clock. How many of them make a millisecond is left open, so a period
may be any whole number of nanoseconds just as well as one of milliseconds.

Results:

* `Refresh`, `RoutingSite.startRefresh`: a refresh and its schedule.
* `RoutingSite`: files, a table in use, and the refreshes of tables, under one clock.
* `RoutingSite.advance`: lets time pass.
-/

namespace EventIngress

/-- Smallest period of a refresh in milliseconds, `MIN_REFRESH_INTERVAL`. -/
def Refresh.minMillis : Nat := 1

/-- A refresh. Times are in units of the clock. -/
structure Refresh where
  /-- The number of the table that is renewed. -/
  table : Nat
  period : Nat
  next : Nat
  ended : Bool := false
  period_pos : 0 < period
  deriving DecidableEq

/-- Files, the table in use, and refreshes. Each table that comes into use has a number of its
own. -/
structure RoutingSite where
  files : FileTree := .empty
  /-- How many units of the clock make a millisecond. -/
  perMilli : Nat := 1
  /-- The time in units of the clock. -/
  now : Nat := 0
  table : Option FileTable := none
  tableNumber : Nat := 0
  refreshes : List Refresh := []
  perMilli_pos : 0 < perMilli := by decide

namespace RoutingSite

/-- Opens a table; with success it takes the place of the one in use. -/
def openTable (h : RoutingSite) (path : String) (limit : Nat) :
    Except LoadFault (FileTable × RoutingSite) :=
  (FileTable.openFile h.files path limit).map fun t =>
    (t, { h with table := some t, tableNumber := h.tableNumber + 1 })

/-- Drops the table in use. -/
def dropTable (h : RoutingSite) : RoutingSite :=
  { h with table := none }

/-- Renews the table in use. -/
def reload (h : RoutingSite) (t : FileTable) :
    Except LoadFault Nat × List LogEntry × RoutingSite :=
  match t.reload h.files with
  | .error fault => (.error fault, [], h)
  | .ok (t, brokers) => (.ok brokers, [t.reloadReport brokers], { h with table := some t })

/-- The smallest period of a refresh in units of the clock. -/
def minPeriod (h : RoutingSite) : Nat :=
  Refresh.minMillis * h.perMilli

theorem minPeriod_pos (h : RoutingSite) : 0 < h.minPeriod :=
  Nat.mul_pos Nat.one_pos h.perMilli_pos

/-- A refresh of the table in use that starts now; its first tick is one period away. An interval
below the smallest period is raised to it. -/
def newRefresh (h : RoutingSite) (interval : Nat) : Refresh where
  table := h.tableNumber
  period := max interval h.minPeriod
  next := h.now + max interval h.minPeriod
  period_pos := Nat.lt_of_lt_of_le h.minPeriod_pos (Nat.le_max_right _ _)

/-- Starts a refresh of the table in use, `spawn_refresh`. -/
def startRefresh (h : RoutingSite) (interval : Nat) : RoutingSite :=
  { h with refreshes := h.refreshes ++ [h.newRefresh interval] }

/-- Whether the refresh that was started last has ended; nothing if there was none. -/
def lastEnded (h : RoutingSite) : Option Bool :=
  h.refreshes.getLast?.map (·.ended)

/-- Ends the refresh that was started last. -/
def abortLast (h : RoutingSite) : RoutingSite :=
  { h with
    refreshes := h.refreshes.dropLast ++
      (h.refreshes.getLast?.map fun r => { r with ended := true }).toList }

/-! ## Ticks -/

/-- One tick of a refresh, one round of the loop in `spawn_refresh`: a renewal of its table, or its end
if that is not in use any more. -/
def tick (h : RoutingSite) (r : Refresh) : Refresh × List LogEntry × RoutingSite :=
  match h.table with
  | some t =>
    if r.table = h.tableNumber then
      let next := { r with next := r.next + r.period }
      match h.reload t with
      | (.ok _, reports, h) => (next, reports, h)
      | (.error fault, reports, h) => (next, reports ++ [t.refreshReport fault], h)
    else ({ r with ended := true }, [], h)
  | none => ({ r with ended := true }, [], h)

/-- The time of the next tick up to `limit`, if there is one. -/
def nextTick (h : RoutingSite) (limit : Nat) : Option Nat :=
  ((h.refreshes.filter fun r => !r.ended && r.next ≤ limit).map (·.next)).min?

/-- Lets all refreshes tick whose time has come. -/
def tickAll (h : RoutingSite) : List Refresh → List LogEntry × RoutingSite
  | [] => ([], h)
  | r :: rs =>
    let (r, reports, h) := if !r.ended && r.next ≤ h.now then h.tick r else (r, [], h)
    let (more, h) := h.tickAll rs
    (reports ++ more, { h with refreshes := r :: h.refreshes })

/-- Lets the ticks up to a time happen in their order. `steps` bounds the number of instants with
ticks. -/
def runTicks : (steps limit : Nat) → RoutingSite → List LogEntry × RoutingSite
  | 0, limit, h => ([], { h with now := limit })
  | steps + 1, limit, h =>
    match h.nextTick limit with
    | none => ([], { h with now := limit })
    | some time =>
      let (reports, h) := tickAll { h with now := time, refreshes := [] } h.refreshes
      let (more, h) := runTicks steps limit h
      (reports ++ more, h)

/-- Lets time pass. There is at most one instant with ticks for each unit of the clock. -/
def advance (h : RoutingSite) (units : Nat) : List LogEntry × RoutingSite :=
  runTicks (units + 1) (h.now + units) h

end RoutingSite

end EventIngress
