/-!
# Log entries

What the parts of the ingress report while they work: a level, the part that reports, a text, the
path of a file if the report is about one, and named values in a fixed order.

Results:

* `LogEntry`, `LogEntry.fields`: one report, and its named values with the path.
* `LogLevel.word`, `LogPart.name`: how levels and parts are written.
-/

namespace EventIngress

/-- How much a log entry matters. -/
inductive LogLevel where
  | trace
  | debug
  | info
  | warn
  | error
  deriving DecidableEq, Repr, Inhabited

namespace LogLevel

/-- The level in capital letters. -/
def word : LogLevel → String
  | trace => "TRACE"
  | debug => "DEBUG"
  | info => "INFO"
  | warn => "WARN"
  | error => "ERROR"

/-- The rank of a level; the more an entry matters the lower. -/
def rank : LogLevel → Nat
  | error => 1
  | warn => 2
  | info => 3
  | debug => 4
  | trace => 5

end LogLevel

/-- The parts that report. -/
inductive LogPart where
  | command
  | cache
  | routingFile
  | pubSub
  deriving DecidableEq, Repr

namespace LogPart

/-- The name under which a part reports. -/
def name : LogPart → String
  | command => "decouple_ingress"
  | cache => "decouple_ingress::cache"
  | routingFile => "decouple_ingress::routing::file"
  | pubSub => "decouple_ingress::transport::pubsub"

end LogPart

/-- One report. -/
structure LogEntry where
  level : LogLevel
  part : LogPart
  text : String
  /-- The file that the report is about. -/
  path : Option String := none
  values : List (String × String) := []
  deriving DecidableEq, Repr

/-- The named values as they are written: the path of the file stands before all others. -/
def LogEntry.fields (e : LogEntry) : List (String × String) :=
  e.path.toList.map (("path", ·)) ++ e.values

end EventIngress
