import EventIngress.Config.File
import EventIngress.Event.Document
import EventIngress.Log.Filter
import EventIngress.Log.Line
import EventIngress.Routing.File
import EventIngress.Trace

/-!
# What comes out of a command

A command ends well or not. On its way it writes lines of output, and notices: log entries, records
of a journal, and at the end the fault that has stopped it.

Results:

* `CommandFault`, `CommandFault.message`: why a command stops.
* `Logging`: which log entries are kept and how they are written.
* `Outcome`: what a command leaves.
-/

namespace EventIngress

/-! ## Faults -/

/-- Why a command stops (`CliError`). -/
inductive CommandFault where
  | config (fault : ConfigFault)
  | broker (fault : BrokerFault)
  /-- The file of the event cannot be read. -/
  | eventFile (path : String) (fault : FileFault)
  /-- The file of the event is larger than allowed. -/
  | eventSize (path : String) (size limit : Nat)
  /-- The file of the event holds no event. -/
  | eventDocument (path : String) (fault : Json.Fault)
  /-- The event breaks a rule. -/
  | event (path : String) (fault : EventFault)
  | traceparent (fault : TraceFault)
  | routing (path : String) (fault : LoadFault)
  /-- The transport cannot be set up. -/
  | transport (fault : OpenFault)
  | send (failure : Failure)

namespace CommandFault

/-- The wording of what is wrong with a document. -/
def documentMessage : Json.Fault → String
  | .truncated => "the document ends too early"
  | .malformed => "the document is no JSON"
  | .mismatch difference => difference.message

/-- The label of a failure and whether trying again makes sense (`send_error`). -/
def failureLabel (f : Failure) : String :=
  "[" ++ f.kind ++ ", " ++ (if f.retryable then "retryable" else "not retryable") ++ "]"

/-- The wording of the fault. -/
def message : CommandFault → String
  | config fault => "failed to load config: " ++ fault.message
  | broker fault => "invalid broker: " ++ fault.message
  | eventFile path fault => "failed to read event " ++ path ++ ": " ++ fault.message
  | eventSize path size limit =>
    "event " ++ path ++ " exceeds size limit (" ++ toString size ++ " > " ++ toString limit ++ ")"
  | eventDocument path fault => "invalid event " ++ path ++ ": " ++ documentMessage fault
  | event path fault => "invalid event " ++ path ++ ": " ++ fault.message
  | traceparent fault => "invalid traceparent: " ++ fault.message
  | routing path fault => "failed to load routing document " ++ path ++ ": " ++ fault.message
  | transport fault => "failed to build pubsub transport: " ++ fault.message
  | send failure => "send failed " ++ failureLabel failure ++ ": " ++ failure.message

end CommandFault

/-! ## Logging -/

/-- Which log entries are kept and how they are written. -/
structure Logging where
  filter : LogFilter
  format : LogFormat

namespace Logging

/-- The variable that holds a filter. -/
def filterVariable : String := "RUST_LOG"

/-- A filter in the environment counts, if it can be read (`filter_for`); else the level of the
settings does. -/
def ofSettings (s : LogSettings) (env : Environment) : Logging :=
  ⟨((env.find? filterVariable).bind LogFilter.parse?).getD (.upTo s.level), s.format⟩

end Logging

/-! ## Outcomes -/

/-- What a command writes besides its output. -/
inductive Notice where
  | report (entry : LogEntry)
  /-- What a journal writes. -/
  | record (text : Bytes)
  | fault (f : CommandFault)

/-- The end of a command. -/
inductive ExitStatus where
  | success
  | failure
  /-- The arguments made no sense. -/
  | misuse
  deriving DecidableEq, Repr

/-- The number of an end. -/
def ExitStatus.code : ExitStatus → Nat
  | success => 0
  | failure => 1
  | misuse => 2

/-- What a command leaves: how it ended, its output, how log entries are written, and its
notices. -/
structure Outcome where
  status : ExitStatus := .success
  output : List String := []
  format : LogFormat := .console
  notices : List Notice := []

namespace Outcome

/-- Keeps the log entries that pass the filter, and writes them as asked. -/
def logged (o : Outcome) (l : Logging) : Outcome :=
  let kept := o.notices.filter fun notice =>
    match notice with
    | .report entry => l.filter.admits entry
    | _ => true
  { o with format := l.format, notices := kept }

/-- Ends with a fault. -/
def stopped (fault : CommandFault) (notices : List Notice) : Outcome :=
  { status := .failure, notices := notices ++ [.fault fault] }

/-- Ends before anything is done. -/
def refused (fault : CommandFault) : Outcome :=
  stopped fault []

end Outcome

end EventIngress
