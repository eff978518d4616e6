import EventIngress.Files.Tree
import EventIngress.Log
import EventIngress.Routing.Document

/-!
# Routing tables from files

A routing table that answers by the last document that could be loaded from its file. A load that
fails changes nothing.

Results:

* `RoutingDocument.load`: the document in a file of limited size.
* `FileTable.openFile`, `FileTable.reload`: the table and its renewal.
-/

namespace EventIngress

/-- Why a routing document cannot be loaded (`RoutingLoadError`). -/
inductive LoadFault where
  /-- The file cannot be looked at or read. -/
  | file (fault : FileFault)
  /-- The file is larger than allowed. -/
  | tooLarge (size limit : Nat)
  /-- The file holds no routing document. -/
  | document (fault : Json.Fault)
  deriving DecidableEq

namespace LoadFault

/-- The wording of the fault. Of a text that is no routing document only that much is said: what the
JSON reader says of it in its own words, with the place in the text, would follow and is left
out. -/
def message : LoadFault → String
  | file fault => "routing file io error: " ++ fault.message
  | tooLarge size limit =>
    s!"routing file is {size} bytes, exceeding the {limit} byte limit"
  | document _ => "routing file parse error"

end LoadFault

/-- The document in a file (`RoutingSnapshot.load`). The size is looked at before the file is read
and again after it. -/
def RoutingDocument.load (files : FileTree) (path : String) (limit : Nat) :
    Except LoadFault RoutingDocument :=
  match files.size path with
  | .error fault => .error (.file fault)
  | .ok size =>
    if limit < size then .error (.tooLarge size limit)
    else
      match files.read path with
      | .error fault => .error (.file fault)
      | .ok content =>
        if limit < content.length then .error (.tooLarge content.length limit)
        else (RoutingDocument.ofJson content).mapError .document

/-- A routing table over a file (`FileRoutingTable`). -/
structure FileTable where
  path : String
  limit : Nat
  document : RoutingDocument
  deriving DecidableEq

namespace FileTable

/-- The table of a file that holds a document (`FileRoutingTable.open`). -/
def openFile (files : FileTree) (path : String) (limit : Nat) : Except LoadFault FileTable :=
  (RoutingDocument.load files path limit).map fun document => ⟨path, limit, document⟩

/-- The route of a broker (`FileRoutingTable.lookup`). -/
def route? (t : FileTable) (b : BrokerIdentity) : Option BrokerRoute :=
  t.document.route? b

/-- The renewed table and the number of its brokers (`FileRoutingTable.reload`). -/
def reload (t : FileTable) (files : FileTree) : Except LoadFault (FileTable × Nat) :=
  (RoutingDocument.load files t.path t.limit).map fun document =>
    ({ t with document := document }, document.count)

/-- What is reported of a renewal. -/
def reloadReport (t : FileTable) (brokers : Nat) : LogEntry :=
  { level := .debug, part := .routingFile, text := "routing file reloaded",
    path := some t.path, values := [("brokers", toString brokers)] }

/-- What is reported of a renewal that failed without anyone waiting for it. -/
def refreshReport (t : FileTable) (fault : LoadFault) : LogEntry :=
  { level := .warn, part := .routingFile,
    text := "routing refresh failed; keeping previous snapshot",
    path := some t.path, values := [("error", fault.message)] }

end FileTable

end EventIngress
