import EventIngress.Event.Basic
import EventIngress.Json.Shape
import EventIngress.Json.Write
import EventIngress.Text.Base64

/-!
# Event documents

An event as one JSON object: the fixed attributes under their names, the body under `data` or,
encoded, under `data_base64`, and each extension as a further member.

Results:

* `Event.write`: the document of an event.
* `Event.read`, `Event.ofDocument`: the event of a document.
-/

namespace EventIngress

namespace Event

/-! ## Reading -/

/-- The members of a document (`StructuredEvent`). -/
structure Parts where
  specVersion : String := ""
  id : String := ""
  source : String := ""
  eventType : String := ""
  subject : Option String := none
  time : Option String := none
  contentType : Option String := none
  schema : Option String := none
  data : Option Json.Value := none
  encodedData : Option String := none
  extensions : SortedMap String Json.Value := .empty

/-- How many arrays and objects a member may nest inside the object of the document. -/
def memberDepth : Nat := Json.maxDepth - 1

/-- The shape of a document. Members that are not known are extensions; of several of one name, the
last counts. -/
def documentShape : Json.Record Parts where
  name := "StructuredEvent"
  fields :=
    let optionalText := Json.readOptional Json.readText
    [.part "specversion" true Json.readText fun a p => { p with specVersion := a },
      .part "id" true Json.readText fun a p => { p with id := a },
      .part "source" true Json.readText fun a p => { p with source := a },
      .part "type" true Json.readText fun a p => { p with eventType := a },
      .part "subject" false optionalText fun a p => { p with subject := a },
      .part "time" false optionalText fun a p => { p with time := a },
      .part "datacontenttype" false optionalText fun a p => { p with contentType := a },
      .part "dataschema" false optionalText fun a p => { p with schema := a },
      .part "data" false (Json.readOptional (Json.readValue memberDepth)) fun a p =>
        { p with data := a },
      .part "data_base64" false optionalText fun a p => { p with encodedData := a }]
  other := fun name input =>
    (Json.readValue memberDepth input).map fun (v, rest) =>
      (fun p => { p with extensions := p.extensions.insert name v }, rest)
  listed := false

/-- The text that the value of an extension stands for, if it is a text, a number or a truth
value. -/
def extensionText? (v : Json.Value) : Option String :=
  match v.tree with
  | .string s => some s
  | .boolean b => some (if b then "true" else "false")
  | .number n => some (String.ofList n.text)
  | _ => none

/-- The time of a document. -/
def timeOf : Option String → Except EventFault (Option Timestamp)
  | none => .ok none
  | some s =>
    match Timestamp.parse? s with
    | some t => .ok (some t)
    | none => .error .invalidTime

/-- The body of a document. A text stands for its bytes where the content type is given and does
not denote JSON. -/
def dataOf (contentType : Option String) :
    (data : Option Json.Value) → (encoded : Option String) → Except EventFault (Option EventData)
  | some _, some _ => .error .twoBodies
  | none, some encoded =>
    match Base64.decode encoded with
    | some bytes => .ok (some (.bytes bytes))
    | none => .error .invalidData
  | some v, none =>
    match v.tree with
    | .string s =>
      if contentType.any fun c => !isJsonContentType c then .ok (some (.bytes (Bytes.ofText s)))
      else .ok (some (.json v))
    | _ => .ok (some (.json v))
  | none, none => .ok none

/-- The extensions of a document, in the order of their names. -/
def extensionsOf : List (String × Json.Value) → Except EventFault (SortedMap String String)
  | [] => .ok .empty
  | (name, v) :: rest =>
    match extensionText? v with
    | none => .error (.invalidExtensionValue name)
    | some s => (extensionsOf rest).map fun m => m.insert name s

/-- The event of the members of a document (`Event.try_from`). The time is looked at first, then the
body, then the extensions. -/
def ofParts (p : Parts) : Except EventFault Event := do
  let time ← timeOf p.time
  let data ← dataOf p.contentType p.data p.encodedData
  let extensions ← extensionsOf p.extensions.toList
  return {
    id := p.id, source := p.source, specVersion := p.specVersion, eventType := p.eventType,
    subject := p.subject, time := time, contentType := p.contentType, schema := p.schema,
    extensions := extensions, data := data }

/-- Reads an event. -/
def read (input : Bytes) : Json.Scan Event :=
  match documentShape.read {} input with
  | .error fault => .error fault
  | .ok (parts, rest) =>
    match ofParts parts with
    | .error fault => .error (.mismatch (.rule fault.message))
    | .ok e => .ok (e, rest)

/-- The event of a whole document. -/
def ofDocument (document : Bytes) : Except Json.Fault Event :=
  Json.finish (read document)

/-! ## Writing -/

/-- A member with an optional text. -/
def textMember (name : String) (value : Option String) : List (String × Bytes) :=
  (value.map fun s => (name, Json.writeText s)).toList

/-- The member with the body. -/
def dataMember : Option EventData → List (String × Bytes)
  | none => []
  | some (.json v) => [("data", v.write)]
  | some (.bytes content) => [("data_base64", Json.writeText (Base64.encode content))]

/-- The members of the document of an event (`StructuredEvent.from`). A time without a text form is
left out. -/
def members (e : Event) : List (String × Bytes) :=
  [("specversion", Json.writeText e.specVersion), ("id", Json.writeText e.id),
    ("source", Json.writeText e.source), ("type", Json.writeText e.eventType)] ++
    textMember "subject" e.subject ++ textMember "time" e.timeText? ++
    textMember "datacontenttype" e.contentType ++ textMember "dataschema" e.schema ++
    dataMember e.data ++ (e.extensions.mapValues Json.writeText).toList

/-- The document of an event. -/
def write (e : Event) : Bytes :=
  Json.writeObject e.members

end Event

end EventIngress
