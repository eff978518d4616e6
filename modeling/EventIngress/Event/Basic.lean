import EventIngress.Json.Value
import EventIngress.Text.Blank
import EventIngress.Text.Cut
import EventIngress.Text.Quoted
import EventIngress.Text.Utf8
import EventIngress.Time.Timestamp

/-!
# Events

An event has context attributes and a body. Some attributes are fixed, others are extensions with
names of their own. Building an event checks nothing; `Event.fault?` says whether it obeys the
rules.

Results:

* `Event`, `EventData`: events and their bodies.
* `Event.fault?`: the first rule that an event breaks.
* `isJsonContentType`: which content types denote JSON.
-/

namespace EventIngress

/-! ## Faults -/

/-- What is wrong with an event or its document (`EventError`). -/
inductive EventFault where
  /-- An attribute that every event has is empty. -/
  | missingAttribute (name : String)
  /-- The event follows another version of the specification. -/
  | unsupportedSpecVersion (version : String)
  /-- The name of an extension breaks the naming rule. -/
  | invalidExtensionName (name : String)
  /-- The value of an extension is no text, number or truth value. -/
  | invalidExtensionValue (name : String)
  /-- The time has no text form, or a text is no time. -/
  | invalidTime
  /-- A document has a body of both forms. -/
  | twoBodies
  /-- The encoded body of a document does not decode. -/
  | invalidData
  deriving DecidableEq, Repr

namespace EventFault

/-- The wording of the fault. -/
def message : EventFault → String
  | missingAttribute name => "event attribute " ++ name ++ " is required"
  | unsupportedSpecVersion version => "unsupported specversion " ++ Text.quoteText version
  | invalidExtensionName name => "invalid extension attribute name " ++ Text.quoteText name
  | invalidExtensionValue name => "extension attribute " ++ Text.quoteText name ++ " must be a scalar"
  | invalidTime => "invalid event time"
  | twoBodies => "invalid event data: data and data_base64 are mutually exclusive"
  | invalidData => "invalid event data"

end EventFault

/-! ## Events -/

/-- The body of an event. -/
inductive EventData where
  | json (value : Json.Value)
  | bytes (content : Bytes)

/-- An event: its context attributes, its extensions by name, and its body. -/
structure Event where
  id : String
  source : String
  specVersion : String := "1.0"
  eventType : String
  subject : Option String := none
  time : Option Timestamp := none
  contentType : Option String := none
  schema : Option String := none
  extensions : SortedMap String String := .empty
  data : Option EventData := none

/-- Lowercase ASCII letters for uppercase ones. -/
def lowerAscii (s : List Char) : List Char :=
  s.map fun c => if 'A'.toNat ≤ c.toNat ∧ c.toNat ≤ 'Z'.toNat then Char.ofNat (c.toNat + 32) else c

/-- Whether a content type denotes JSON (`is_json_content_type`). Parameters, case and blanks around
it do not count. -/
def isJsonContentType (contentType : String) : Bool :=
  let base := contentType.toList.takeWhile (· ≠ ';')
  let base := lowerAscii (Text.trim (String.ofList base)).toList
  base == "application/json".toList || base == "text/json".toList ||
    "+json".toList.isSuffixOf base

namespace Event

/-- The version of the specification that events follow (`SPEC_VERSION`). -/
def supportedVersion : String := "1.0"

/-- The attributes that no extension may be named after (`RESERVED_ATTRIBUTES`). -/
def reservedNames : List String :=
  ["id", "source", "specversion", "type", "subject", "time", "datacontenttype", "dataschema",
    "data", "data_base64"]

/-- Whether a character may stand in the name of an extension: a lowercase ASCII letter or an ASCII
digit. -/
def isExtensionChar (c : Char) : Bool :=
  ('a'.toNat ≤ c.toNat && c.toNat ≤ 'z'.toNat) || ('0'.toNat ≤ c.toNat && c.toNat ≤ '9'.toNat)

/-- Whether a text may name an extension (`validate_extension_name`): 1 to 20 allowed characters,
and no reserved name. -/
def isExtensionName (name : String) : Bool :=
  !name.isEmpty && name.toList.length ≤ 20 && name.toList.all isExtensionChar &&
    !reservedNames.contains name

/-- Whether the time of an event, if it has one, has a text form. -/
def timeHasText (e : Event) : Bool :=
  e.time.all (·.hasText)

/-- The text form of the time of an event (`time_rfc3339`); none also if the time has no text
form. -/
def timeText? (e : Event) : Option String :=
  e.time.bind (·.text?)

/-- The first rule that an event breaks (`Event.validate`): the attributes that have to be there,
the version, the names of the extensions in their order, the time. -/
def fault? (e : Event) : Option EventFault :=
  if e.id.isEmpty then some (.missingAttribute "id")
  else if e.source.isEmpty then some (.missingAttribute "source")
  else if e.eventType.isEmpty then some (.missingAttribute "type")
  else if e.specVersion ≠ supportedVersion then some (.unsupportedSpecVersion e.specVersion)
  else
    match e.extensions.toList.find? fun ext => !isExtensionName ext.1 with
    | some ext => some (.invalidExtensionName ext.1)
    | none => if e.timeHasText then none else some .invalidTime

end Event

end EventIngress
