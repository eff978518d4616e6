import EventIngress.Event.Basic
import EventIngress.Failure
import EventIngress.Json.Write
import EventIngress.Message
import EventIngress.Trace

/-!
# The binary encoding of events

Each attribute of an event becomes an attribute of the message under the name `ce-` and its own
name, only the content type has a name without that start. The body is carried as it is. A trace
context takes the place of whatever the event says about its trace.

Results:

* `Encoding.attributes`: the attributes of the message of an event.
* `Encoding.encode`: the message of an event that obeys the rules.
-/

namespace EventIngress.Encoding

/-- The name of the attribute of a message that carries an attribute of an event
(`ATTRIBUTE_PREFIX`). -/
def attributeName (name : String) : String :=
  "ce-" ++ name

/-- The name of the attribute of a message that carries the content type
(`CONTENT_TYPE_ATTRIBUTE`). -/
def contentTypeName : String := "Content-Type"

/-- The names of the extensions that carry a trace. -/
def traceNames : List String := ["traceparent", "tracestate"]

/-- The fixed attributes of an event that are set, under their names. -/
def fixedAttributes (e : Event) : List (String × String) :=
  [("specversion", e.specVersion), ("id", e.id), ("source", e.source), ("type", e.eventType)] ++
    (e.subject.map fun s => ("subject", s)).toList ++
    (e.timeText?.map fun s => ("time", s)).toList ++
    (e.schema.map fun s => ("dataschema", s)).toList

/-- The extensions of an event; with a trace context, without those that carry a trace. -/
def shownExtensions (e : Event) (trace : Option TraceContext) : List (String × String) :=
  if trace.isSome then e.extensions.toList.filter fun ext => !traceNames.contains ext.1
  else e.extensions.toList

/-- The extensions that carry a trace context. -/
def traceExtensions : Option TraceContext → List (String × String)
  | none => []
  | some t =>
    ("traceparent", t.traceparent) :: (t.tracestate.map fun s => ("tracestate", s)).toList

/-- The attributes of the message of an event. -/
def attributes (e : Event) (trace : Option TraceContext) : SortedMap String String :=
  .ofList
    ((fixedAttributes e ++ shownExtensions e trace ++ traceExtensions trace).map
        (fun a => (attributeName a.1, a.2)) ++
      (e.contentType.map fun s => (contentTypeName, s)).toList)

/-- The bytes of a body (`EventData.to_bytes`). -/
def bodyBytes : Option EventData → Bytes
  | none => []
  | some (.json v) => v.write
  | some (.bytes content) => content

/-- The message of an event, unless the event breaks a rule (`BinaryEventEncoder.encode`). -/
def encode (e : Event) (trace : Option TraceContext) : Except EncodeFault Message :=
  match e.fault? with
  | some fault => .error (.invalidEvent fault.message)
  | none => .ok ⟨attributes e trace, bodyBytes e.data⟩

end EventIngress.Encoding
