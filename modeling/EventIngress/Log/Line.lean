import EventIngress.Json.Write
import EventIngress.Log

/-!
# How log entries are written

Results:

* `LogEntry.consoleText`: one line for readers.
* `LogEntry.json`: one JSON object.
-/

namespace EventIngress.LogEntry

/-- The level, the part, the text and the named values. -/
def consoleText (e : LogEntry) : String :=
  e.level.word ++ " " ++ e.part.name ++ ": " ++ e.text ++
    String.join (e.fields.map fun value => " " ++ value.1 ++ "=" ++ value.2)

/-- The level, the fields and the part as a JSON object. The text is the first field. -/
def json (e : LogEntry) : Bytes :=
  Json.writeObject
    [("level", Json.writeText e.level.word),
      ("fields", Json.writeObject
        (("message", Json.writeText e.text) ::
          e.fields.map fun value => (value.1, Json.writeText value.2))),
      ("target", Json.writeText e.part.name)]

end EventIngress.LogEntry
