import EventIngress.Json.Write
import EventIngress.Text.Base64
import EventIngress.Transport.Progress

/-!
# Publishing into a journal

Each message becomes one line of JSON text. The journal is written by a writer that may fail; once
the writer has broken down in the middle of a line, the journal takes no more messages.

Results:

* `Journal.record`: the JSON text of a message.
* `Journal.publish`: appends the record of a message.
-/

namespace EventIngress

/-- How the writer of a journal behaves. -/
inductive WriterMode where
  | accepts
  /-- Nothing is written. -/
  | failsRecord (reason : String)
  /-- The record is written, the end of the line is not. -/
  | failsLineEnd (reason : String)
  /-- The line is written, but not passed on. -/
  | failsFlush (reason : String)
  /-- The writer breaks down. -/
  | breaks
  deriving DecidableEq, Repr

/-- A journal (`LogTopicFactory`): what has been written, and how its writer behaves. -/
structure Journal where
  issuer : Issuer := { tag := "log" }
  written : Bytes := []
  mode : WriterMode := .accepts
  jammed : Bool := false

namespace Journal

/-- The record of a message: its members are in the order of their names. -/
def record (topic : TopicId) (messageId : String) (m : Message) : Bytes :=
  Json.writeObject
    [("attributes", Json.writeMap m.attributes Json.writeText),
      ("data_base64", Json.writeText (Base64.encode m.body)),
      ("message_id", Json.writeText messageId), ("topic", Json.writeText topic.text)]

/-- Publishes a message on a topic (`LogTopicHandle.publish`): takes an id and appends a line. -/
def publish (j : Journal) (topic : TopicId) (closed : Bool) (m : Message) : Progress × Journal :=
  if closed then (.ended (.error (.closed topic)), j)
  else
    let (messageId, issuer) := j.issuer.next
    let j := { j with issuer := issuer }
    let line := record topic messageId m
    if j.jammed then (.ended (.error (.transport "log writer lock poisoned")), j)
    else
      match j.mode with
      | .accepts => (.ended (.ok ⟨messageId, topic⟩), { j with written := j.written ++ line ++ [0x0a] })
      | .failsRecord reason => (.ended (.error (.transport reason)), j)
      | .failsLineEnd reason =>
        (.ended (.error (.transport reason)), { j with written := j.written ++ line })
      | .failsFlush reason =>
        (.ended (.error (.transport reason)), { j with written := j.written ++ line ++ [0x0a] })
      | .breaks => (.broken, { j with jammed := true })

end Journal

end EventIngress
