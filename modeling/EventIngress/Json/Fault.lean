import EventIngress.Json.Number
import EventIngress.Text.Alternatives
import EventIngress.Text.Quoted

/-!
# What can be wrong with a JSON document

A document ends too early, is no JSON, or is JSON of another shape than asked for.

Results:

* `Json.Mismatch`, `Json.Mismatch.message`: how a document differs from what was asked for.
* `Json.Fault`: the three kinds of fault.
-/

namespace EventIngress.Json

/-- What was found where something else was expected. -/
inductive Found where
  | null
  | boolean (value : Bool)
  | number (value : Number)
  | string (value : String)
  | sequence
  | map
  deriving DecidableEq

namespace Found

/-- The wording for what was found. -/
def message : Found → String
  | null => "null"
  | boolean value => "boolean " ++ Text.ticked (if value then "true" else "false")
  | number (.integer value fits) =>
    "integer " ++ Text.ticked (String.ofList (Number.text (.integer value fits)))
  | number (.real value) =>
    "floating point " ++ Text.ticked (String.ofList (Number.text (.real value)))
  | string value => "string " ++ Text.quoteText value
  | sequence => "sequence"
  | map => "map"

end Found

/-- How a well-formed document differs from what was asked for. -/
inductive Mismatch where
  /-- A member that has to be there is not. -/
  | missingField (name : String)
  /-- A known member occurs twice. -/
  | duplicateField (name : String)
  /-- A text is not one of the words that are known. -/
  | unknownVariant (text : String) (known : List String)
  /-- Something of another kind was found. -/
  | wrongKind (found : Found) (expected : String)
  /-- A list is too short for a record of so many fields. -/
  | wrongLength (count : Nat) (expected : String)
  /-- The parts are of the right kinds but break a rule of what they stand for. -/
  | rule (message : String)
  deriving DecidableEq

namespace Mismatch

/-- The wording of the difference. -/
def message : Mismatch → String
  | missingField name => "missing field " ++ Text.ticked name
  | duplicateField name => "duplicate field " ++ Text.ticked name
  | unknownVariant text known =>
    "unknown variant " ++ Text.ticked text ++ ", " ++ Text.alternatives known
  | wrongKind found expected => "invalid type: " ++ found.message ++ ", expected " ++ expected
  | wrongLength count expected =>
    "invalid length " ++ toString count ++ ", expected " ++ expected
  | rule message => message

end Mismatch

/-- What is wrong with a document. -/
inductive Fault where
  /-- It ends inside a value. -/
  | truncated
  /-- It is no JSON. -/
  | malformed
  /-- It is JSON of another shape. -/
  | mismatch (difference : Mismatch)
  deriving DecidableEq

end EventIngress.Json
