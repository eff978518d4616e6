import EventIngress.Json.Brackets

/-!
# Reading JSON values

A value may nest a bounded number of arrays and objects. Of several members of one name in an
object, the last counts.

Results:

* `Json.maxDepth`: how many arrays and objects a document may nest.
* `Json.readValue`: reads any value.
-/

namespace EventIngress.Json

/-- How many arrays and objects a document may nest. -/
def maxDepth : Nat := 127

mutual

/-- Reads a value with at most `depth` nested arrays and objects. `steps` bounds the number of
steps. -/
def readValueSteps : (steps depth : Nat) → Bytes → Scan Value
  | 0, _, _ => .error .truncated
  | steps + 1, depth, input =>
    match skipBlank input with
    | [] => .error .truncated
    | b :: rest =>
      match glyph b with
      | 'n' => (scanWord ['u', 'l', 'l'] rest).map fun (_, rest) => (.null, rest)
      | 't' => (scanWord ['r', 'u', 'e'] rest).map fun (_, rest) => (.boolean true, rest)
      | 'f' => (scanWord ['a', 'l', 's', 'e'] rest).map fun (_, rest) => (.boolean false, rest)
      | '"' => (scanString rest).map fun (s, rest) => (.string s, rest)
      | '-' => (scanNumber true rest).map fun (n, rest) => (.number n, rest)
      | '[' =>
        match depth with
        | 0 => .error .malformed
        | depth + 1 => readItems steps depth rest true []
      | '{' =>
        match depth with
        | 0 => .error .malformed
        | depth + 1 => readMembers steps depth rest true .empty
      | _ =>
        if isDigitByte b then (scanNumber false (b :: rest)).map fun (n, rest) => (.number n, rest)
        else .error .malformed

/-- Reads the items of an array up to its end; `taken` holds the items so far, last first. -/
def readItems : (steps depth : Nat) → Bytes → (fresh : Bool) → (taken : List Value) → Scan Value
  | 0, _, _, _, _ => .error .truncated
  | steps + 1, depth, input, fresh, taken =>
    match scanItem fresh input with
    | .error fault => .error fault
    | .ok (false, rest) => (closeArray rest).map fun (_, rest) => (.array taken.reverse, rest)
    | .ok (true, rest) =>
      match readValueSteps steps depth rest with
      | .error fault => .error fault
      | .ok (item, rest) => readItems steps depth rest false (item :: taken)

/-- Reads the members of an object up to its end. -/
def readMembers : (steps depth : Nat) → Bytes → (fresh : Bool) → SortedMap String Value → Scan Value
  | 0, _, _, _, _ => .error .truncated
  | steps + 1, depth, input, fresh, members =>
    match scanKey fresh input with
    | .error fault => .error fault
    | .ok (none, rest) => (closeObject rest).map fun (_, rest) => (.object members, rest)
    | .ok (some name, rest) =>
      match scanColon rest with
      | .error fault => .error fault
      | .ok (_, rest) =>
        match readValueSteps steps depth rest with
        | .error fault => .error fault
        | .ok (value, rest) => readMembers steps depth rest false (members.insert name value)

end

/-- Reads a value with at most `depth` nested arrays and objects. Between two steps that take a
byte there is at most one that takes none. -/
def readValue (depth : Nat) (input : Bytes) : Scan Value :=
  readValueSteps (2 * input.length + 2) depth input

end EventIngress.Json
