import EventIngress.Text.Cut

/-!
# Parts of a path

The names that a path leads through, and how long a path and its names may be.

Results:

* `pathComponents`: the names of a path.
* `pathFault?`: the limit that a path breaks, if it breaks one.
-/

namespace EventIngress

/-- The names of a path. A slash at the start is a name of its own. Between names, repeated slashes
count once, and the name of one point is left out unless the path starts with it. -/
def pathComponents (path : String) : List String :=
  let parts := (Text.fields '/' path.toList).map String.ofList
  let named := parts.filter fun part => part != "" && part != "."
  match parts with
  | "." :: _ => "." :: named
  | "" :: _ :: _ => "/" :: named
  | _ => named

/-- Largest length of a path in bytes (`MAX_TOTAL_PATH_LENGTH`). -/
def maxPathLength : Nat := 4096

/-- Largest length of a name on a path in bytes (`MAX_PATH_COMPONENT_LENGTH`). -/
def maxComponentLength : Nat := 255

/-- Which limit a path breaks. -/
inductive PathFault where
  | tooLong
  | componentTooLong
  deriving DecidableEq, Repr

/-- The limit that a path breaks, if it breaks one; its whole length is looked at first. -/
def pathFault? (path : String) : Option PathFault :=
  if maxPathLength < path.utf8ByteSize then some .tooLong
  else if (pathComponents path).any fun name => decide (maxComponentLength < name.utf8ByteSize) then
    some .componentTooLong
  else none

end EventIngress
