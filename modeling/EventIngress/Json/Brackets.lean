import EventIngress.Json.Scan

/-!
# The frame of arrays and objects

What stands between the items of an array and between the members of an object. `fresh` says that
nothing has been read since the opening bracket, so that no comma is due.

Results:

* `Json.scanItem`, `Json.scanKey`: goes on to the next item or the next name, or stops at the
  closing bracket.
* `Json.scanColon`, `Json.closeArray`, `Json.closeObject`: the other marks.
-/

namespace EventIngress.Json

/-- Goes on to the next item of an array. Yields whether there is one; the bytes after it start
with the item, or else with the closing bracket. -/
def scanItem (fresh : Bool) (input : Bytes) : Scan Bool :=
  match skipBlank input with
  | [] => .error .truncated
  | b :: rest =>
    if glyph b = ']' then .ok (false, b :: rest)
    else if fresh then .ok (true, b :: rest)
    else if glyph b = ',' then
      match skipBlank rest with
      | [] => .error .truncated
      | c :: rest => if glyph c = ']' then .error .malformed else .ok (true, c :: rest)
    else .error .malformed

/-- Goes on to the next member of an object and reads its name. Without one, the bytes after it
start with the closing bracket. -/
def scanKey (fresh : Bool) (input : Bytes) : Scan (Option String) :=
  match skipBlank input with
  | [] => .error .truncated
  | b :: rest =>
    if glyph b = '}' then .ok (none, b :: rest)
    else if fresh then
      if glyph b = '"' then (scanString rest).map fun (s, rest) => (some s, rest)
      else .error .malformed
    else if glyph b = ',' then
      match skipBlank rest with
      | [] => .error .truncated
      | c :: rest =>
        if glyph c = '"' then (scanString rest).map fun (s, rest) => (some s, rest)
        else .error .malformed
    else .error .malformed

/-- Reads the colon between a name and its value. -/
def scanColon (input : Bytes) : Scan Unit :=
  match skipBlank input with
  | [] => .error .truncated
  | b :: rest => if glyph b = ':' then .ok ((), rest) else .error .malformed

/-- Reads the closing bracket of an array. -/
def closeArray (input : Bytes) : Scan Unit :=
  match skipBlank input with
  | [] => .error .truncated
  | b :: rest => if glyph b = ']' then .ok ((), rest) else .error .malformed

/-- Reads the closing bracket of an object. -/
def closeObject (input : Bytes) : Scan Unit :=
  match skipBlank input with
  | [] => .error .truncated
  | b :: rest => if glyph b = '}' then .ok ((), rest) else .error .malformed

/-- Takes a result for a whole document: nothing but blanks may follow. -/
def finish {α : Type} (result : Scan α) : Except Fault α :=
  match result with
  | .error fault => .error fault
  | .ok (a, rest) => if (skipBlank rest).isEmpty then .ok a else .error .malformed

end EventIngress.Json
