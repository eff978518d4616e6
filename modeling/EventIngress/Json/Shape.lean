import EventIngress.Json.Read
import EventIngress.Json.Skip

/-!
# Reading values of a known shape

Texts, maps, choices and records. Reading stops at the first difference from the shape, so a
difference that comes before a syntax error hides it.

Results:

* `Json.wrongKind`: the fault of finding another kind of value.
* `Json.readText`, `Json.readOptional`, `Json.readMap`, `Json.readList`, `Json.readChoice`: values of
  a shape.
* `Json.Record`, `Json.Record.read`: an object with known members, or the list of their values.
-/

namespace EventIngress.Json

/-- The fault of finding another kind of value than expected. The value is read as far as it is
needed to show it. -/
def wrongKind (expected : String) (input : Bytes) : Fault :=
  let found (result : Scan Found) : Fault :=
    match result with
    | .error fault => fault
    | .ok (found, _) => .mismatch (.wrongKind found expected)
  match skipBlank input with
  | [] => .truncated
  | b :: rest =>
    match glyph b with
    | 'n' => found ((scanWord ['u', 'l', 'l'] rest).map fun (_, rest) => (.null, rest))
    | 't' => found ((scanWord ['r', 'u', 'e'] rest).map fun (_, rest) => (.boolean true, rest))
    | 'f' =>
      found ((scanWord ['a', 'l', 's', 'e'] rest).map fun (_, rest) => (.boolean false, rest))
    | '"' => found ((scanString rest).map fun (s, rest) => (.string s, rest))
    | '-' => found ((scanNumber true rest).map fun (n, rest) => (.number n, rest))
    | '[' => .mismatch (.wrongKind .sequence expected)
    | '{' => .mismatch (.wrongKind .map expected)
    | _ =>
      if isDigitByte b then
        found ((scanNumber false (b :: rest)).map fun (n, rest) => (.number n, rest))
      else .malformed

/-! ## Texts, options and maps -/

/-- Reads a text that stands for `expected`. -/
def readTextAs (expected : String) (input : Bytes) : Scan String :=
  match skipBlank input with
  | b :: rest => if glyph b = '"' then scanString rest else .error (wrongKind expected input)
  | [] => .error .truncated

/-- Reads a text. -/
def readText (input : Bytes) : Scan String :=
  readTextAs "a string" input

/-- Reads `null` or a value. -/
def readOptional {α : Type} (read : Bytes → Scan α) (input : Bytes) : Scan (Option α) :=
  match skipBlank input with
  | [] => .error .truncated
  | b :: rest =>
    if glyph b = 'n' then (scanWord ['u', 'l', 'l'] rest).map fun (_, rest) => (none, rest)
    else (read (b :: rest)).map fun (a, rest) => (some a, rest)

/-- Reads the entries of a map up to its end. -/
def readEntries {α : Type} (read : Bytes → Scan α) :
    (steps : Nat) → Bytes → (fresh : Bool) → SortedMap String α → Scan (SortedMap String α)
  | 0, _, _, _ => .error .truncated
  | steps + 1, input, fresh, entries =>
    match scanKey fresh input with
    | .error fault => .error fault
    | .ok (none, rest) => (closeObject rest).map fun (_, rest) => (entries, rest)
    | .ok (some name, rest) =>
      match scanColon rest with
      | .error fault => .error fault
      | .ok (_, rest) =>
        match read rest with
        | .error fault => .error fault
        | .ok (value, rest) => readEntries read steps rest false (entries.insert name value)

/-- Reads a map from texts; of several entries of one name, the last counts. -/
def readMap {α : Type} (read : Bytes → Scan α) (input : Bytes) : Scan (SortedMap String α) :=
  match skipBlank input with
  | [] => .error .truncated
  | b :: rest =>
    if glyph b = '{' then readEntries read (rest.length + 1) rest true .empty
    else .error (wrongKind "a map" input)

/-! ## Lists -/

/-- Reads the items of a list up to its end; `taken` holds the items so far, last first. -/
def readListItems {α : Type} (read : Bytes → Scan α) :
    (steps : Nat) → Bytes → (fresh : Bool) → (taken : List α) → Scan (List α)
  | 0, _, _, _ => .error .truncated
  | steps + 1, input, fresh, taken =>
    match scanItem fresh input with
    | .error fault => .error fault
    | .ok (false, rest) => (closeArray rest).map fun (_, rest) => (taken.reverse, rest)
    | .ok (true, rest) =>
      match read rest with
      | .error fault => .error fault
      | .ok (item, rest) => readListItems read steps rest false (item :: taken)

/-- Reads a list. -/
def readList {α : Type} (read : Bytes → Scan α) (input : Bytes) : Scan (List α) :=
  match skipBlank input with
  | [] => .error .truncated
  | b :: rest =>
    if glyph b = '[' then readListItems read (rest.length + 1) rest true []
    else .error (wrongKind "a sequence" input)

/-! ## Choices -/

/-- Reads `null` where nothing else makes sense. -/
def readUnit (input : Bytes) : Scan Unit :=
  match skipBlank input with
  | [] => .error .truncated
  | b :: rest =>
    if glyph b = 'n' then scanWord ['u', 'l', 'l'] rest else .error (wrongKind "unit" input)

/-- The choice with a name. -/
def chosen {α : Type} (choices : List (String × α)) (name : String) (rest : Bytes) : Scan α :=
  match choices.lookup name with
  | some a => .ok (a, rest)
  | none => .error (.mismatch (.unknownVariant name (choices.map (·.1))))

/-- Reads one of several words, or an object with that word as its one member and `null` as its
value. -/
def readChoice {α : Type} (choices : List (String × α)) (input : Bytes) : Scan α :=
  match skipBlank input with
  | [] => .error .truncated
  | b :: rest =>
    if glyph b = '"' then
      match scanString rest with
      | .error fault => .error fault
      | .ok (name, rest) => chosen choices name rest
    else if glyph b = '{' then
      match readTextAs "variant identifier" rest with
      | .error fault => .error fault
      | .ok (name, rest) =>
        match chosen choices name rest with
        | .error fault => .error fault
        | .ok (a, rest) =>
          match scanColon rest with
          | .error fault => .error fault
          | .ok (_, rest) =>
            match readUnit rest with
            | .error fault => .error fault
            | .ok (_, rest) => (closeObject rest).map fun (_, rest) => (a, rest)
    else .error .malformed

/-! ## Records -/

/-- A known member of a record. Reading it yields the change that it makes to the record. -/
structure Field (σ : Type) where
  name : String
  /-- Whether the member has to be there. -/
  required : Bool
  read : Bytes → Scan (σ → σ)

/-- A member that sets one part. -/
def Field.part {σ α : Type} (name : String) (required : Bool) (read : Bytes → Scan α)
    (set : α → σ → σ) : Field σ :=
  ⟨name, required, fun input => (read input).map fun (a, rest) => (set a, rest)⟩

/-- The shape of a record with parts `σ`. -/
structure Record (σ : Type) where
  /-- The name of the record in faults. -/
  name : String
  fields : List (Field σ)
  /-- What is done with the value of a member that is not known. -/
  other : String → Bytes → Scan (σ → σ) := fun _ input =>
    (skipValue input).map fun (_, rest) => (id, rest)
  /-- Whether the list of the values of the members in their order will do as well. -/
  listed : Bool := true

namespace Record

variable {σ : Type}

/-- The name of the record and the number of its members, as a fault shows them. -/
def extent (r : Record σ) : String :=
  "struct " ++ r.name ++ " with " ++ toString r.fields.length ++
    (if r.fields.length = 1 then " element" else " elements")

/-- The first member that has to be there and is not among the names seen. -/
def missing? (r : Record σ) (seen : List String) : Option String :=
  (r.fields.find? fun field => field.required && !seen.contains field.name).map (·.name)

/-- Reads the members of a record up to its end. -/
def readMembers (r : Record σ) :
    (steps : Nat) → Bytes → (fresh : Bool) → (seen : List String) → σ → Scan σ
  | 0, _, _, _, _ => .error .truncated
  | steps + 1, input, fresh, seen, parts =>
    match scanKey fresh input with
    | .error fault => .error fault
    | .ok (none, rest) =>
      match r.missing? seen with
      | some name => .error (.mismatch (.missingField name))
      | none => (closeObject rest).map fun (_, rest) => (parts, rest)
    | .ok (some name, rest) =>
      if seen.contains name then .error (.mismatch (.duplicateField name))
      else
        match scanColon rest with
        | .error fault => .error fault
        | .ok (_, rest) =>
          let known := r.fields.find? fun field => field.name == name
          let read := known.elim (r.other name) (·.read)
          match read rest with
          | .error fault => .error fault
          | .ok (change, rest) =>
            readMembers r steps rest false (if known.isSome then name :: seen else seen)
              (change parts)

/-- Reads the values of a record in the order of its members; the last ones may be left out if
they need not be there. -/
def readListed (r : Record σ) :
    List (Field σ) → (count : Nat) → Bytes → (fresh : Bool) → σ → Scan σ
  | [], _, input, _, parts => (closeArray input).map fun (_, rest) => (parts, rest)
  | field :: fields, count, input, fresh, parts =>
    match scanItem fresh input with
    | .error fault => .error fault
    | .ok (false, rest) =>
      if field.required then .error (.mismatch (.wrongLength count r.extent))
      else readListed r fields (count + 1) rest fresh parts
    | .ok (true, rest) =>
      match field.read rest with
      | .error fault => .error fault
      | .ok (change, rest) => readListed r fields (count + 1) rest false (change parts)

/-- Reads a record; `start` holds the parts that are not there. -/
def read (r : Record σ) (start : σ) (input : Bytes) : Scan σ :=
  match skipBlank input with
  | [] => .error .truncated
  | b :: rest =>
    if glyph b = '{' then r.readMembers (rest.length + 1) rest true [] start
    else if glyph b = '[' ∧ r.listed then r.readListed r.fields 0 rest true start
    else .error (wrongKind ("struct " ++ r.name) input)

end Record

end EventIngress.Json
