import EventIngress.Toml.Text

/-!
# TOML documents

A document is a sequence of lines: headers, which say to which table the next lines belong, and
values under plain or dotted keys. A name is given a value once.

Results:

* `Toml.maxDepth`: how many lists and tables in braces a value may nest.
* `Toml.readValue`: reads a value.
* `Toml.parse`: the members of a document.
-/

namespace EventIngress.Toml

/-! ## Between values -/

/-- The input after blanks on the same line. -/
def skipBlank : List Char → List Char
  | [] => []
  | c :: rest => if c = ' ' ∨ c = '\t' then skipBlank rest else c :: rest

/-- The input after blanks, line ends and comments. -/
def skipGap : (inComment : Bool) → List Char → Option (List Char)
  | _, [] => some []
  | inComment, c :: rest =>
    if c = '\n' then skipGap false rest
    else if c = '\r' then if rest.head? = some '\n' then skipGap false rest else none
    else if inComment then if isTextChar c then skipGap true rest else none
    else if c = ' ' ∨ c = '\t' then skipGap false rest
    else if c = '#' then skipGap true rest
    else some (c :: rest)

/-- The input after the end of a line, on which nothing but blanks and a comment may follow. -/
def endLine : (inComment : Bool) → List Char → Option (List Char)
  | _, [] => some []
  | inComment, c :: rest =>
    if c = '\n' then some rest
    else if c = '\r' then after? '\n' rest
    else if inComment then if isTextChar c then endLine true rest else none
    else if c = ' ' ∨ c = '\t' then endLine false rest
    else if c = '#' then endLine true rest
    else none

/-! ## Keys -/

/-- Whether a character may stand in a name without quotes. -/
def isNameChar (c : Char) : Bool :=
  c.isAlphanum || c == '_' || c == '-'

/-- Reads one name. -/
def scanName (input : List Char) : Option (String × List Char) :=
  match input with
  | '"' :: rest => scanBasic rest
  | '\'' :: rest => scanLiteral rest
  | _ =>
    match input.takeWhile isNameChar with
    | [] => none
    | name => some (String.ofList name, input.dropWhile isNameChar)

/-- Reads names with points between them: the way and the last name. `taken` holds the names so
far, last first. -/
def scanKeyFrom : (steps : Nat) → List Char → (taken : List String) →
    Option ((List String × String) × List Char)
  | 0, _, _ => none
  | steps + 1, input, taken =>
    match scanName (skipBlank input) with
    | none => none
    | some (name, rest) =>
      match skipBlank rest with
      | '.' :: rest => scanKeyFrom steps rest (name :: taken)
      | rest => some ((taken.reverse, name), rest)

/-- Reads a plain or dotted key. -/
def scanKey (steps : Nat) (input : List Char) : Option ((List String × String) × List Char) :=
  scanKeyFrom steps input []

/-! ## Values -/

/-- How many lists and tables in braces a value may nest. -/
def maxDepth : Nat := 80

mutual

/-- Reads a value with at most `depth` nested lists and tables. `steps` bounds the number of
steps. -/
def readValue : (steps depth : Nat) → List Char → Option (Value × List Char)
  | 0, _, _ => none
  | steps + 1, depth, input =>
    match input with
    | [] => none
    | c :: rest =>
      if c = '"' ∨ c = '\'' then (scanText (c :: rest)).map fun (s, rest) => (.string s, rest)
      else if c = '[' then
        match depth with
        | 0 => none
        | depth + 1 => readItems steps depth rest []
      else if c = '{' then
        match depth with
        | 0 => none
        | depth + 1 => readMembers steps depth rest true []
      else scanWord (c :: rest)

/-- Reads the items of a list up to its end; `taken` holds the items so far, last first. -/
def readItems : (steps depth : Nat) → List Char → (taken : List Value) →
    Option (Value × List Char)
  | 0, _, _, _ => none
  | steps + 1, depth, input, taken =>
    match skipGap false input with
    | none | some [] => none
    | some (c :: rest) =>
      if c = ']' then some (.array false taken.reverse, rest)
      else
        match readValue steps depth (c :: rest) with
        | none => none
        | some (item, rest) =>
          match skipGap false rest with
          | some (',' :: rest) => readItems steps depth rest (item :: taken)
          | some (']' :: rest) => some (.array false (item :: taken).reverse, rest)
          | _ => none

/-- Reads the members of a table in braces up to its end. `due` says that a member may come
next. -/
def readMembers : (steps depth : Nat) → List Char → (due : Bool) → Members →
    Option (Value × List Char)
  | 0, _, _, _, _ => none
  | steps + 1, depth, input, due, members =>
    match skipGap false input with
    | none | some [] => none
    | some (c :: rest) =>
      if c = '\x7d' then some (.table .braces members, rest)
      else if due = false then if c = ',' then readMembers steps depth rest true members else none
      else
        match scanKey steps (c :: rest) with
        | some ((path, name), '=' :: rest) =>
          match readValue steps depth (skipBlank rest) with
          | none => none
          | some (value, rest) =>
            match put? .braces path name value members with
            | none => none
            | some members => readMembers steps depth rest false members
        | _ => none

end

/-! ## Lines -/

/-- Reads a header after its opening bracket. `closing` is what ends it. -/
def scanHeader (steps : Nat) (closing : List Char) (input : List Char) :
    Option ((List String × String) × List Char) :=
  match scanKey steps input with
  | none => none
  | some (key, rest) =>
    if rest.take closing.length = closing then
      (endLine false (rest.drop closing.length)).map (key, ·)
    else none

/-- Reads the lines of a document. The values go to the table that `current` leads to. Each line
takes a step. -/
def readLines (valueSteps : Nat) :
    (steps : Nat) → List Char → (current : List String) → Members → Option Members
  | 0, _, _, _ => none
  | steps + 1, input, current, members =>
    match skipBlank input with
    | [] => some members
    | '[' :: '[' :: rest =>
      match scanHeader valueSteps [']', ']'] rest with
      | none => none
      | some ((path, name), rest) =>
        match openItem? path name members with
        | none => none
        | some members => readLines valueSteps steps rest (path ++ [name]) members
    | '[' :: rest =>
      match scanHeader valueSteps [']'] rest with
      | none => none
      | some ((path, name), rest) =>
        match openTable? path name members with
        | none => none
        | some members => readLines valueSteps steps rest (path ++ [name]) members
    | c :: rest =>
      if c = '\n' ∨ c = '\r' ∨ c = '#' then
        match endLine false (c :: rest) with
        | none => none
        | some rest => readLines valueSteps steps rest current members
      else
        match scanKey valueSteps (c :: rest) with
        | some ((path, name), '=' :: rest) =>
          match readValue valueSteps maxDepth (skipBlank rest) with
          | none => none
          | some (value, rest) =>
            let place := fun origin table => put? origin path name value table
            match endLine false rest, change? false place .header current members with
            | some rest, some members => readLines valueSteps steps rest current members
            | _, _ => none
        | _ => none

/-- The members of a document, or nothing if the text is none. A byte order mark at the start does
not count. -/
def parse (text : String) : Option Members :=
  let input :=
    match text.toList with
    | '\ufeff' :: rest => rest
    | input => input
  readLines (2 * input.length + 2) (input.length + 1) input [] []

end EventIngress.Toml
