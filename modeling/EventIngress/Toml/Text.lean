import EventIngress.Toml.Scalar

/-!
# Texts of TOML

A text stands between quotation marks, with escapes, or between apostrophes, as it is. With three
marks on each side it may span lines.

Results:

* `Toml.scanBasic`, `Toml.scanLiteral`: texts on one line.
* `Toml.scanLongBasic`, `Toml.scanLongLiteral`: texts that may span lines.
* `Toml.scanText`: any text.
-/

namespace EventIngress.Toml

/-- Whether a character may stand in texts and comments as it is: a tab and all that is no control
character. -/
def isTextChar (c : Char) : Bool :=
  c == '\t' || (0x20 ≤ c.toNat && c.toNat != 0x7f)

/-! ## Escapes -/

/-- The character that a short escape stands for. -/
def shortEscape? (c : Char) : Option Char :=
  match c with
  | 'b' => some '\x08'
  | 't' => some '\t'
  | 'n' => some '\n'
  | 'f' => some '\x0c'
  | 'r' => some '\r'
  | 'e' => some '\x1b'
  | '"' => some '"'
  | '\\' => some '\\'
  | _ => none

/-- Number of hexadecimal digits after the mark of a long escape. -/
def longEscape? (c : Char) : Option Nat :=
  match c with
  | 'x' => some 2
  | 'u' => some 4
  | 'U' => some 8
  | _ => none

/-- The character at a code point. -/
def pointChar? (n : Nat) : Option Char :=
  if h : n.isValidChar then some (Char.ofNatAux n h) else none

/-- Where a reader of a text with escapes is. -/
inductive TextState where
  | plain
  /-- After a backslash. -/
  | escape
  /-- In a long escape with so many digits to come. -/
  | digits (left value : Nat)
  /-- After a backslash that nothing but blanks has followed on its line. -/
  | lineEnd
  /-- After the end of a line with a backslash; blanks and further line ends do not count. -/
  | folded
  deriving DecidableEq

/-- Goes on by one digit of a long escape. Yields the next state and the character that has become
complete. -/
def TextState.digit (left value : Nat) (c : Char) : Option (TextState × Option Char) :=
  (digit? 16 c).bind fun d =>
    if left ≤ 1 then (pointChar? (value * 16 + d)).map fun c => (.plain, some c)
    else some (.digits (left - 1) (value * 16 + d), none)

/-- Goes on by the character after a backslash. -/
def TextState.afterBackslash (c : Char) : Option (TextState × Option Char) :=
  match shortEscape? c, longEscape? c with
  | some e, _ => some (.plain, some e)
  | none, some left => some (.digits left 0, none)
  | none, none => none

/-! ## Texts on one line -/

/-- Reads a text after its opening quotation mark; `taken` holds the characters so far, last
first. -/
def scanBasicFrom : TextState → (input taken : List Char) → Option (String × List Char)
  | _, [], _ => none
  | .plain, c :: rest, taken =>
    if c = '"' then some (String.ofList taken.reverse, rest)
    else if c = '\\' then scanBasicFrom .escape rest taken
    else if isTextChar c then scanBasicFrom .plain rest (c :: taken)
    else none
  | .escape, c :: rest, taken =>
    match TextState.afterBackslash c with
    | some (state, made) => scanBasicFrom state rest (made.toList ++ taken)
    | none => none
  | .digits left value, c :: rest, taken =>
    match TextState.digit left value c with
    | some (state, made) => scanBasicFrom state rest (made.toList ++ taken)
    | none => none
  | .lineEnd, _ :: _, _ => none
  | .folded, _ :: _, _ => none

/-- Reads a text after its opening quotation mark. -/
def scanBasic (input : List Char) : Option (String × List Char) :=
  scanBasicFrom .plain input []

/-- Reads a text after its opening apostrophe. -/
def scanLiteral (input : List Char) : Option (String × List Char) :=
  let text := input.takeWhile fun c => c != '\'' && isTextChar c
  (after? '\'' (input.drop text.length)).map fun rest => (String.ofList text, rest)

/-! ## Texts that may span lines -/

/-- What follows three marks, with up to two more marks that belong to the text. -/
def closing? (mark : Char) : List Char → Option (List Char × List Char)
  | a :: b :: c :: rest =>
    if a = mark ∧ b = mark ∧ c = mark then
      match rest with
      | d :: e :: rest =>
        if d = mark then
          if e = mark then some ([mark, mark], rest) else some ([mark], e :: rest)
        else some ([], d :: e :: rest)
      | [d] => if d = mark then some ([mark], []) else some ([], [d])
      | [] => some ([], [])
    else none
  | _ => none

/-- A text without a line end at its start. -/
def dropLineEnd (input : List Char) : List Char :=
  match input with
  | '\n' :: rest => rest
  | '\r' :: '\n' :: rest => rest
  | _ => input

/-- Reads a text after three opening quotation marks and a line end, if there is one. -/
def scanLongBasicFrom : TextState → (input taken : List Char) → Option (String × List Char)
  | _, [], _ => none
  | .plain, c :: rest, taken =>
    match closing? '"' (c :: rest) with
    | some (marks, rest) => some (String.ofList (taken.reverse ++ marks), rest)
    | none =>
      if c = '\\' then scanLongBasicFrom .escape rest taken
      else if c = '\n' ∨ isTextChar c then scanLongBasicFrom .plain rest (c :: taken)
      else if c = '\r' ∧ rest.head? = some '\n' then scanLongBasicFrom .plain rest (c :: taken)
      else none
  | .escape, c :: rest, taken =>
    if c = ' ' ∨ c = '\t' ∨ (c = '\r' ∧ rest.head? = some '\n') then
      scanLongBasicFrom .lineEnd rest taken
    else if c = '\n' then scanLongBasicFrom .folded rest taken
    else
      match TextState.afterBackslash c with
      | some (state, made) => scanLongBasicFrom state rest (made.toList ++ taken)
      | none => none
  | .digits left value, c :: rest, taken =>
    match TextState.digit left value c with
    | some (state, made) => scanLongBasicFrom state rest (made.toList ++ taken)
    | none => none
  | .lineEnd, c :: rest, taken =>
    if c = ' ' ∨ c = '\t' ∨ (c = '\r' ∧ rest.head? = some '\n') then
      scanLongBasicFrom .lineEnd rest taken
    else if c = '\n' then scanLongBasicFrom .folded rest taken
    else none
  | .folded, c :: rest, taken =>
    if c = ' ' ∨ c = '\t' ∨ c = '\n' ∨ (c = '\r' ∧ rest.head? = some '\n') then
      scanLongBasicFrom .folded rest taken
    else
      match closing? '"' (c :: rest) with
      | some (marks, rest) => some (String.ofList (taken.reverse ++ marks), rest)
      | none =>
        if c = '\\' then scanLongBasicFrom .escape rest taken
        else if isTextChar c then scanLongBasicFrom .plain rest (c :: taken)
        else none

/-- Reads a text after three opening quotation marks. -/
def scanLongBasic (input : List Char) : Option (String × List Char) :=
  scanLongBasicFrom .plain (dropLineEnd input) []

/-- Reads a text after three opening apostrophes and a line end, if there is one. -/
def scanLongLiteralFrom : (input taken : List Char) → Option (String × List Char)
  | [], _ => none
  | c :: rest, taken =>
    match closing? '\'' (c :: rest) with
    | some (marks, rest) => some (String.ofList (taken.reverse ++ marks), rest)
    | none =>
      if c = '\n' ∨ isTextChar c ∨ (c = '\r' ∧ rest.head? = some '\n') then
        scanLongLiteralFrom rest (c :: taken)
      else none

/-- Reads a text after three opening apostrophes. -/
def scanLongLiteral (input : List Char) : Option (String × List Char) :=
  scanLongLiteralFrom (dropLineEnd input) []

/-! ## Any text -/

/-- Reads a text. Whether the input starts with one is seen from its first character. -/
def scanText (input : List Char) : Option (String × List Char) :=
  match input with
  | '"' :: '"' :: '"' :: rest => scanLongBasic rest
  | '"' :: rest => scanBasic rest
  | '\'' :: '\'' :: '\'' :: rest => scanLongLiteral rest
  | '\'' :: rest => scanLiteral rest
  | _ => none

end EventIngress.Toml
