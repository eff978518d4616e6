import EventIngress.Text.Ranges

/-!
# Quoted texts

The form in which error messages show a text or a character: between quotes, with the quote, the
backslash and everything that has no visible form of its own written as an escape.

Results:

* `escape`: the written form of one character.
* `quoteText`, `quoteChar`: a text between double quotes, a character between single quotes.
-/

namespace EventIngress.Text

/-- Lowercase hexadecimal digits of a number, without leading zeros. -/
def hexNumeral (n : Nat) : String :=
  String.ofList (Nat.toDigits 16 n)

/-- Whether a quoted text shows a character as it is: it has a visible form and stands on its own. -/
def isVisible (c : Char) : Bool :=
  let n := c.toNat
  if n < 0x7f then 0x20 ≤ n
  else !(RangeTable.mem unprintable n) && !(RangeTable.mem combining n)

/-- The written form of a character inside quotes of the kind `quote`. -/
def escape (quote c : Char) : String :=
  if c = '\t' then "\\t"
  else if c = '\r' then "\\r"
  else if c = '\n' then "\\n"
  else if c = '\x00' then "\\0"
  else if c = '\\' then "\\\\"
  else if c = quote then String.ofList ['\\', quote]
  else if isVisible c then String.singleton c
  else "\\u\x7b" ++ hexNumeral c.toNat ++ "\x7d"

/-- A text between double quotes. -/
def quoteText (s : String) : String :=
  s.foldl (fun out c => out ++ escape '"' c) "\"" ++ "\""

/-- A character between single quotes. -/
def quoteChar (c : Char) : String :=
  "'" ++ escape '\'' c ++ "'"

end EventIngress.Text
