/-!
# Blank characters

The characters with the property `White_Space`, and texts with the blank ends cut off. Every
setting and header that this library trims is trimmed by this rule.

Results:

* `isBlank`: the property.
* `trim`: a text without its leading and trailing blanks.
-/

namespace EventIngress.Text

/-- Whether a character has the property `White_Space`. -/
def isBlank (c : Char) : Bool :=
  let n := c.toNat
  (0x9 ≤ n && n ≤ 0xd) || n == 0x20 || n == 0x85 || n == 0xa0 || n == 0x1680 ||
    (0x2000 ≤ n && n ≤ 0x200a) || n == 0x2028 || n == 0x2029 || n == 0x202f || n == 0x205f ||
    n == 0x3000

/-- A list of characters without its trailing blanks. -/
def trimEnd (cs : List Char) : List Char :=
  (cs.reverse.dropWhile isBlank).reverse

/-- A text without its leading and trailing blanks. -/
def trim (s : String) : String :=
  String.ofList (trimEnd (s.toList.dropWhile isBlank))

/-- Whether a text is empty or holds blanks only. -/
def allBlank (s : String) : Bool :=
  s.toList.all isBlank

end EventIngress.Text
