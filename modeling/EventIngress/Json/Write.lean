import EventIngress.Json.Number
import EventIngress.Text.Hex

/-!
# Writing JSON

The compact form: no blanks, and in texts only the quote, the backslash and the control characters
below U+0020 are escaped.

Results:

* `Json.writeText`: the written form of a text.
* `Json.Tree.write`, `Json.Value.write`: the written form of a value.
* `Json.writeObject`, `Json.writeMap`, `Json.writeArray`: objects and arrays of written values.
-/

namespace EventIngress.Json

/-- The bytes of ASCII characters. -/
def asciiBytes (cs : List Char) : Bytes :=
  cs.map fun c => c.toUInt8

/-! ## Texts -/

/-- The written form of one byte of a text. -/
def escapeByte (b : UInt8) : Bytes :=
  if b = 0x22 then [0x5c, 0x22]
  else if b = 0x5c then [0x5c, 0x5c]
  else if b = 0x08 then [0x5c, 0x62]
  else if b = 0x09 then [0x5c, 0x74]
  else if b = 0x0a then [0x5c, 0x6e]
  else if b = 0x0c then [0x5c, 0x66]
  else if b = 0x0d then [0x5c, 0x72]
  else if b < 0x20 then [0x5c, 0x75, 0x30, 0x30] ++ asciiBytes (Hex.encodeChars [b])
  else [b]

/-- The written form of a text. -/
def writeText (s : String) : Bytes :=
  0x22 :: ((Bytes.ofText s).flatMap escapeByte ++ [0x22])

/-! ## Arrays and objects of written values -/

/-- Written items between commas. -/
def commaSeparated : List Bytes → Bytes
  | [] => []
  | [item] => item
  | item :: items => item ++ 0x2c :: commaSeparated items

/-- An array of written items. -/
def writeArray (items : List Bytes) : Bytes :=
  0x5b :: (commaSeparated items ++ [0x5d])

/-- An object of written values, in the order given. -/
def writeObject (members : List (String × Bytes)) : Bytes :=
  0x7b :: (commaSeparated (members.map fun m => writeText m.1 ++ 0x3a :: m.2) ++ [0x7d])

/-- An object with the entries of a map. -/
def writeMap {ν : Type} (entries : SortedMap String ν) (write : ν → Bytes) : Bytes :=
  writeObject (entries.mapValues write).toList

/-! ## Values -/

/-- The written form of a number. -/
def writeNumber (n : Number) : Bytes :=
  asciiBytes n.text

mutual

/-- The written form of a value. -/
def Tree.write : Tree → Bytes
  | .null => asciiBytes ['n', 'u', 'l', 'l']
  | .boolean true => asciiBytes ['t', 'r', 'u', 'e']
  | .boolean false => asciiBytes ['f', 'a', 'l', 's', 'e']
  | .number n => writeNumber n
  | .string s => writeText s
  | .array items => writeArray (Tree.writeItems items)
  | .object members => writeObject (Tree.writeMembers members)

/-- The written forms of a list of values. -/
def Tree.writeItems : List Tree → List Bytes
  | [] => []
  | item :: items => item.write :: Tree.writeItems items

/-- The written forms of the values of members. -/
def Tree.writeMembers : List (String × Tree) → List (String × Bytes)
  | [] => []
  | (name, value) :: members => (name, value.write) :: Tree.writeMembers members

end

/-- The written form of a value. -/
def Value.write (v : Value) : Bytes :=
  v.tree.write

end EventIngress.Json
