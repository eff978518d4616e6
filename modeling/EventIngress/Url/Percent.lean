import EventIngress.Text.Utf8

/-!
# Percent-encoding

Bytes that cannot stand in a part of a URL are written as `%` and two hexadecimal digits.

Results:

* `Percent.encode`: the text of bytes, with those of a set encoded.
* `Percent.decode`: the bytes that a text stands for.
-/

namespace EventIngress.Percent

/-- The digit of a half byte. -/
def digit (n : Nat) : Char :=
  if n < 10 then Char.ofNat (48 + n) else Char.ofNat (55 + n)

/-- The half byte of a digit of either case. -/
def digitValue? (b : UInt8) : Option Nat :=
  let n := b.toNat
  if 48 ≤ n ∧ n ≤ 57 then some (n - 48)
  else if 65 ≤ n ∧ n ≤ 70 then some (n - 55)
  else if 97 ≤ n ∧ n ≤ 102 then some (n - 87)
  else none

/-- The text of a byte. Control characters and bytes beyond ASCII are always encoded. -/
def encodeByte (set : List Char) (b : UInt8) : List Char :=
  if b < 0x20 ∨ 0x7e < b ∨ set.contains (Char.ofUInt8 b) then
    ['%', digit (b.toNat / 16), digit (b.toNat % 16)]
  else [Char.ofUInt8 b]

/-- The text of a part of a URL; the characters of `set` are encoded too. -/
def encode (set : List Char) (part : List Char) : List Char :=
  (Bytes.ofText (String.ofList part)).flatMap (encodeByte set)

/-- The bytes of a text; a `%` without two digits stands for itself. -/
def decode : Bytes → Bytes
  | [] => []
  | [a] => [a]
  | [a, b] => [a, b]
  | a :: b :: c :: rest =>
    if a = 0x25 then
      match digitValue? b, digitValue? c with
      | some high, some low => UInt8.ofNat (high * 16 + low) :: decode rest
      | _, _ => a :: decode (b :: c :: rest)
    else a :: decode (b :: c :: rest)

end EventIngress.Percent
