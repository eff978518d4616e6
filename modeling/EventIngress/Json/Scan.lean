import EventIngress.Json.Fault
import EventIngress.Text.Utf8

/-!
# Scanning JSON

Readers take the bytes that are left and return what they found with the bytes after it. The first
thing that is wrong in reading order decides the fault.

Results:

* `Json.skipBlank`: the bytes after blanks.
* `Json.scanWord`: the rest of a fixed word.
* `Json.scanString`: a text after its opening quote.
* `Json.scanNumber`: a number after its sign.
-/

namespace EventIngress.Json

/-- What a reader yields: a result and the bytes after it, or the first fault. -/
abbrev Scan (α : Type) := Except Fault (α × Bytes)

/-- The character of an ASCII byte. -/
abbrev glyph (b : UInt8) : Char :=
  Char.ofUInt8 b

/-- Whether a byte separates tokens. -/
def isBlankByte (b : UInt8) : Bool :=
  b == 0x20 || b == 0x0a || b == 0x0d || b == 0x09

/-- The bytes after leading blanks. -/
def skipBlank : Bytes → Bytes
  | [] => []
  | b :: rest => if isBlankByte b then skipBlank rest else b :: rest

/-- Whether a byte is a decimal digit. -/
def isDigitByte (b : UInt8) : Bool :=
  0x30 ≤ b && b ≤ 0x39

/-- The value of a decimal digit. -/
def digitOf (b : UInt8) : Nat :=
  b.toNat - 0x30

/-! ## Words -/

/-- Reads the given characters. -/
def scanWord : List Char → Bytes → Scan Unit
  | [], input => .ok ((), input)
  | _ :: _, [] => .error .truncated
  | c :: word, b :: rest => if glyph b = c then scanWord word rest else .error .malformed

/-! ## Texts -/

/-- The value of a hexadecimal digit of either case. -/
def hexOf? (b : UInt8) : Option Nat :=
  let n := b.toNat
  if 0x30 ≤ n ∧ n ≤ 0x39 then some (n - 0x30)
  else if 0x61 ≤ n ∧ n ≤ 0x66 then some (n - 0x57)
  else if 0x41 ≤ n ∧ n ≤ 0x46 then some (n - 0x37)
  else none

/-- The value of four hexadecimal digits. -/
def unit? (a b c d : UInt8) : Option Nat :=
  match hexOf? a, hexOf? b, hexOf? c, hexOf? d with
  | some w, some x, some y, some z => some (w * 0x1000 + x * 0x100 + y * 0x10 + z)
  | _, _, _, _ => none

/-- The byte that a short escape stands for. -/
def shortEscape? (b : UInt8) : Option UInt8 :=
  match glyph b with
  | '"' => some 0x22
  | '\\' => some 0x5c
  | '/' => some 0x2f
  | 'b' => some 0x08
  | 'f' => some 0x0c
  | 'n' => some 0x0a
  | 'r' => some 0x0d
  | 't' => some 0x09
  | _ => none

/-- Whether a 16-bit unit is the first half of a pair. -/
def isHighHalf (n : Nat) : Bool :=
  0xd800 ≤ n && n ≤ 0xdbff

/-- Whether a 16-bit unit is the second half of a pair. -/
def isLowHalf (n : Nat) : Bool :=
  0xdc00 ≤ n && n ≤ 0xdfff

/-- The UTF-8 form of a code point, last byte first. -/
def pointBytes (n : Nat) : Bytes :=
  (Bytes.ofText (String.singleton (Char.ofNat n))).reverse

/-- Reads a text after its opening quote. `taken` holds the bytes so far, last first; that they are
UTF-8 is looked at where the text ends. -/
def scanStringOnto : (input taken : Bytes) → Scan String
  | [], _ => .error .truncated
  | b :: rest, taken =>
    if glyph b = '"' then
      match Bytes.text? taken.reverse with
      | some s => .ok (s, rest)
      | none => .error .malformed
    else if b < 0x20 then .error .malformed
    else if glyph b = '\\' then
      match rest with
      | [] => .error .truncated
      | e :: rest =>
        match shortEscape? e with
        | some short => scanStringOnto rest (short :: taken)
        | none =>
          if glyph e = 'u' then
            match rest with
            | h₀ :: h₁ :: h₂ :: h₃ :: rest =>
              match unit? h₀ h₁ h₂ h₃ with
              | none => .error .malformed
              | some high =>
                if isLowHalf high then .error .malformed
                else if isHighHalf high then
                  match rest with
                  | [] => .error .truncated
                  | [x] => if glyph x = '\\' then .error .truncated else .error .malformed
                  | x :: y :: rest =>
                    if glyph x = '\\' ∧ glyph y = 'u' then
                      match rest with
                      | l₀ :: l₁ :: l₂ :: l₃ :: rest =>
                        match unit? l₀ l₁ l₂ l₃ with
                        | none => .error .malformed
                        | some low =>
                          if isLowHalf low then
                            scanStringOnto rest
                              (pointBytes ((high - 0xd800) * 0x400 + (low - 0xdc00) + 0x10000) ++
                                taken)
                          else .error .malformed
                      | _ => .error .truncated
                    else .error .malformed
                else scanStringOnto rest (pointBytes high ++ taken)
            | _ => .error .truncated
          else .error .malformed
    else scanStringOnto rest (b :: taken)

/-- Reads a text after its opening quote. -/
def scanString (input : Bytes) : Scan String :=
  scanStringOnto input []

/-! ## Numbers -/

/-- The largest significand that is kept exactly. -/
def significandLimit : Nat := 0x10000000000000000

/-- The bytes after leading digits. -/
def skipDigits : Bytes → Bytes
  | [] => []
  | b :: rest => if isDigitByte b then skipDigits rest else b :: rest

/-- Reads digits into the significand `n` as long as it stays below the limit; yields it with the
number of digits read. -/
def scanSignificand : (input : Bytes) → (n count : Nat) → (Nat × Nat) × Bytes
  | [], n, count => ((n, count), [])
  | b :: rest, n, count =>
    if isDigitByte b then
      let m := n * 10 + digitOf b
      if m < significandLimit then scanSignificand rest m (count + 1) else ((n, count), b :: rest)
    else ((n, count), b :: rest)

/-- Divides by a power of ten, in steps where the power is beyond double precision. -/
def shrink (x : Binary64) (e : Nat) : Option Binary64 :=
  if e ≤ 308 then (Binary64.ofNat? (Nat.pow 10 e)).bind x.over?
  else if x.isZero then some x
  else (Binary64.ofNat? (Nat.pow 10 308)).bind x.over? |>.bind fun y => shrink y (e - 308)
termination_by e

/-- The number `significand * 10^e`: the significand is rounded, then multiplied or divided by the
rounded power of ten. There is none if the result is beyond double precision. -/
def scaled? (significand : Nat) (e : Int) : Option Binary64 :=
  (Binary64.ofNat? significand).bind fun x =>
    if e < 0 then shrink x e.natAbs
    else if e ≤ 308 then (Binary64.ofNat? (Nat.pow 10 e.natAbs)).bind x.times?
    else if x.isZero then some x
    else none

/-- The number of double precision with this sign, significand and power of ten. -/
def realOf (negative : Bool) (significand : Nat) (e : Int) (rest : Bytes) : Scan Number :=
  match scaled? significand e with
  | some x => .ok (.real (if negative then x.negate else x), rest)
  | none => .error .malformed

/-- Reads digits into an exponent below `2^31`; a larger one is `none`. -/
def scanExponentDigits : (input : Bytes) → Nat → Option Nat × Bytes
  | [], n => (some n, [])
  | b :: rest, n =>
    if isDigitByte b then
      let m := n * 10 + digitOf b
      if m < 0x80000000 then scanExponentDigits rest m else (none, skipDigits rest)
    else (some n, b :: rest)

/-- Reads an exponent after its mark; `e` is the power of ten before it. -/
def scanExponent (negative : Bool) (significand : Nat) (e : Int) (input : Bytes) : Scan Number :=
  let (down, input) :=
    match input with
    | b :: rest => if glyph b = '-' then (true, rest) else if glyph b = '+' then (false, rest)
      else (false, input)
    | [] => (false, input)
  match input with
  | [] => .error .truncated
  | b :: _ =>
    if isDigitByte b then
      match scanExponentDigits input 0 with
      | (some n, rest) => realOf negative significand (if down then e - n else e + n) rest
      | (none, rest) =>
        if significand ≠ 0 ∧ down = false then .error .malformed
        else .ok (.real (Binary64.zero negative), rest)
    else .error .malformed

/-- Reads an exponent if there is a mark for one. -/
def scanScale (negative : Bool) (significand : Nat) (e : Int) : Bytes → Scan Number
  | [] => realOf negative significand e []
  | b :: rest =>
    if glyph b = 'e' ∨ glyph b = 'E' then scanExponent negative significand e rest
    else realOf negative significand e (b :: rest)

/-- Reads a fraction after its point. Digits that no longer fit the significand are dropped. -/
def scanFraction (negative : Bool) (significand : Nat) (e : Int) (input : Bytes) : Scan Number :=
  let ((m, count), rest) := scanSignificand input significand 0
  match rest with
  | [] => if count = 0 then .error .truncated else realOf negative m (e - count) []
  | b :: _ =>
    if isDigitByte b then scanScale negative m (e - count) (skipDigits rest)
    else if count = 0 then .error .malformed
    else scanScale negative m (e - count) rest

/-- Reads the rest of a number whose whole part no longer fits the significand: each further digit
raises the power of ten. -/
def scanLong (negative : Bool) (significand : Nat) : (input : Bytes) → Nat → Scan Number
  | [], e => realOf negative significand e []
  | b :: rest, e =>
    if isDigitByte b then scanLong negative significand rest (e + 1)
    else if glyph b = '.' then scanFraction negative significand e rest
    else scanScale negative significand e (b :: rest)

/-- The integer of a sign and a magnitude. Where it is no 64-bit integer, and for a negative zero,
it is a number of double precision. -/
def integerOf (negative : Bool) (n : Nat) (rest : Bytes) : Scan Number :=
  if negative then
    if h : 0 < n ∧ n ≤ 0x8000000000000000 then .ok (.integer (-n) (by omega), rest)
    else realOf true n 0 rest
  else
    if h : n < 0x10000000000000000 then .ok (.integer n (by omega), rest)
    else realOf false n 0 rest

/-- Reads a number after its sign. -/
def scanNumber (negative : Bool) : Bytes → Scan Number
  | [] => .error .truncated
  | first :: input =>
    if isDigitByte first then
      let ((n, _), rest) :=
        if glyph first = '0' then ((0, 1), input) else scanSignificand input (digitOf first) 1
      match rest with
      | [] => integerOf negative n []
      | b :: after =>
        if isDigitByte b then
          if glyph first = '0' then .error .malformed else scanLong negative n rest 0
        else if glyph b = '.' then scanFraction negative n 0 after
        else if glyph b = 'e' ∨ glyph b = 'E' then scanExponent negative n 0 after
        else integerOf negative n rest
    else .error .malformed

end EventIngress.Json
