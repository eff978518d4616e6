import EventIngress.Toml.Value

/-!
# Words of TOML

A value without quotes is a truth value, a number, or a point in time.

Results:

* `Toml.integer?`, `Toml.real?`, `Toml.isDateTime`: the three forms.
* `Toml.word?`: the value of a word.
-/

namespace EventIngress.Toml

/-! ## Digits -/

/-- The value of a digit in a base up to sixteen. -/
def digit? (base : Nat) (c : Char) : Option Nat :=
  let n := c.toNat
  let value :=
    if 0x30 ≤ n ∧ n ≤ 0x39 then n - 0x30
    else if 0x61 ≤ n ∧ n ≤ 0x66 then n - 0x57
    else if 0x41 ≤ n ∧ n ≤ 0x46 then n - 0x37
    else base
  if value < base then some value else none

/-- The number that digits stand for, continued from `n`. A single underscore may stand between two
digits; `afterDigit` says that a digit has just been read. -/
def digitsFrom (base : Nat) : (afterDigit : Bool) → List Char → Nat → Option Nat
  | afterDigit, [], n => if afterDigit then some n else none
  | afterDigit, c :: rest, n =>
    if c = '_' then if afterDigit then digitsFrom base false rest n else none
    else
      match digit? base c with
      | some d => digitsFrom base true rest (n * base + d)
      | none => none

/-- The number that digits stand for. -/
def digits? (base : Nat) (cs : List Char) : Option Nat :=
  digitsFrom base false cs 0

/-- A decimal number without a zero in front. -/
def plainDigits? (cs : List Char) : Option Nat :=
  match cs with
  | '0' :: _ :: _ => none
  | _ => digits? 10 cs

/-- A sign, if there is one, and the rest. -/
def signed (cs : List Char) : Bool × List Char :=
  match cs with
  | '-' :: rest => (true, rest)
  | '+' :: rest => (false, rest)
  | _ => (false, cs)

/-! ## Numbers -/

/-- A whole number: decimal with or without a sign, or in another base with its mark. -/
def integer? (cs : List Char) : Option Int :=
  match cs with
  | '0' :: 'x' :: rest => (digits? 16 rest).map Int.ofNat
  | '0' :: 'o' :: rest => (digits? 8 rest).map Int.ofNat
  | '0' :: 'b' :: rest => (digits? 2 rest).map Int.ofNat
  | _ =>
    let (negative, rest) := signed cs
    (plainDigits? rest).map fun n => if negative then -(n : Int) else n

/-- Whether a character is a decimal digit or an underscore. -/
def isDigitMark (c : Char) : Bool :=
  c.isDigit || c == '_'

/-- The power of ten that follows its mark. -/
def exponent? (cs : List Char) : Option Int :=
  let (negative, rest) := signed cs
  (digits? 10 rest).map fun n => if negative then -(n : Int) else n

/-- A number with a fraction, an exponent, or both. -/
def real? (cs : List Char) : Option Real :=
  let (negative, rest) := signed cs
  if rest = ['i', 'n', 'f'] then some (.infinite negative)
  else if rest = ['n', 'a', 'n'] then some .undefined
  else
    (plainDigits? (rest.takeWhile isDigitMark)).bind fun whole =>
      match rest.dropWhile isDigitMark with
      | '.' :: rest =>
        let fraction := rest.takeWhile isDigitMark
        let places := fraction.countP Char.isDigit
        (digits? 10 fraction).bind fun n =>
          let digits := whole * Nat.pow 10 places + n
          match rest.dropWhile isDigitMark with
          | [] => some (.finite negative digits (-places))
          | c :: rest =>
            if c = 'e' ∨ c = 'E' then
              (exponent? rest).map fun e => .finite negative digits (e - places)
            else none
      | c :: rest =>
        if c = 'e' ∨ c = 'E' then (exponent? rest).map fun e => .finite negative whole e else none
      | [] => none

/-! ## Points in time -/

/-- A number of two decimal digits up to a bound, and the rest. -/
def twoDigits? (bound : Nat) : List Char → Option (Nat × List Char)
  | a :: b :: rest =>
    match digit? 10 a, digit? 10 b with
    | some x, some y => if x * 10 + y ≤ bound then some (x * 10 + y, rest) else none
    | _, _ => none
  | _ => none

/-- What follows a mark. -/
def after? (mark : Char) : List Char → Option (List Char)
  | c :: rest => if c = mark then some rest else none
  | [] => none

/-- Number of days in a month. -/
def monthDays (year month : Nat) : Nat :=
  if month = 2 then if (year % 4 = 0 ∧ year % 100 ≠ 0) ∨ year % 400 = 0 then 29 else 28
  else if month = 4 ∨ month = 6 ∨ month = 9 ∨ month = 11 then 30
  else 31

/-- What follows a date. -/
def afterDate? (cs : List Char) : Option (List Char) := do
  let (century, cs) ← twoDigits? 99 cs
  let (year, cs) ← twoDigits? 99 cs
  let cs ← after? '-' cs
  let (month, cs) ← twoDigits? 12 cs
  let cs ← after? '-' cs
  let (day, cs) ← twoDigits? (monthDays (century * 100 + year) month) cs
  if month = 0 ∨ day = 0 then none else some cs

/-- What follows the seconds of a time and their fraction, if there are any. -/
def afterSeconds? (cs : List Char) : Option (List Char) :=
  match cs with
  | ':' :: cs =>
    match twoDigits? 60 cs with
    | some (_, '.' :: cs) =>
      if (cs.head?.map Char.isDigit).getD false then some (cs.dropWhile Char.isDigit) else none
    | some (_, cs) => some cs
    | none => none
  | _ => some cs

/-- What follows a time of day. -/
def afterTime? (cs : List Char) : Option (List Char) := do
  let (_, cs) ← twoDigits? 23 cs
  let cs ← after? ':' cs
  let (_, cs) ← twoDigits? 59 cs
  afterSeconds? cs

/-- Whether the end of a point in time is an offset, or nothing. -/
def isOffset (cs : List Char) : Bool :=
  match cs with
  | [] | ['Z'] | ['z'] => true
  | c :: rest =>
    (c == '+' || c == '-') &&
      ((do
        let (_, rest) ← twoDigits? 23 rest
        let rest ← after? ':' rest
        let (_, rest) ← twoDigits? 59 rest
        pure rest.isEmpty).getD false)

/-- Whether a character may stand between a date and a time. -/
def joinsTime (c : Char) : Bool :=
  c == 'T' || c == 't' || c == ' '

/-- Whether a word is a date, a time of day, or both, the latter with or without an offset. -/
def isDateTime (cs : List Char) : Bool :=
  match afterDate? cs with
  | some [] => true
  | some (c :: rest) => joinsTime c && ((afterTime? rest).map isOffset).getD false
  | none => afterTime? cs == some []

/-! ## Words -/

/-- The value of a word. -/
def word? (cs : List Char) : Option Value :=
  if cs = ['t', 'r', 'u', 'e'] then some (.boolean true)
  else if cs = ['f', 'a', 'l', 's', 'e'] then some (.boolean false)
  else
    match integer? cs, real? cs with
    | some n, _ => some (.integer n)
    | none, some x => some (.real x)
    | none, none => if isDateTime cs then some (.dateTime (String.ofList cs)) else none

/-- Whether a character ends a word. -/
def endsWord (c : Char) : Bool :=
  c == ' ' || c == '\t' || c == '\n' || c == '\r' || c == ',' || c == ']' || c == '}' || c == '#'

/-- Reads a word. A date goes on after a blank if a digit follows. -/
def scanWord (input : List Char) : Option (Value × List Char) :=
  let word := input.takeWhile (!endsWord ·)
  let rest := input.dropWhile (!endsWord ·)
  match afterDate? word, rest with
  | some [], ' ' :: c :: more =>
    if c.isDigit then
      let time := (c :: more).takeWhile (!endsWord ·)
      (word? (word ++ ' ' :: time)).map (·, (c :: more).dropWhile (!endsWord ·))
    else (word? word).map (·, rest)
  | _, _ => (word? word).map (·, rest)

end EventIngress.Toml
