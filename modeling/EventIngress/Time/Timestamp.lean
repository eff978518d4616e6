import EventIngress.Text.Utf8
import EventIngress.Time.Calendar

/-!
# Timestamps

An instant with the offset of the clock that shows it. The text form is that of internet
timestamps: `2024-05-01T12:00:00.5+02:00`, with the fraction only where there is one and without
trailing zeros, and `Z` for the offset zero. It exists for the years 0 to 9999 and for offsets of
whole minutes below 24 hours.

Results:

* `Timestamp.text?`: the text form.
* `Timestamp.parse?`: reads a text form; any one byte may stand between date and time.
-/

namespace EventIngress

/-- An instant, as seconds and nanoseconds since 1970-01-01T00:00:00Z, and the offset in seconds of
the clock that shows it. -/
structure Timestamp where
  seconds : Int
  nanos : Nat
  offset : Int
  nanos_lt : nanos < 1000000000
  deriving DecidableEq

namespace Timestamp

/-- Days from 0000-01-01 to 1970-01-01. -/
def epochDay : Int := 719528

/-- Number of the local day, from 0000-01-01. -/
def localDay (t : Timestamp) : Int :=
  (t.seconds + t.offset) / 86400 + epochDay

/-- Seconds since the local midnight. -/
def localSecond (t : Timestamp) : Nat :=
  ((t.seconds + t.offset) % 86400).toNat

/-- The instant so many nanoseconds after a second, shown with an offset. -/
def ofParts (seconds : Int) (nanos : Nat) (offset : Int) : Timestamp :=
  ⟨seconds + (nanos / 1000000000 : Nat), nanos % 1000000000, offset, Nat.mod_lt _ (by decide)⟩

/-! ## Writing -/

/-- A number with leading zeros up to a width. -/
def padded (width n : Nat) : List Char :=
  let digits := Nat.toDigits 10 n
  List.replicate (width - digits.length) '0' ++ digits

/-- The fraction of a second, without trailing zeros; nothing for a whole second. -/
def fractionText (nanos : Nat) : List Char :=
  if nanos = 0 then []
  else '.' :: ((padded 9 nanos).reverse.dropWhile (· == '0')).reverse

/-- The offset of a clock. -/
def offsetText (offset : Int) : List Char :=
  if offset = 0 then ['Z']
  else
    let minutes := offset.natAbs / 60
    (if offset < 0 then '-' else '+') :: (padded 2 (minutes / 60) ++ ':' :: padded 2 (minutes % 60))

/-- Whether there is a text form. -/
def hasText (t : Timestamp) : Bool :=
  0 ≤ t.localDay && t.localDay < Date.daysBeforeYear 10000 && t.offset.natAbs < 86400 &&
    t.offset.natAbs % 60 == 0

/-- The characters of the text form. -/
def chars (t : Timestamp) : List Char :=
  let date := Date.ofDay t.localDay.toNat
  let second := t.localSecond
  padded 4 date.year ++ '-' :: (padded 2 date.month ++ '-' :: (padded 2 date.dayOfMonth ++ 'T' ::
    (padded 2 (second / 3600) ++ ':' :: (padded 2 (second / 60 % 60) ++ ':' ::
      (padded 2 (second % 60) ++ fractionText t.nanos ++ offsetText t.offset)))))

/-- The text form, if there is one. -/
def text? (t : Timestamp) : Option String :=
  if t.hasText then some (String.ofList t.chars) else none

/-! ## Reading -/

/-- Reads a fixed number of digits onto `n`. -/
def digits? : (count n : Nat) → Bytes → Option (Nat × Bytes)
  | 0, n, input => some (n, input)
  | _ + 1, _, [] => none
  | count + 1, n, b :: rest =>
    if 0x30 ≤ b ∧ b ≤ 0x39 then digits? count (n * 10 + (b.toNat - 0x30)) rest else none

/-- Reads one of the given characters. -/
def mark? (allowed : List Char) : Bytes → Option Bytes
  | [] => none
  | b :: rest => if allowed.contains (Char.ofUInt8 b) then some rest else none

/-- Reads digits of a fraction. `weight` is the weight of the next digit in nanoseconds; digits
without weight do not count. -/
def fraction : (weight nanos : Nat) → Bytes → Nat × Bytes
  | _, nanos, [] => (nanos, [])
  | weight, nanos, b :: rest =>
    if 0x30 ≤ b ∧ b ≤ 0x39 then fraction (weight / 10) (nanos + weight * (b.toNat - 0x30)) rest
    else (nanos, b :: rest)

/-- Reads a fraction after its point, if there is one. -/
def fraction? (input : Bytes) : Option (Nat × Bytes) :=
  match mark? ['.'] input with
  | none => some (0, input)
  | some rest => (digits? 1 0 rest).map fun _ => fraction 100000000 0 rest

/-- Reads the offset of a clock. -/
def offset? (input : Bytes) : Option (Int × Bytes) :=
  match mark? ['Z', 'z'] input with
  | some rest => some (0, rest)
  | none => do
    let (negative, rest) ←
      match mark? ['-'] input with
      | some rest => some (true, rest)
      | none => (mark? ['+'] input).map fun rest => (false, rest)
    let (hours, rest) ← digits? 2 0 rest
    let rest ← mark? [':'] rest
    let (minutes, rest) ← digits? 2 0 rest
    let seconds : Int := (hours * 60 + minutes : Nat) * 60
    if hours ≤ 23 ∧ minutes ≤ 59 then some (if negative then -seconds else seconds, rest) else none

/-- Reads `YYYY-MM-DD`. -/
def date? (input : Bytes) : Option (Date × Bytes) := do
  let (year, rest) ← digits? 4 0 input
  let rest ← mark? ['-'] rest
  let (month, rest) ← digits? 2 0 rest
  let rest ← mark? ['-'] rest
  let (dayOfMonth, rest) ← digits? 2 0 rest
  let date : Date := ⟨year, month, dayOfMonth⟩
  if date.Valid then some (date, rest) else none

/-- Reads `HH:MM:SS` and a fraction, as hour, minute, second and nanoseconds. -/
def clock? (input : Bytes) : Option ((Nat × Nat × Nat × Nat) × Bytes) := do
  let (hour, rest) ← digits? 2 0 input
  let rest ← mark? [':'] rest
  let (minute, rest) ← digits? 2 0 rest
  let rest ← mark? [':'] rest
  let (second, rest) ← digits? 2 0 rest
  let (nanos, rest) ← fraction? rest
  if hour ≤ 23 ∧ minute ≤ 59 ∧ second ≤ 60 then some ((hour, minute, second, nanos), rest)
  else none

/-- Whether an instant is in the last second of a month at the offset zero. -/
def endsMonth (seconds : Int) : Bool :=
  seconds % 86400 == 86399 &&
    (Date.ofDay (seconds / 86400 + epochDay + 1).toNat).dayOfMonth == 1

/-- Reads a text form from bytes. A leap second is read as the last nanosecond before it, and is
refused where a month does not end. -/
def ofBytes? (input : Bytes) : Option Timestamp := do
  let (date, rest) ← date? input
  let rest ← rest.tail?
  let ((hour, minute, second, nanos), rest) ← clock? rest
  let (offset, rest) ← offset? rest
  let leap := second = 60
  let second := if leap then 59 else second
  let nanos := if leap then 999999999 else nanos
  let seconds : Int :=
    ((date.day : Int) - epochDay) * 86400 + (hour * 3600 + minute * 60 + second : Nat) - offset
  if h : nanos < 1000000000 then
    if rest.isEmpty ∧ (leap → endsMonth seconds) then some ⟨seconds, nanos, offset, h⟩ else none
  else none

/-- Reads a text form. -/
def parse? (s : String) : Option Timestamp :=
  ofBytes? (Bytes.ofText s)

end Timestamp

end EventIngress
