/-!
# Spans of time

A span is a number of nanoseconds. Its text form uses the largest of the units `s`, `ms`, `µs`, `ns`
that it reaches, with a fraction without trailing zeros.

Results:

* `Span.text`: the text form.
-/

namespace EventIngress

/-- A span of time in nanoseconds. -/
structure Span where
  nanos : Nat
  deriving DecidableEq, Repr, Inhabited

namespace Span

/-- A span of milliseconds. -/
def ofMillis (n : Nat) : Span := ⟨n * 1000000⟩

/-- A span of microseconds. -/
def ofMicros (n : Nat) : Span := ⟨n * 1000⟩

/-- The span in a unit of `10^places` nanoseconds: whole units, and a fraction without trailing
zeros. -/
def inUnit (n places : Nat) : List Char :=
  let whole := Nat.toDigits 10 (n / Nat.pow 10 places)
  let digits := Nat.toDigits 10 (n % Nat.pow 10 places)
  let padded := List.replicate (places - digits.length) '0' ++ digits
  let fraction := (padded.reverse.dropWhile (· == '0')).reverse
  if fraction.isEmpty then whole else whole ++ '.' :: fraction

/-- The text form. -/
def text (t : Span) : String :=
  if 1000000000 ≤ t.nanos then String.ofList (inUnit t.nanos 9) ++ "s"
  else if 1000000 ≤ t.nanos then String.ofList (inUnit t.nanos 6) ++ "ms"
  else if 1000 ≤ t.nanos then String.ofList (inUnit t.nanos 3) ++ "µs"
  else toString t.nanos ++ "ns"

end Span

end EventIngress
