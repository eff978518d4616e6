import EventIngress.Decimal.Binary64

/-!
# Shortest decimals

The decimal with the fewest digits among those that are nearer to a number of double precision than
to its neighbours, and of these the nearest to the number.

Results:

* `Shortest.Interval`: the decimals that read back as a number.
* `Shortest.digits`: the shortest of them, as `digits * 10^exponent`.
-/

namespace EventIngress.Shortest

/-- The values that round to one number, with the number itself; all three are quotients with the
denominator `den`. The ends belong to the interval if `closed` says so. -/
structure Interval where
  low : Nat
  value : Nat
  high : Nat
  den : Nat
  closed : Bool

/-- The interval of a nonzero number. The gap below a power of two is half the gap above it. -/
def intervalOf (x : Binary64) : Interval :=
  let m := x.mantissa
  let e := x.exponent - 2
  let up := Nat.pow 2 e.toNat
  let below := if m = binade && x.place ≠ binade then 1 else 2
  ⟨(4 * m - below) * up, 4 * m * up, (4 * m + 2) * up, Nat.pow 2 (-e).toNat, m % 2 == 0⟩

/-- Whether `n * 10^k` lies in the interval. -/
def Interval.holds (i : Interval) (n : Nat) (k : Int) : Bool :=
  let v := n * Nat.pow 10 k.toNat * i.den
  let scale := Nat.pow 10 (-k).toNat
  if i.closed then i.low * scale ≤ v && v ≤ i.high * scale
  else i.low * scale < v && v < i.high * scale

/-- The point of the grid of multiples of `10^k` that lies in the interval and is nearest to the
value, if there is one; a tie goes to the even multiple. -/
def Interval.point? (i : Interval) (k : Int) : Option Nat :=
  let num := i.value * Nat.pow 10 (-k).toNat
  let den := i.den * Nat.pow 10 k.toNat
  let floor := num / den
  match i.holds floor k, i.holds (floor + 1) k with
  | true, true => some (Binary64.roundDiv num den)
  | true, false => some floor
  | false, true => some (floor + 1)
  | false, false => none

/-- Looks for a point on ever finer grids. -/
def Interval.search (i : Interval) : Nat → Int → Option (Nat × Int)
  | 0, _ => none
  | steps + 1, k =>
    match i.point? k with
    | some n => some (n, k)
    | none => i.search steps (k - 1)

/-- A power of ten that is not below the quotient of two positive numbers and at most a hundred
times as large. -/
def startExponent (num den : Nat) : Int :=
  if den ≤ num then (Nat.toDigits 10 (num / den)).length
  else 2 - ((Nat.toDigits 10 (den / num)).length : Int)

/-- Takes trailing zeros into the exponent. -/
def stripZeros : Nat → Nat → Int → Nat × Int
  | 0, n, k => (n, k)
  | steps + 1, n, k => if n ≠ 0 ∧ n % 10 = 0 then stripZeros steps (n / 10) (k + 1) else (n, k)

/-- The shortest decimal of a number, as digits without trailing zeros and a power of ten. -/
def digits (x : Binary64) : Nat × Int :=
  if x.isZero then (0, 0)
  else
    let i := intervalOf x
    match i.search 25 (startExponent i.value i.den) with
    | some (n, k) => stripZeros 25 n k
    | none => (x.mantissa, x.exponent)

end EventIngress.Shortest
