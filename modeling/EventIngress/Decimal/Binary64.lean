/-!
# Double precision numbers

Finite binary floating-point numbers of double precision in exact integer arithmetic. The magnitude
of a number is its place in the ascending list of all magnitudes: place 0 is zero, the first `2^52`
places are `2^-1074` apart, and the distance doubles after every further `2^52` places.

Results:

* `Binary64.mantissa`, `Binary64.exponent`: the number at a place as `mantissa * 2^exponent`.
* `Binary64.ofQuotient?`: rounds a quotient to the nearest number, a tie to the even mantissa.
* `Binary64.times?`, `Binary64.over?`: rounded product and quotient.
-/

namespace EventIngress

/-- Number of places of one distance: `2^52`. -/
abbrev binade : Nat := 0x10000000000000

/-- A finite number of double precision. -/
structure Binary64 where
  negative : Bool
  place : Nat
  finite : place < 2047 * binade
  deriving DecidableEq

namespace Binary64

/-- The integer part of the form `mantissa * 2^exponent`. -/
def mantissa (x : Binary64) : Nat :=
  if x.place < binade then x.place else x.place % binade + binade

/-- The power of two of the form `mantissa * 2^exponent`. -/
def exponent (x : Binary64) : Int :=
  if x.place < binade then -1074 else (x.place / binade : Nat) - 1075

/-- Zero with a sign. -/
def zero (negative : Bool) : Binary64 :=
  ⟨negative, 0, by decide⟩

/-- Whether the number is zero of either sign. -/
def isZero (x : Binary64) : Bool :=
  x.place == 0

/-- The number of the other sign. -/
def negate (x : Binary64) : Binary64 :=
  { x with negative := !x.negative }

/-- The quotient of two natural numbers rounded to the nearest one, a tie to the even one. -/
def roundDiv (num den : Nat) : Nat :=
  let floor := num / den
  let rest := num % den
  if 2 * rest < den then floor
  else if den < 2 * rest then floor + 1
  else floor + floor % 2

/-- The exponent of the highest power of two that a positive quotient reaches. -/
def log2Quotient (num den : Nat) : Int :=
  let e : Int := (Nat.log2 num : Int) - Nat.log2 den
  if den * Nat.pow 2 e.toNat ≤ num * Nat.pow 2 (-e).toNat then e else e - 1

/-- The place nearest to a quotient. A mantissa that rounds up to a power of two moves to the next
place by itself, because the places are counted through. -/
def placeOfQuotient (num den : Nat) : Nat :=
  if num = 0 then 0
  else
    let e := max (log2Quotient num den - 52) (-1074)
    (e + 1074).toNat * binade +
      roundDiv (num * Nat.pow 2 (-e).toNat) (den * Nat.pow 2 e.toNat)

/-- The number nearest to a quotient, or nothing if that is beyond the finite numbers. -/
def ofQuotient? (negative : Bool) (num den : Nat) : Option Binary64 :=
  let place := placeOfQuotient num den
  if h : place < 2047 * binade then some ⟨negative, place, h⟩ else none

/-- The number nearest to a natural number. -/
def ofNat? (n : Nat) : Option Binary64 :=
  ofQuotient? false n 1

/-- The rounded product. -/
def times? (x y : Binary64) : Option Binary64 :=
  let e := x.exponent + y.exponent
  ofQuotient? (x.negative != y.negative) (x.mantissa * y.mantissa * Nat.pow 2 e.toNat)
    (Nat.pow 2 (-e).toNat)

/-- The rounded quotient; nothing for a divisor of zero. -/
def over? (x y : Binary64) : Option Binary64 :=
  if y.isZero then none
  else
    let e := x.exponent - y.exponent
    ofQuotient? (x.negative != y.negative) (x.mantissa * Nat.pow 2 e.toNat)
      (y.mantissa * Nat.pow 2 (-e).toNat)

end Binary64

end EventIngress
