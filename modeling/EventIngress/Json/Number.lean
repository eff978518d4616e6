import EventIngress.Decimal.Shortest
import EventIngress.Json.Value

/-!
# The text of numbers

An integer is written in decimal. A number of double precision is written with its shortest digits:
positionally, with at least one digit after the point, where the leading digit has a weight of
`10^-5` to `10^15`, and otherwise with an exponent.

Results:

* `Json.Number.text`: the written form.
-/

namespace EventIngress.Json.Number

/-- Digits with a point after the first `whole` of them. -/
def pointed (digits : List Char) (whole : Nat) : List Char :=
  digits.take whole ++ '.' :: digits.drop whole

/-- A positive decimal `digits * 10^k`, written positionally or with an exponent. -/
def layout (digits : List Char) (k : Int) : List Char :=
  let lead := k + digits.length - 1
  if 0 ≤ lead ∧ lead ≤ 15 then
    if 0 ≤ k then digits ++ List.replicate k.toNat '0' ++ ['.', '0']
    else pointed digits (lead + 1).toNat
  else if -5 ≤ lead ∧ lead < 0 then
    '0' :: '.' :: (List.replicate (-lead - 1).toNat '0' ++ digits)
  else
    let significand := if digits.length ≤ 1 then digits else pointed digits 1
    let sign := if lead < 0 then '-' else '+'
    significand ++ 'e' :: sign :: Nat.toDigits 10 lead.natAbs

/-- The written form of a number of double precision. -/
def realText (x : Binary64) : List Char :=
  let sign := if x.negative then ['-'] else []
  if x.isZero then sign ++ ['0', '.', '0']
  else
    let (digits, k) := Shortest.digits x
    sign ++ layout (Nat.toDigits 10 digits) k

/-- The written form of an integer. -/
def integerText : Int → List Char
  | .ofNat n => Nat.toDigits 10 n
  | .negSucc n => '-' :: Nat.toDigits 10 (n + 1)

/-- The written form of a number. -/
def text : Number → List Char
  | integer value _ => integerText value
  | real value => realText value

end EventIngress.Json.Number
