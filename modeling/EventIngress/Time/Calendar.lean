/-!
# The calendar

Dates of the proleptic Gregorian calendar from the year 0 on, and days counted from 0000-01-01.

Results:

* `Date.day`, `Date.ofDay`: the count of a date and the date of a count.
* `Date.Valid`: which dates exist.
-/

namespace EventIngress

/-- A date; months and days are counted from one. -/
structure Date where
  year : Nat
  month : Nat
  dayOfMonth : Nat
  deriving DecidableEq, Repr

namespace Date

/-- Whether a year has a leap day. -/
def isLeap (year : Nat) : Bool :=
  year % 4 == 0 && (year % 100 != 0 || year % 400 == 0)

/-- Number of days before the first day of a year. -/
def daysBeforeYear (year : Nat) : Nat :=
  365 * year + (year + 3) / 4 + (year + 399) / 400 - (year + 99) / 100

/-- Lengths of the months of a year. -/
def monthLengths (year : Nat) : List Nat :=
  [31, if isLeap year then 29 else 28, 31, 30, 31, 30, 31, 31, 30, 31, 30, 31]

/-- Length of a month; no day for a month that does not exist. -/
def monthLength (year month : Nat) : Nat :=
  if month = 0 then 0 else (monthLengths year).getD (month - 1) 0

/-- The dates that exist. -/
def Valid (d : Date) : Prop :=
  1 ≤ d.dayOfMonth ∧ d.dayOfMonth ≤ monthLength d.year d.month

instance (d : Date) : Decidable d.Valid :=
  inferInstanceAs (Decidable (_ ∧ _))

/-- The number of days from 0000-01-01 to a date. -/
def day (d : Date) : Nat :=
  daysBeforeYear d.year + ((monthLengths d.year).take (d.month - 1)).foldr (· + ·) 0 +
    (d.dayOfMonth - 1)

/-- The year of a day. The estimate by the mean length of a year is at most one year off. -/
def yearOfDay (day : Nat) : Nat :=
  let estimate := day * 400 / 146097
  if day < daysBeforeYear estimate then estimate - 1
  else if daysBeforeYear (estimate + 1) ≤ day then estimate + 1
  else estimate

/-- The month that the day with this number in its year falls into, with the number of the day in
the month. `month` counts the months that have been passed. -/
def monthOfDay : (lengths : List Nat) → (month rest : Nat) → Nat × Nat
  | [], month, rest => (month, rest)
  | length :: lengths, month, rest =>
    if rest < length then (month + 1, rest + 1) else monthOfDay lengths (month + 1) (rest - length)

/-- The date so many days after 0000-01-01. -/
def ofDay (day : Nat) : Date :=
  let year := yearOfDay day
  let (month, dayOfMonth) := monthOfDay (monthLengths year) 0 (day - daysBeforeYear year)
  ⟨year, month, dayOfMonth⟩

end Date

end EventIngress
