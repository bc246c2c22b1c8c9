import SqlBuilder.Text.Digits

/-!
# Points in time

A timestamp counts seconds and nanoseconds from the start of 1970 in UTC, leap seconds left out.
A count of nanoseconds of a second or more stands for a leap second: the time of day then reads
one second later, so that `23:59:60` can be written. `Date.ofDay` turns a count of days into a
date of the Gregorian calendar, extended to all years; it counts from the first of March, so that
the day a leap year adds is the last one of its year.
-/

namespace SqlBuilder

/-- A date of the Gregorian calendar. -/
structure Date where
  year : Int
  month : Nat
  day : Nat
  deriving DecidableEq, Repr

/-- The date `n` days after the first of January 1970. Years are counted in eras of four hundred,
each of 146097 days, and begin in March. -/
def Date.ofDay (n : Int) : Date :=
  -- Year 0 began its March 719468 days before the start of 1970.
  let shifted := n + 719468
  let era := shifted / 146097
  let dayOfEra := (shifted % 146097).toNat
  -- Take out the leap days of the era so far, so that every year has 365 days.
  let yearOfEra := (dayOfEra - dayOfEra / 1460 + dayOfEra / 36524 - dayOfEra / 146096) / 365
  let dayOfYear := dayOfEra - (365 * yearOfEra + yearOfEra / 4 - yearOfEra / 100)
  -- From March on, five months have 153 days, again and again.
  let fromMarch := (5 * dayOfYear + 2) / 153
  let day := dayOfYear - (153 * fromMarch + 2) / 5 + 1
  let month := if fromMarch < 10 then fromMarch + 3 else fromMarch - 9
  ⟨era * 400 + yearOfEra + (if month ≤ 2 then 1 else 0), month, day⟩

/-- A point in time: seconds since the start of 1970 in UTC, and nanoseconds. -/
structure Timestamp where
  seconds : Int
  nanos : Nat
  deriving DecidableEq, Repr

namespace Timestamp

/-- The nanoseconds of a second. -/
def second : Nat := 1000000000

/-- The digits of `n`, filled up with zeros on the left to `width`. -/
def padded (width n : Nat) : String :=
  let digits := Text.digits n
  String.ofList (List.replicate (width - digits.length) '0' ++ digits)

/-- Four digits for a year from 0 to 9999; any other has a sign and four digits or more. -/
def yearText (y : Int) : String :=
  if 0 ≤ y ∧ y ≤ 9999 then padded 4 y.toNat
  else (if y < 0 then "-" else "+") ++ padded 4 y.natAbs

/-- A fraction of a second in the fewest of 0, 3, 6 or 9 digits that are exact. -/
def fractionText (nanos : Nat) : String :=
  if nanos = 0 then ""
  else if nanos % 1000000 = 0 then "." ++ padded 3 (nanos / 1000000)
  else if nanos % 1000 = 0 then "." ++ padded 6 (nanos / 1000)
  else "." ++ padded 9 nanos

/-- How a text marks that its time is UTC. -/
inductive Zone where
  | offset
  | letter
  deriving DecidableEq, Repr

/-- The text of a mark. -/
def Zone.text : Zone → String
  | .offset => "+00:00"
  | .letter => "Z"

/-- Date, time of day and the mark for UTC, as RFC 3339 lays them out. -/
def text (zone : Zone) (t : Timestamp) : String :=
  let date := Date.ofDay (t.seconds / 86400)
  let ofDay := (t.seconds % 86400).toNat
  let leap := t.nanos / second
  yearText date.year ++ "-" ++ padded 2 date.month ++ "-" ++ padded 2 date.day ++ "T" ++
    padded 2 (ofDay / 3600) ++ ":" ++ padded 2 (ofDay / 60 % 60) ++ ":" ++
    padded 2 (ofDay % 60 + leap) ++ fractionText (t.nanos % second) ++ zone.text

end Timestamp

end SqlBuilder
