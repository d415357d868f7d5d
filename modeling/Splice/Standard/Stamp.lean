/-
**Stamps of the time.**

The journal stamps events with the time of day, counted from the beginning of 1970 and written as a date
and a time.

* `Stamp.date`: the year, the month and the day of a day, by periods of four hundred years that begin
  with a March;
* `Stamp.written`: the stamp of a number of hundredths of a second.
-/

import Splice.Text

namespace Splice.Stamp

/-- The days from the first of March of the year 0 to the beginning of 1970. -/
def firstDay : Nat := 719468

/-- The days of four hundred years. -/
def period : Nat := 146097

/-- The year, the month and the day of a day. -/
def date (day : Nat) : Nat × Nat × Nat :=
  let days := day + firstDay
  let inPeriod := days % period
  -- A year has a day more when four divides it, unless a hundred does and four hundred does not.
  let year := (inPeriod - inPeriod / 1460 + inPeriod / 36524 - inPeriod / 146096) / 365
  let inYear := inPeriod - (365 * year + year / 4 - year / 100)
  let fromMarch := (5 * inYear + 2) / 153
  let month := if fromMarch < 10 then fromMarch + 3 else fromMarch - 9
  let first := if month ≤ 2 then 1 else 0
  (400 * (days / period) + year + first, month, inYear - (153 * fromMarch + 2) / 5 + 1)

/-- A number filled with zeros to a width. -/
def filled (width number : Nat) : Text :=
  let written := Text.digits 10 number
  List.replicate (width - written.length) (.scalar '0') ++ written

/-- The stamp of a number of hundredths of a second. -/
def written (hundredths : Nat) : Text :=
  let seconds := hundredths / 100
  let (year, month, day) := date (seconds / 86400)
  Text.concat [filled 4 year, "-", filled 2 month, "-", filled 2 day, "T",
    filled 2 (seconds / 3600 % 24), ":", filled 2 (seconds / 60 % 60), ":", filled 2 (seconds % 60),
    ".", filled 2 (hundredths % 100), "0000Z"]

example : written 170917920012 = Text.ofString "2024-02-29T04:00:00.120000Z" := by decide +kernel

end Splice.Stamp
