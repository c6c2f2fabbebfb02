import Columnar.Text.Digit

/-!
# Calendar dates

A date of the years 1 to 9999 is the number of its day, counted from 1 January of year 1. The
conversions to and from year, month and day reckon in years that begin in March, so that the
leap day is the last one of its year.
-/

namespace Columnar

/-- The number of days in the years 1 to 9999. -/
def dayCount : Nat := 3652059

/-- A day of the years 1 to 9999, counted from 1 January of year 1. -/
structure Date where
  day : Nat
  inRange : day < dayCount
  deriving DecidableEq, Repr

/-- A year, a month from 1 and a day of the month from 1. -/
structure Civil where
  year : Nat
  month : Nat
  day : Nat
  deriving DecidableEq, Repr, Inhabited

namespace Civil

/-- Days from 1 March of year 0 to 1 January of year 1. -/
def marchOffset : Nat := 306

/-- The number of a day as year, month and day. -/
def ofDay (n : Nat) : Civil :=
  let fromMarch := n + marchOffset
  let era := fromMarch / 146097
  let dayOfEra := fromMarch % 146097
  let yearOfEra := (dayOfEra - dayOfEra / 1460 + dayOfEra / 36524 - dayOfEra / 146096) / 365
  let dayOfYear := dayOfEra - (365 * yearOfEra + yearOfEra / 4 - yearOfEra / 100)
  let marchMonth := (5 * dayOfYear + 2) / 153
  let day := dayOfYear - (153 * marchMonth + 2) / 5 + 1
  let month := if marchMonth < 10 then marchMonth + 3 else marchMonth - 9
  ⟨yearOfEra + era * 400 + (if month ≤ 2 then 1 else 0), month, day⟩

/-- The number of the day with the given year, month and day. -/
def toDay (c : Civil) : Nat :=
  let marchYear := if c.month ≤ 2 then c.year - 1 else c.year
  let era := marchYear / 400
  let yearOfEra := marchYear % 400
  let marchMonth := if 2 < c.month then c.month - 3 else c.month + 9
  let dayOfYear := (153 * marchMonth + 2) / 5 + c.day - 1
  era * 146097 + (yearOfEra * 365 + yearOfEra / 4 - yearOfEra / 100 + dayOfYear) - marchOffset

/-- Whether a year has a leap day. -/
def isLeap (year : Nat) : Bool := year % 4 == 0 && (year % 100 != 0 || year % 400 == 0)

/-- The number of days of a month. -/
def monthLength (year month : Nat) : Nat :=
  if month == 2 then (if isLeap year then 29 else 28)
  else if [4, 6, 9, 11].contains month then 30 else 31

/-- Whether the date exists in the years 1 to 9999. -/
def isValid (c : Civil) : Bool :=
  1 ≤ c.year && c.year ≤ 9999 && 1 ≤ c.month && c.month ≤ 12 && 1 ≤ c.day
    && c.day ≤ monthLength c.year c.month

end Civil

/-- A number as at least two digits. -/
def twoDigits (n : Nat) : String := if n < 10 then "0" ++ Text.ofNat n else Text.ofNat n

namespace Date

/-- Year, month and day of a date. -/
def civil (d : Date) : Civil := Civil.ofDay d.day

/-- The date with the given year, month and day, when it exists. -/
def ofCivil? (c : Civil) : Option Date :=
  if c.isValid then
    if h : c.toDay < dayCount then some ⟨c.toDay, h⟩ else none
  else none

/-- Year, month and day with the year in four digits. -/
def toText (d : Date) : String :=
  let c := d.civil
  let year := Text.ofNat c.year
  String.ofList (List.replicate (4 - year.length) '0') ++ year
    ++ "-" ++ twoDigits c.month ++ "-" ++ twoDigits c.day

end Date

end Columnar
