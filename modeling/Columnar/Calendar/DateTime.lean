import Columnar.Calendar.Date
import Columnar.Number.Binary64

/-!
# Date-times

A date-time is a reading of a wall clock, in microseconds since the start of year 1, with or
without the offset of that clock from universal time. Without an offset the clock is taken to
show universal time. The serial form drops the fraction of the second and shows universal time;
it exists exactly when the instant lies in the years 1 to 9999.
-/

namespace Columnar

/-- Microseconds in a day. -/
def microsPerDay : Nat := 86400 * 1000000

/-- A reading of a wall clock, with the clock's offset in seconds east of universal time. -/
structure DateTime where
  micros : Nat
  inRange : micros < dayCount * microsPerDay
  offset : Option Int
  deriving DecidableEq, Repr

namespace DateTime

/-- The start of a date on a clock that shows universal time without saying so. -/
def ofDate (d : Date) : DateTime where
  micros := d.day * microsPerDay
  inRange := by
    have h := d.inRange
    have hp : 0 < microsPerDay := by decide
    exact Nat.mul_lt_mul_of_pos_right h hp
  offset := none

/-- The instant in microseconds of universal time since the start of year 1. -/
def instant (t : DateTime) : Int := t.micros - t.offset.getD 0 * 1000000

/-- Whole seconds of universal time since the start of year 1. -/
def seconds (t : DateTime) : Int := t.instant / 1000000

/-- The date a number of seconds after the start of year 1, and the time of that day. -/
def clockText (seconds : Nat) : String :=
  let c := Civil.ofDay (seconds / 86400)
  let s := seconds % 86400
  Text.ofNat c.year ++ "-" ++ twoDigits c.month ++ "-" ++ twoDigits c.day
    ++ " " ++ twoDigits (s / 3600) ++ ":" ++ twoDigits (s / 60 % 60) ++ ":" ++ twoDigits (s % 60)

/-- The serial form: universal time to the second, the year without leading zeros; `none` when
the instant lies outside the years 1 to 9999. -/
def serial? (t : DateTime) : Option String :=
  if 0 ≤ t.instant ∧ t.instant < dayCount * microsPerDay then
    some (clockText t.seconds.toNat)
  else none

/-- A reading without offset always has a serial form. -/
theorem serial?_of_offset_none {t : DateTime} (h : t.offset = none) :
    t.serial? = some (clockText t.seconds.toNat) := by
  have hr := t.inRange
  have hi : t.instant = t.micros := by simp [instant, h]
  unfold serial?
  rw [if_pos]
  rw [hi]
  omega

/-- Whether two readings show the same instant: both with an offset or both without. -/
def sameInstant (a b : DateTime) : Bool :=
  a.offset.isSome == b.offset.isSome && a.instant == b.instant

/-- The date shown by the clock. -/
def dayNumber (t : DateTime) : Nat := t.micros / microsPerDay

/-- Hours, minutes, seconds and microseconds shown by the clock. -/
def clock (t : DateTime) : Nat × Nat × Nat × Nat :=
  let m := t.micros % microsPerDay
  let s := m / 1000000
  (s / 3600, s / 60 % 60, s % 60, m % 1000000)

/-- A number of microseconds as six digits. -/
def sixDigits (n : Nat) : String :=
  let digits := Text.ofNat n
  String.ofList (List.replicate (6 - digits.length) '0') ++ digits

private def offsetText (seconds : Int) : String :=
  let n := seconds.natAbs
  (if seconds < 0 then "-" else "+") ++ twoDigits (n / 3600) ++ ":" ++ twoDigits (n / 60 % 60)
    ++ (if n % 60 = 0 then "" else ":" ++ twoDigits (n % 60))

/-- The reading as text: date, time, microseconds unless zero, offset if there is one. -/
def toText (t : DateTime) : String :=
  let c := Civil.ofDay t.dayNumber
  let year := Text.ofNat c.year
  let (h, m, s, micro) := t.clock
  String.ofList (List.replicate (4 - year.length) '0') ++ year
    ++ "-" ++ twoDigits c.month ++ "-" ++ twoDigits c.day
    ++ " " ++ twoDigits h ++ ":" ++ twoDigits m ++ ":" ++ twoDigits s
    ++ (if micro = 0 then "" else "." ++ sixDigits micro)
    ++ (match t.offset with
      | some seconds => offsetText seconds
      | none => "")

/-- The day number of 1 January 1970. -/
def epochDay : Nat := 719162

/-- Milliseconds since 1970 in universal time, computed in floating point: the seconds are
rounded to the nearest number, multiplied by a thousand and cut to an integer. -/
def epochMillis (t : DateTime) : Int :=
  let micros : Int := t.instant - epochDay * microsPerDay
  let seconds := Binary64.ofRatio (micros < 0) micros.natAbs 1000000
  ((seconds.mul (Binary64.ofInt 1000)).truncate?).getD 0

/-- The reading of a clock from its parts, when they are in range. -/
def ofParts? (date : Civil) (hour minute second micro : Nat) (offset : Option Int) :
    Option DateTime :=
  match Date.ofCivil? date with
  | none => none
  | some d =>
    let micros := d.day * microsPerDay + ((hour * 60 + minute) * 60 + second) * 1000000 + micro
    if hour < 24 ∧ minute < 60 ∧ second < 60 ∧ micro < 1000000 then
      if h : micros < dayCount * microsPerDay then some ⟨micros, h, offset⟩ else none
    else none

end DateTime

end Columnar
