import Columnar.Error

/-!
# Reading values

Values that are written as text or as parts of a date: numbers, identifiers, dates and readings of
a clock. What is no such value is refused, and of several parts out of range the first one is named.
`isValid_of_outOfRange?_eq_none` says that a date whose parts are all in range exists.
-/

namespace Columnar

namespace Value

/-- The float a text writes. -/
def readFloat (s : String) : Except Failure Value :=
  match Binary64.ofText? s with
  | some x => .ok (float x)
  | none => .error (.notAFloat s)

/-- The integer a text writes. -/
def readInt (s : String) : Except Failure Value :=
  match Integer.ofText? s with
  | some n => .ok (int n)
  | none => .error (.notAnInteger 10 s)

/-- The decimal a text writes. -/
def readDecimal (s : String) : Except Failure Value :=
  match Decimal.ofText? s with
  | some d => .ok (decimal d)
  | none => .error .notADecimal

/-- The identifier a text writes. -/
def readUuid (s : String) : Except Failure Value :=
  let digits := Uuid.digits s
  if digits.length = 32 then
    match Uuid.ofDigits? digits with
    | some u => .ok (uuid u)
    | none => .error (.notAnInteger 16 (String.ofList digits))
  else .error .notAUuid

end Value

namespace Date

/-- The first of year, month and day that is out of range. -/
def outOfRange? (year month day : Int) : Option DatePart :=
  if year < 1 || 9999 < year then some (.year year)
  else if month < 1 || 12 < month then some .month
  else if day < 1 || (Civil.monthLength year.toNat month.toNat : Int) < day then some .day
  else none

/-- The date with the given year, month and day. -/
def read (year month day : Int) : Except Failure Date :=
  match outOfRange? year month day, ofCivil? ⟨year.toNat, month.toNat, day.toNat⟩ with
  | some part, _ => .error (.partOutOfRange part)
  | none, some d => .ok d
  | none, none => .error (.partOutOfRange .day)

/-- A date whose parts are all in range is one of the calendar. -/
theorem isValid_of_outOfRange?_eq_none {year month day : Int}
    (h : outOfRange? year month day = none) :
    (Civil.mk year.toNat month.toNat day.toNat).isValid = true := by
  simp only [outOfRange?] at h
  split at h <;> try cases h
  split at h <;> try cases h
  split at h <;> try cases h
  rename_i hy hm hd
  simp only [Bool.or_eq_true, decide_eq_true_eq, not_or, Int.not_lt] at hy hm hd
  simp only [Civil.isValid, Bool.and_eq_true, decide_eq_true_eq]
  omega

end Date

namespace DateTime

/-- The first of hour, minute, second and microsecond that is out of range. -/
def outOfRange? (hour minute second micro : Int) : Option DatePart :=
  if hour < 0 || 23 < hour then some .hour
  else if minute < 0 || 59 < minute then some .minute
  else if second < 0 || 59 < second then some .second
  else if micro < 0 || 999999 < micro then some .microsecond
  else none

/-- The offset of a clock: less than a day in either direction. -/
def readOffset : Option Int → Except Failure (Option Int)
  | none => .ok none
  | some seconds =>
    if seconds.natAbs < 86400 then .ok (some seconds)
    else .error (.partOutOfRange (.offset seconds))

/-- The reading of a clock with the given date, time and offset. -/
def read (date : Int × Int × Int) (time : Int × Int × Int × Int) (offset : Option Int) :
    Except Failure DateTime := do
  let (year, month, day) := date
  let (hour, minute, second, micro) := time
  let offset ← readOffset offset
  let d ← Date.read year month day
  match outOfRange? hour minute second micro with
  | some part => throw (.partOutOfRange part)
  | none =>
    match ofParts? d.civil hour.toNat minute.toNat second.toNat micro.toNat offset with
    | some t => return t
    | none => throw (.partOutOfRange .microsecond)

end DateTime

end Columnar
