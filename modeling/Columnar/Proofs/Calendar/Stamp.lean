import Columnar.Literal.Serial
import Columnar.Proofs.Calendar.Gregorian
import Columnar.Proofs.Number.Digits

/-!
# Dates and date-times as bound

A date or a date-time is bound as the text of its second in universal time. The text shows the date
and the time of that second (`DateTime.shows_clockText`) and no other second has it
(`DateTime.clockText_injective`); only a reading whose offset takes it out of the years 1 to 9999
has none (`Moment.dateTextOf_instant`).
-/

namespace Columnar

/-! ### Two digits -/

theorem toList_twoDigits (n : Nat) :
    (twoDigits n).toList = (if n < 10 then ['0'] else []) ++ Nat.toDigits 10 n := by
  unfold twoDigits Text.ofNat
  split <;> simp

theorem isDigit_of_mem_twoDigits {n : Nat} : ∀ c ∈ (twoDigits n).toList, c.isDigit = true := by
  rw [toList_twoDigits, List.forall_mem_append]
  refine ⟨?_, fun c hc ↦ Text.isDigit_of_mem_toDigits hc⟩
  by_cases h : n < 10
  · rw [if_pos h, List.forall_mem_singleton]
    rfl
  · rw [if_neg h]
    exact List.forall_mem_nil _

theorem natural?_twoDigits (n : Nat) : Text.natural? 0 (twoDigits n).toList = some n := by
  rw [Text.natural?_eq 0 isDigit_of_mem_twoDigits, toList_twoDigits]
  split <;> simp [Nat.ofDigitChars_cons, Nat.ofDigitChars_ten_toDigits]

/-- Two digits end where another character follows. -/
theorem twoDigits_append_inj {m n : Nat} {r r' : List Char}
    (hr : ∀ c ∈ r.head?, c.isDigit = false) (hr' : ∀ c ∈ r'.head?, c.isDigit = false)
    (h : (twoDigits m).toList ++ r = (twoDigits n).toList ++ r') : m = n ∧ r = r' := by
  obtain ⟨hdigits, hrest⟩ := Splitting.eq_of_run isDigit_of_mem_twoDigits
    isDigit_of_mem_twoDigits hr hr' h
  have hread := congrArg (Text.natural? 0) hdigits
  rw [natural?_twoDigits, natural?_twoDigits] at hread
  exact ⟨Option.some.inj hread, hrest⟩

/-! ### The text of a second -/

namespace DateTime

/-- A date and a time of the day as text. -/
def stamp (c : Civil) (hour minute second : Nat) : String :=
  Text.ofNat c.year ++ "-" ++ twoDigits c.month ++ "-" ++ twoDigits c.day
    ++ " " ++ twoDigits hour ++ ":" ++ twoDigits minute ++ ":" ++ twoDigits second

theorem toList_stamp (c : Civil) (hour minute second : Nat) :
    (stamp c hour minute second).toList = Nat.toDigits 10 c.year ++ '-' ::
      ((twoDigits c.month).toList ++ '-' :: ((twoDigits c.day).toList ++ ' ' ::
        ((twoDigits hour).toList ++ ':' :: ((twoDigits minute).toList ++ ':' ::
          (twoDigits second).toList)))) := by
  simp [stamp, Text.ofNat]

/-- A date and a time can be read off their text. -/
theorem stamp_inj {c c' : Civil} {hour hour' minute minute' second second' : Nat}
    (h : stamp c hour minute second = stamp c' hour' minute' second') :
    c = c' ∧ hour = hour' ∧ minute = minute' ∧ second = second' := by
  have hmark {d : Char} (r : List Char) (hd : d.isDigit = false) :
      ∀ c ∈ (d :: r).head?, c.isDigit = false := by
    rintro c ⟨rfl⟩
    exact hd
  have hchars := congrArg String.toList h
  rw [toList_stamp, toList_stamp] at hchars
  obtain ⟨hyear, hchars⟩ := Text.toDigits_append_inj (hmark _ rfl) (hmark _ rfl) hchars
  obtain ⟨hmonth, hchars⟩ := twoDigits_append_inj (hmark _ rfl) (hmark _ rfl)
    (List.cons.inj hchars).2
  obtain ⟨hday, hchars⟩ := twoDigits_append_inj (hmark _ rfl) (hmark _ rfl)
    (List.cons.inj hchars).2
  obtain ⟨hhour, hchars⟩ := twoDigits_append_inj (hmark _ rfl) (hmark _ rfl)
    (List.cons.inj hchars).2
  obtain ⟨hminute, hchars⟩ := twoDigits_append_inj (hmark _ rfl) (hmark _ rfl)
    (List.cons.inj hchars).2
  have hend : ∀ c ∈ ([] : List Char).head?, c.isDigit = false := fun c hc ↦ by cases hc
  have hlast : (twoDigits second).toList ++ [] = (twoDigits second').toList ++ [] := by
    rw [(List.cons.inj hchars).2]
  obtain ⟨hsecond, -⟩ := twoDigits_append_inj hend hend hlast
  exact ⟨Civil.ext hyear hmonth hday, hhour, hminute, hsecond⟩

theorem clockText_eq (seconds : Nat) : clockText seconds =
    stamp (Civil.ofDay (seconds / 86400)) (seconds % 86400 / 3600) (seconds % 86400 / 60 % 60)
      (seconds % 86400 % 60) := rfl

/-- No two seconds have the same text. -/
theorem clockText_injective {m n : Nat} (h : clockText m = clockText n) : m = n := by
  obtain ⟨hdate, hhour, hminute, hsecond⟩ := stamp_inj h
  have hday := Civil.ofDay_injective hdate
  omega

/-- A text shows a second of universal time: a date that exists and a time of the day, which lie as
many seconds after the start of year 1. -/
def Shows (text : String) (seconds : Int) : Prop :=
  ∃ (c : Civil) (hour minute second : Nat), c.isValid = true ∧
    hour < 24 ∧ minute < 60 ∧ second < 60 ∧
    seconds = ((c.number * 24 + hour) * 60 + minute) * 60 + second ∧
    text = stamp c hour minute second

theorem shows_clockText {n : Nat} (h : n < dayCount * 86400) : Shows (clockText n) n := by
  have hday : n / 86400 < dayCount := (Nat.div_lt_iff_lt_mul (by decide)).mpr h
  refine ⟨_, _, _, _, Civil.isValid_ofDay hday, by omega, by omega, by omega, ?_, clockText_eq n⟩
  rw [Civil.number_ofDay]
  omega

/-- The instant of a reading lies in the years 1 to 9999. -/
def InYears (t : DateTime) : Prop :=
  0 ≤ t.instant ∧ t.instant < dayCount * microsPerDay

/-- A reading has a text when its instant lies in the years 1 to 9999: that of its second. -/
theorem dateTimeText_eq_ok_iff {t : DateTime} {s : String} :
    Literal.dateTimeText t = .ok s ↔ t.InYears ∧ s = clockText t.seconds.toNat := by
  by_cases h : t.InYears
  · have hserial : t.serial? = some (clockText t.seconds.toNat) := if_pos h
    simp [Literal.dateTimeText, hserial, h, eq_comm]
  · have hserial : t.serial? = none := if_neg h
    simp [Literal.dateTimeText, hserial, h]

theorem dateTimeText_eq_error_iff {t : DateTime} {f : Failure} :
    Literal.dateTimeText t = .error f ↔ ¬ t.InYears ∧ f = .dateOutOfRange := by
  by_cases h : t.InYears
  · have hserial : t.serial? = some (clockText t.seconds.toNat) := if_pos h
    simp [Literal.dateTimeText, hserial, h]
  · have hserial : t.serial? = none := if_neg h
    simp [Literal.dateTimeText, hserial, h, eq_comm]

/-- A clock without an offset never shows an instant outside the years 1 to 9999. -/
theorem inYears_of_offset_none {t : DateTime} (h : t.offset = none) : t.InYears := by
  have hr := t.inRange
  have hi : t.instant = t.micros := by simp [instant, h]
  rw [InYears, hi]
  omega

/-- The second of an instant in the years 1 to 9999, counted from the start of year 1. -/
theorem InYears.seconds_bounds {t : DateTime} (h : t.InYears) :
    0 ≤ t.seconds ∧ t.seconds.toNat < dayCount * 86400 := by
  obtain ⟨hlow, hhigh⟩ := h
  have hmicros : (microsPerDay : Int) = 86400 * 1000000 := rfl
  rw [hmicros] at hhigh
  unfold seconds
  omega

end DateTime

/-! ### Dates and date-times -/

/-- A date or a date-time. -/
inductive Moment where
  | date (d : Date)
  | dateTime (t : DateTime)

namespace Moment

/-- A date or a date-time as a value. -/
def value : Moment → Value
  | date d => .date d
  | dateTime t => .dateTime t

/-- The reading of a clock that a date or a date-time stands for: a date is its midnight. -/
def reading : Moment → DateTime
  | date d => .ofDate d
  | dateTime t => t

/-- The instant in microseconds of universal time since the start of year 1. -/
def instant (m : Moment) : Int := m.reading.instant

/-- The offset from universal time is known. -/
def IsAware (m : Moment) : Prop := m.reading.offset.isSome = true

theorem dateTextOf_value (m : Moment) :
    Literal.dateTextOf m.value = Literal.dateTimeText m.reading := by
  cases m <;> rfl

/-- A date or a date-time is bound as its text. -/
theorem serialize_value (m : Moment) :
    Literal.serialize m.value = (Literal.dateTextOf m.value).map .text := by
  cases m with
  | date d =>
    rw [value, Literal.serialize, Literal.dateTextOf]
    cases Literal.dateText d <;> rfl
  | dateTime t =>
    rw [value, Literal.serialize, Literal.dateTextOf]
    cases Literal.dateTimeText t <;> rfl

/-- The instant lies outside the years 1 to 9999 only when an offset takes it there. -/
theorem not_inYears_iff (m : Moment) : ¬ m.reading.InYears ↔
    m.IsAware ∧ ¬ (0 ≤ m.instant ∧ m.instant < Civil.yearsLength 9999 * microsPerDay) := by
  rw [Civil.yearsLength_dayCount]
  change ¬ m.reading.InYears ↔ m.IsAware ∧ ¬ m.reading.InYears
  constructor
  · intro hout
    refine ⟨?_, hout⟩
    by_contra hnaive
    exact hout (DateTime.inYears_of_offset_none (Option.not_isSome_iff_eq_none.mp hnaive))
  · intro h
    exact h.2

/-- The text of a date or a date-time tells its second of universal time and nothing more: it shows
that second, and two of them have the same text when their instants are in the same second. There is
a text unless the offset takes the instant out of the years 1 to 9999, and then it is the range of
dates that is exceeded. -/
theorem dateTextOf_instant (a b : Moment) :
    (∀ s s', Literal.dateTextOf a.value = .ok s → Literal.dateTextOf b.value = .ok s' →
      (s = s' ↔ a.instant / 1000000 = b.instant / 1000000)) ∧
    (∀ s, Literal.dateTextOf a.value = .ok s → DateTime.Shows s (a.instant / 1000000)) ∧
    ((∃ f, Literal.dateTextOf a.value = .error f) ↔
      a.IsAware ∧ ¬ (0 ≤ a.instant ∧ a.instant < Civil.yearsLength 9999 * microsPerDay)) ∧
    ∀ f, Literal.dateTextOf a.value = .error f → f = .dateOutOfRange ∧ f.category = .overflow := by
  simp only [dateTextOf_value, DateTime.dateTimeText_eq_ok_iff, DateTime.dateTimeText_eq_error_iff]
  refine ⟨?_, ?_, ?_, ?_⟩
  · rintro s s' ⟨hin, rfl⟩ ⟨hin', rfl⟩
    have hbounds := hin.seconds_bounds
    have hbounds' := hin'.seconds_bounds
    change _ ↔ a.reading.seconds = b.reading.seconds
    constructor
    · intro h
      have hsame := DateTime.clockText_injective h
      omega
    · intro h
      rw [h]
  · rintro s ⟨hin, rfl⟩
    have hbounds := hin.seconds_bounds
    have hshows := DateTime.shows_clockText hbounds.2
    rwa [Int.toNat_of_nonneg hbounds.1] at hshows
  · rw [← not_inYears_iff]
    simp
  · rintro f ⟨-, rfl⟩
    exact ⟨rfl, rfl⟩

/-- The last hour of a leap day at one hour west of universal time. -/
example : Literal.dateTextOf (value (.dateTime
    ⟨(Civil.toDay ⟨2024, 2, 29⟩ * 86400 + 23 * 3600) * 1000000 + 7, by decide, some (-3600)⟩)) =
      .ok "2024-03-01 00:00:00" := by
  rfl

end Moment

end Columnar
