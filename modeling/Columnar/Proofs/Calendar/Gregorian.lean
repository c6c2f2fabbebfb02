import Columnar.Proofs.Calendar.Civil
import Mathlib.Tactic.IntervalCases

/-!
# Days counted month by month

The number of a day is the length of the years before it, of the months before it in its year and
of the days before it in its month (`Civil.number_ofDay`). Counted in this way the years 1 to 9999
have `dayCount` days (`Civil.yearsLength_dayCount`), and their days are dates that exist
(`Civil.isValid_ofDay`).
-/

namespace Columnar.Civil

/-- The number of days in the first months of a year. -/
def monthsLength (year : Nat) : Nat → Nat
  | 0 => 0
  | month + 1 => monthsLength year month + monthLength year (month + 1)

/-- The number of days in the years from 1 on. -/
def yearsLength : Nat → Nat
  | 0 => 0
  | year + 1 => yearsLength year + monthsLength (year + 1) 12

/-- The number of days between 1 January of year 1 and a date, as the years, the months and the days
before the date add up. -/
def number (c : Civil) : Nat :=
  yearsLength (c.year - 1) + monthsLength c.year (c.month - 1) + (c.day - 1)

/-- A common year has 365 days and a leap year one more. -/
theorem monthsLength_twelve (year : Nat) :
    monthsLength year 12 = 365 + if isLeap year then 1 else 0 := by
  cases h : isLeap year <;> simp [monthsLength, monthLength, h]

theorem yearsLength_eq (year : Nat) :
    yearsLength year = 365 * year + year / 4 - year / 100 + year / 400 := by
  induction year with
  | zero => rfl
  | succ year ih =>
    rw [yearsLength, ih, monthsLength_twelve]
    have hleap := isLeap_iff (year + 1)
    by_cases h : isLeap (year + 1)
    · rw [if_pos h]
      have hfour := hleap.mp h
      omega
    · rw [if_neg h]
      have hfour := mt hleap.mpr h
      omega

theorem yearsLength_dayCount : yearsLength 9999 = dayCount := by
  rw [yearsLength_eq]
  rfl

/-! ### Years that begin in March -/

/-- The months from a month after February to the end of the year. -/
private theorem monthsLength_march (year : Nat) {month : Nat} (h : month < 10) :
    monthsLength year 12 + (153 * month + 2) / 5 = monthsLength year (month + 2) + 306 := by
  cases hleap : isLeap year <;> interval_cases month <;> simp [monthsLength, monthLength, hleap]

/-- The length of a month after February. -/
private theorem monthLength_march (year : Nat) {month : Nat} (h : month < 10) :
    (153 * (month + 1) + 2) / 5 = (153 * month + 2) / 5 + monthLength year (month + 3) := by
  interval_cases month <;> simp [monthLength]

/-- January and February, counted on from March. -/
private theorem monthsLength_january (year : Nat) {month : Nat} (h : 10 ≤ month) (h' : month < 12) :
    monthsLength year (month - 9 - 1) + 306 = (153 * month + 2) / 5 := by
  interval_cases month <;> simp [monthsLength, monthLength]

/-- The end of January and of February, counted on from March. -/
private theorem monthLength_january (year : Nat) {month : Nat} (h : 10 ≤ month) (h' : month < 12) :
    month = 10 ∧ (153 * month + 2) / 5 + monthLength year (month - 9) = 337 ∨
      (153 * month + 2) / 5 + monthLength year (month - 9) =
        365 + if isLeap year then 1 else 0 := by
  cases hleap : isLeap year <;> interval_cases month <;> simp [monthLength, hleap]

/-! ### Days and dates -/

/-- The number of a day is the length of the years, months and days before its date. -/
theorem number_ofDay (n : Nat) : (ofDay n).number = n := by
  obtain ⟨y, d, ⟨hd, -⟩, hn, hdate⟩ := exists_marchYear n
  have hoffset : marchOffset = 306 := rfl
  have hyears := yearsLength_eq y
  rw [hdate, ofMarch]
  by_cases hmonth : (5 * d + 2) / 153 < 10
  · -- what is left of a year after its February does not depend on the year
    have hrest := monthsLength_march y hmonth
    have hyear : yearsLength y = yearsLength (y - 1) + monthsLength y 12 := by
      cases y with
      | zero => omega
      | succ y => rfl
    simp only [if_pos hmonth, number]
    rw [show (5 * d + 2) / 153 + 3 - 1 = (5 * d + 2) / 153 + 2 from rfl]
    omega
  · have hbefore := monthsLength_january (y + 1) (Nat.le_of_not_lt hmonth) (by omega)
    simp only [if_neg hmonth, number, Nat.add_sub_cancel]
    omega

/-- The month of a day has the day. -/
private theorem day_ofDay (n : Nat) : 1 ≤ (ofDay n).month ∧ (ofDay n).month ≤ 12 ∧
    1 ≤ (ofDay n).day ∧ (ofDay n).day ≤ monthLength (ofDay n).year (ofDay n).month := by
  obtain ⟨y, d, ⟨hd, hlong⟩, -, hdate⟩ := exists_marchYear n
  rw [hdate, ofMarch]
  by_cases hmonth : (5 * d + 2) / 153 < 10
  · have hlength := monthLength_march y hmonth
    simp only [if_pos hmonth]
    omega
  · have hlength := monthLength_january (y + 1) (Nat.le_of_not_lt hmonth) (by omega)
    simp only [if_neg hmonth]
    by_cases hleap : isLeap (y + 1)
    · rw [if_pos hleap] at hlength
      omega
    · have hshort : d ≠ 365 := mt hlong hleap
      rw [if_neg hleap] at hlength
      omega

/-- The year of a day of the years 1 to 9999. -/
private theorem year_ofDay {n : Nat} (h : n < dayCount) :
    1 ≤ (ofDay n).year ∧ (ofDay n).year ≤ 9999 := by
  obtain ⟨y, d, -, hn, hdate⟩ := exists_marchYear n
  have hoffset : marchOffset = 306 := rfl
  have hcount : dayCount = 3652059 := rfl
  rw [hdate, ofMarch]
  by_cases hmonth : (5 * d + 2) / 153 < 10
  · simp only [if_pos hmonth]
    omega
  · simp only [if_neg hmonth]
    omega

/-- A day lies before the end of its year. -/
private theorem lt_yearsLength (n : Nat) : n < yearsLength (ofDay n).year := by
  obtain ⟨y, d, ⟨hd, -⟩, hn, hdate⟩ := exists_marchYear n
  have hoffset : marchOffset = 306 := rfl
  have hyears := yearsLength_eq y
  rw [hdate, ofMarch]
  by_cases hmonth : (5 * d + 2) / 153 < 10
  · simp only [if_pos hmonth]
    omega
  · have hyear := monthsLength_twelve (y + 1)
    simp only [if_neg hmonth, yearsLength]
    omega

/-- A day that comes after some years is in a later one. -/
theorem lt_year_ofDay {n year : Nat} (h : yearsLength year ≤ n) : year < (ofDay n).year := by
  have hmono : Monotone yearsLength := monotone_nat_of_le_succ fun _ ↦ Nat.le_add_right _ _
  have hend := lt_yearsLength n
  by_contra hlate
  have hle := hmono (Nat.le_of_not_lt hlate)
  omega

/-- The date of a day exists. -/
theorem isValid_ofDay {n : Nat} (h : n < dayCount) : (ofDay n).isValid = true := by
  obtain ⟨hyear, hyear'⟩ := year_ofDay h
  obtain ⟨hmonth, hmonth', hday, hday'⟩ := day_ofDay n
  simp [isValid, *]

end Columnar.Civil
