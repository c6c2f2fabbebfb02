import Columnar.Calendar.Date

/-!
# Days and dates

A day is found again from its year, month and day of the month (`Civil.toDay_ofDay`).
-/

namespace Columnar

attribute [ext] Civil Date

namespace Civil

/-- A day before the last one of an era, by century, four years, year and day of that year; the last
of four years has one day more than the others. -/
private theorem exists_parts {n : Nat} (h : n < 146096) : ∃ c q y d, n / 36524 = c ∧ c < 4 ∧
    q < 25 ∧ y < 4 ∧ d ≤ 365 ∧ (d = 365 → y = 3) ∧ n = 36524 * c + 1461 * q + 365 * y + d := by
  obtain ⟨q, s, hq, hs, hr⟩ : ∃ q s, q < 25 ∧ s < 1461 ∧ n % 36524 = 1461 * q + s :=
    ⟨n % 36524 / 1461, n % 36524 % 1461, by omega, by omega, by omega⟩
  obtain ⟨y, d, hy, hd, hlast, hs⟩ :
      ∃ y d, y < 4 ∧ d ≤ 365 ∧ (d = 365 → y = 3) ∧ s = 365 * y + d := by
    rcases Nat.lt_or_ge (s / 365) 4 with hlt | hge
    · exact ⟨s / 365, s % 365, hlt, by omega, by omega, by omega⟩
    · exact ⟨3, 365, by decide, by decide, fun _ ↦ rfl, by omega⟩
  exact ⟨n / 36524, q, y, d, rfl, by omega, hq, hy, hd, hlast, by omega⟩

theorem isLeap_iff (year : Nat) :
    isLeap year = true ↔ year % 4 = 0 ∧ (year % 100 ≠ 0 ∨ year % 400 = 0) := by
  simp [isLeap]

/-- The year of an era that a day is in, and the day of that year; only years that end in the
February of a leap year have a day more. -/
private theorem exists_year {n : Nat} (h : n < 146097) : ∃ y d, y < 400 ∧
    (d ≤ 365 ∧ (d = 365 → isLeap (y + 1) = true)) ∧
    (n - n / 1460 + n / 36524 - n / 146096) / 365 = y ∧ n = 365 * y + y / 4 - y / 100 + d := by
  rcases Nat.lt_or_eq_of_le (Nat.le_of_lt_succ h) with hlt | rfl
  · obtain ⟨c, q, y, d, hcentury, hc, hq, hy, hd, hlast, hn⟩ := exists_parts hlt
    have hera : n / 146096 = 0 := Nat.div_eq_of_lt hlt
    have hfour : (100 * c + 4 * q + y) / 4 = 25 * c + q := by omega
    have hhundred : (100 * c + 4 * q + y) / 100 = c := by omega
    have hlong : d = 365 → isLeap (100 * c + 4 * q + y + 1) = true := by
      rw [isLeap_iff]
      omega
    refine ⟨100 * c + 4 * q + y, d, by omega, ⟨hd, hlong⟩, ?_, by omega⟩
    -- the leap days that are taken off are one too many late in the last of four years
    obtain ⟨t, ht⟩ : ∃ t, t = 24 * c + q + 365 * y + d := ⟨_, rfl⟩
    have hleap : n / 1460 = 25 * c + q + t / 1460 := by
      have hn' : n = 1460 * (25 * c + q) + t := by omega
      rw [hn', Nat.mul_add_div (by decide)]
    rw [hleap, hcentury, hera]
    rcases Nat.lt_or_ge t 1460 with hearly | hlate
    · rw [Nat.div_eq_of_lt hearly]
      omega
    · have hone : t / 1460 = 1 := by omega
      rw [hone]
      omega
  · exact ⟨399, 365, by decide⟩

/-- The date of a day of a year that begins in March, its months counted from March too. -/
def ofMarch (year dayOfYear : Nat) : Civil :=
  let month := (5 * dayOfYear + 2) / 153
  let day := dayOfYear - (153 * month + 2) / 5 + 1
  if month < 10 then ⟨year, month + 3, day⟩ else ⟨year + 1, month - 9, day⟩

/-- A day has a year that begins in March and a place in it. -/
theorem exists_marchYear (n : Nat) : ∃ y d, (d ≤ 365 ∧ (d = 365 → isLeap (y + 1) = true)) ∧
    n + marchOffset = 365 * y + y / 4 - y / 100 + y / 400 + d ∧ ofDay n = ofMarch y d := by
  obtain ⟨y, d, hy, ⟨hd, hlong⟩, hyear, hday⟩ :=
    exists_year (Nat.mod_lt (n + marchOffset) (by decide : 0 < 146097))
  have hdoy : (n + marchOffset) % 146097 - (365 * y + y / 4 - y / 100) = d := by omega
  have hsum := Nat.div_add_mod (n + marchOffset) 146097
  have hdate : ofDay n = ofMarch (y + (n + marchOffset) / 146097 * 400) d := by
    unfold ofDay ofMarch
    dsimp only
    rw [hyear, hdoy]
    -- only the months from January on are in the next year
    by_cases hmonth : (5 * d + 2) / 153 < 10
    · have hlate : ¬ (5 * d + 2) / 153 + 3 ≤ 2 := by omega
      simp only [if_pos hmonth, if_neg hlate, Nat.add_zero]
    · have hearly : (5 * d + 2) / 153 - 9 ≤ 2 := by omega
      simp only [if_neg hmonth, if_pos hearly]
  clear hyear hdoy
  generalize (n + marchOffset) / 146097 = era at *
  have hfour : (y + era * 400) / 4 = y / 4 + era * 100 := by omega
  have hhundred : (y + era * 400) / 100 = y / 100 + era * 4 := by omega
  have hera : (y + era * 400) / 400 = era := by omega
  have hsame : d = 365 → isLeap (y + era * 400 + 1) = true := by
    rw [isLeap_iff] at hlong ⊢
    omega
  exact ⟨y + era * 400, d, ⟨hd, hsame⟩, by omega, hdate⟩

/-- A day is found again from its date. -/
theorem toDay_ofDay (n : Nat) : (ofDay n).toDay = n := by
  obtain ⟨y, d, ⟨hd, -⟩, hn, hdate⟩ := exists_marchYear n
  have hoffset : marchOffset = 306 := rfl
  have hfirst : (153 * ((5 * d + 2) / 153) + 2) / 5 ≤ d := by omega
  rw [hdate, ofMarch]
  -- January and February belong to the year before
  by_cases hmonth : (5 * d + 2) / 153 < 10
  · have hlate : ¬ (5 * d + 2) / 153 + 3 ≤ 2 := by omega
    have hlate' : 2 < (5 * d + 2) / 153 + 3 := by omega
    simp only [if_pos hmonth, toDay, if_neg hlate, if_pos hlate', Nat.add_sub_cancel]
    omega
  · have hearly : (5 * d + 2) / 153 - 9 ≤ 2 := by omega
    have hearly' : ¬ 2 < (5 * d + 2) / 153 - 9 := by omega
    have hback : (5 * d + 2) / 153 - 9 + 9 = (5 * d + 2) / 153 := by omega
    simp only [if_neg hmonth, toDay, if_pos hearly, if_neg hearly', hback, Nat.add_sub_cancel]
    omega

theorem ofDay_injective {m n : Nat} (h : ofDay m = ofDay n) : m = n := by
  rw [← toDay_ofDay m, h, toDay_ofDay]

end Civil

end Columnar
