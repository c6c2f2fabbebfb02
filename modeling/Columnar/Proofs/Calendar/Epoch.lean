import Columnar.Calendar.DateTime
import Columnar.Proofs.Calendar.Civil
import Columnar.Proofs.Number.Rounding
import Mathlib.Data.Nat.Cast.Order.Field

/-!
# Milliseconds since 1970

Milliseconds are computed in floating point, with two roundings, and cut. The errors are so small
that instants with the same milliseconds are less than two milliseconds apart
(`DateTime.near_of_epochMillis`); that they can be more than one apart is due to the cut, which goes
towards 1970 from both sides.
-/

namespace Columnar

namespace Binary64

/-- A finite number is cut to the natural number below its magnitude. -/
theorem truncate?_finite (negative : Bool) (m : Nat) (e : Int) :
    ∃ n : Nat, (finite negative m e).truncate? = some (if negative then -(n : Int) else n) ∧
      (n : ℚ) ≤ m * 2 ^ e ∧ (m : ℚ) * 2 ^ e < n + 1 := by
  have hpos : (0 : ℚ) < (2 ^ (-e).toNat : Nat) := by positivity
  refine ⟨m * 2 ^ e.toNat / 2 ^ (-e).toNat, rfl, ?_, ?_⟩
  · rw [← scaled_eq]
    exact Nat.cast_div_le
  · rw [← scaled_eq, div_lt_iff₀ hpos]
    exact_mod_cast Nat.lt_mul_of_div_lt (Nat.lt_succ_self _) (by positivity)

/-- A product of moderate size is rounded once. -/
theorem exists_mul (s t : Bool) {m n : Nat} {e f : Int} (hm : 0 < m) (hn : 0 < n)
    (hlow : (2 : ℚ) ^ (-1022 : Int) ≤ m * 2 ^ e * (n * 2 ^ f))
    (hhigh : (m * 2 ^ e * (n * 2 ^ f) : ℚ) < 2 ^ (1000 : Int)) :
    ∃ k g, (finite s m e).mul (finite t n f) = finite (s != t) k g ∧
      |(k : ℚ) * 2 ^ g - m * 2 ^ e * (n * 2 ^ f)| ≤ m * 2 ^ e * (n * 2 ^ f) * 2 ^ (-53 : Int) := by
  have hvalue : ((m * n * 2 ^ (e + f).toNat : Nat) / (2 ^ (-(e + f)).toNat : Nat) : ℚ) =
      m * 2 ^ e * (n * 2 ^ f) := by
    rw [scaled_eq, zpow_add₀ two_ne_zero]
    push_cast
    ring
  have hmul : (finite s m e).mul (finite t n f) =
      ofRatio (s != t) (m * n * 2 ^ (e + f).toNat) (2 ^ (-(e + f)).toNat) := rfl
  rw [← hvalue] at hlow hhigh ⊢
  rw [hmul]
  exact exists_ofRatio (s != t) (by positivity) (by positivity) hlow hhigh

end Binary64

namespace DateTime

/-- Microseconds since 1970 in universal time. -/
def epochMicros (t : DateTime) : Int := t.instant - epochDay * microsPerDay

private theorem epochMillis_eq (t : DateTime) :
    t.epochMillis = (((Binary64.ofRatio (t.epochMicros < 0) t.epochMicros.natAbs 1000000).mul
      (.ofInt 1000)).truncate?).getD 0 := rfl

/-- Seconds are rounded once. -/
private theorem exists_seconds (negative : Bool) {a : Nat} (hpos : 0 < a) (ha : (a : ℚ) < 2 ^ 58) :
    ∃ m e, Binary64.ofRatio negative a 1000000 = .finite negative m e ∧
      |(m : ℚ) * 2 ^ e - a / 1000000| ≤ a / 1000000 * 2 ^ (-53 : Int) := by
  have hone : (1 : ℚ) ≤ a := by exact_mod_cast hpos
  have hcast : ((1000000 : Nat) : ℚ) = 1000000 := by norm_num
  have htiny : (2 : ℚ) ^ (-1022 : Int) ≤ 2 ^ (-30 : Int) :=
    zpow_le_zpow_right₀ one_le_two (by norm_num)
  have hhuge : (2 : ℚ) ^ (100 : Int) ≤ 2 ^ (1000 : Int) :=
    zpow_le_zpow_right₀ one_le_two (by norm_num)
  rw [← hcast]
  refine Binary64.exists_ofRatio negative hpos (by decide) ?_ ?_
  · refine htiny.trans ?_
    rw [hcast, le_div_iff₀ (by norm_num)]
    norm_num
    linarith
  · refine lt_of_lt_of_le ?_ hhuge
    have hbound : (2 : ℚ) ^ 58 ≤ 2 ^ (100 : Int) * 1000000 := by norm_num
    rw [hcast, div_lt_iff₀ (by norm_num)]
    exact ha.trans_le hbound

/-- A thousand times as much is rounded once more. -/
private theorem exists_thousandfold (negative : Bool) {m : Nat} {e : Int}
    (hlow : (2 : ℚ) ^ (-30 : Int) ≤ m * 2 ^ e) (hhigh : (m * 2 ^ e : ℚ) < 2 ^ (100 : Int)) :
    ∃ k g, (Binary64.finite negative m e).mul (.ofInt 1000) = .finite negative k g ∧
      |(k : ℚ) * 2 ^ g - m * 2 ^ e * 1000| ≤ m * 2 ^ e * 1000 * 2 ^ (-53 : Int) := by
  have hthousand : Binary64.ofInt 1000 = .finite false 8796093022208000 (-43) := by decide +kernel
  have hexact : ((8796093022208000 : Nat) : ℚ) * 2 ^ (-43 : Int) = 1000 := by norm_num
  have hpos : (0 : ℚ) < m * 2 ^ e := lt_of_lt_of_le (by positivity) hlow
  have hm : 0 < m := Nat.cast_pos.mp (pos_of_mul_pos_left hpos (by positivity))
  have htiny : (2 : ℚ) ^ (-1022 : Int) ≤ 2 ^ (-30 : Int) :=
    zpow_le_zpow_right₀ one_le_two (by norm_num)
  have hhuge : (2 : ℚ) ^ (100 : Int) * 1000 ≤ 2 ^ (1000 : Int) := by
    have hpower : (2 : ℚ) ^ (110 : Int) ≤ 2 ^ (1000 : Int) :=
      zpow_le_zpow_right₀ one_le_two (by norm_num)
    exact le_trans (by norm_num) hpower
  have hmin : (2 : ℚ) ^ (-1022 : Int) ≤
      m * 2 ^ e * ((8796093022208000 : Nat) * 2 ^ (-43 : Int)) := by
    rw [hexact]
    exact htiny.trans (hlow.trans (le_mul_of_one_le_right hpos.le (by norm_num)))
  have hmax : (m * 2 ^ e * ((8796093022208000 : Nat) * 2 ^ (-43 : Int)) : ℚ) <
      2 ^ (1000 : Int) := by
    rw [hexact]
    exact (mul_lt_mul_of_pos_right hhigh (by norm_num)).trans_le hhuge
  obtain ⟨k, g, hproduct, herror⟩ := Binary64.exists_mul negative false hm (by decide) hmin hmax
  rw [Bool.bne_false] at hproduct
  rw [hexact] at herror
  exact ⟨k, g, by rw [hthousand, hproduct], herror⟩

/-- The magnitude of the milliseconds of an instant is that of its microseconds but for the two
roundings, cut. -/
private theorem exists_epochMillis {t : DateTime} (h : t.epochMicros ≠ 0)
    (hrange : t.epochMicros.natAbs < 2 ^ 58) :
    ∃ (n : Nat) (y : ℚ), t.epochMillis = (if t.epochMicros < 0 then -(n : Int) else n) ∧
      (n : ℚ) ≤ y ∧ y < n + 1 ∧
      |y - t.epochMicros.natAbs / 1000| ≤ t.epochMicros.natAbs / 1000 * 2 ^ (-51 : Int) := by
  set a := t.epochMicros.natAbs with ha
  set s := decide (t.epochMicros < 0) with hs
  have hpos : 0 < a := Int.natAbs_pos.mpr h
  have hone : (1 : ℚ) ≤ a := by exact_mod_cast hpos
  have hmany : (a : ℚ) < 2 ^ 58 := by exact_mod_cast hrange
  have hδ : (2 : ℚ) ^ (-53 : Int) = 1 / 9007199254740992 := by norm_num
  have hδ' : (2 : ℚ) ^ (-51 : Int) = 4 / 9007199254740992 := by norm_num
  obtain ⟨m, e, hseconds, herror⟩ := exists_seconds s hpos hmany
  rw [hδ] at herror
  obtain ⟨hxlow, hxhigh⟩ := abs_le.mp herror
  obtain ⟨k, g, hproduct, herror'⟩ := exists_thousandfold s (m := m) (e := e)
    (by norm_num; linarith) (by norm_num; linarith)
  rw [hδ] at herror'
  obtain ⟨hylow, hyhigh⟩ := abs_le.mp herror'
  obtain ⟨n, hcut, hle, hlt⟩ := Binary64.truncate?_finite s k g
  refine ⟨n, k * 2 ^ g, ?_, hle, hlt, ?_⟩
  · rw [epochMillis_eq, ← ha, ← hs, hseconds, hproduct, hcut, Option.getD_some, hs]
    simp only [decide_eq_true_eq]
  · rw [hδ', abs_le]
    constructor <;> linarith

/-- A millisecond before or after 1970 is counted. -/
private theorem epochMillis_thousand {t : DateTime} (h : t.epochMicros.natAbs = 1000) :
    t.epochMillis ≠ 0 := by
  rw [epochMillis_eq, h]
  cases decide (t.epochMicros < 0) <;> decide +kernel

private theorem epochMillis_zero {t : DateTime} (h : t.epochMicros = 0) : t.epochMillis = 0 := by
  rw [epochMillis_eq, h]
  decide +kernel

/-- What milliseconds tell of an instant: before and after 1970 it is less than one of them further
away than they say, at zero it may be on either side. -/
private theorem epochMillis_spec {t : DateTime} (h : t.epochMicros.natAbs < 2 ^ 58) :
    t.epochMillis = 0 ∧ t.epochMicros.natAbs < 1000 ∨
      0 < t.epochMillis ∧ 1000 * t.epochMillis - 128 ≤ t.epochMicros ∧
        t.epochMicros ≤ 1000 * t.epochMillis + 1128 ∨
      t.epochMillis < 0 ∧ 1000 * t.epochMillis - 1128 ≤ t.epochMicros ∧
        t.epochMicros ≤ 1000 * t.epochMillis + 128 := by
  by_cases hzero : t.epochMicros = 0
  · exact .inl ⟨epochMillis_zero hzero, by rw [hzero]; decide⟩
  obtain ⟨n, y, hmillis, hle, hlt, herror⟩ := exists_epochMillis hzero h
  have hone : t.epochMicros.natAbs = 1000 → t.epochMillis ≠ 0 := epochMillis_thousand
  set a := t.epochMicros.natAbs with ha
  have hmany : (a : ℚ) < 2 ^ 58 := by exact_mod_cast h
  have hδ : (2 : ℚ) ^ (-51 : Int) = 1 / 2251799813685248 := by norm_num
  rw [hδ] at herror
  obtain ⟨hlow, hhigh⟩ := abs_le.mp herror
  have hupper : a < 1001 * (n + 1) := by
    have hreal : (a : ℚ) < 1001 * (n + 1) := by linarith
    exact_mod_cast hreal
  have hbelow : 1000 * n ≤ a + 128 := by
    have hreal : (1000 * n : ℚ) ≤ a + 128 := by linarith
    exact_mod_cast hreal
  have habove : a ≤ 1000 * n + 1128 := by
    have hreal : (a : ℚ) ≤ 1000 * n + 1128 := by linarith
    exact_mod_cast hreal
  by_cases hnegative : t.epochMicros < 0
  · rw [if_pos hnegative] at hmillis
    omega
  · rw [if_neg hnegative] at hmillis
    omega

/-- The offset of the clock is less than a day. -/
def OffsetInRange (t : DateTime) : Prop := ∀ seconds ∈ t.offset, seconds.natAbs < 86400

private theorem epochMicros_lt {t : DateTime} (h : t.OffsetInRange) :
    t.epochMicros.natAbs < 2 ^ 58 := by
  have hmicros : t.micros < 3652059 * 86400000000 := t.inRange
  have hoffset : (t.offset.getD 0).natAbs < 86400 := by
    rcases ho : t.offset with _ | seconds
    · decide
    · exact h seconds ho
  have hvalue : t.epochMicros =
      t.micros - t.offset.getD 0 * 1000000 - 719162 * 86400000000 := rfl
  omega

/-- Instants with the same milliseconds are less than two milliseconds apart. -/
theorem near_of_epochMillis {t t' : DateTime} (h : t.OffsetInRange) (h' : t'.OffsetInRange)
    (heq : t.epochMillis = t'.epochMillis) : (t.instant - t'.instant).natAbs < 2000 := by
  have hdiff : t.instant - t'.instant = t.epochMicros - t'.epochMicros := by
    simp only [epochMicros, sub_sub_sub_cancel_right]
  have hspec := epochMillis_spec (epochMicros_lt h)
  have hspec' := epochMillis_spec (epochMicros_lt h')
  omega

theorem offsetInRange_ofDate (d : Date) : (ofDate d).OffsetInRange := fun _ h ↦ by cases h

/-- Dates with the same milliseconds are the same. -/
theorem ofDate_epochMillis_inj {d d' : Date}
    (h : (ofDate d).epochMillis = (ofDate d').epochMillis) : d = d' := by
  have hnear := near_of_epochMillis (offsetInRange_ofDate d) (offsetInRange_ofDate d') h
  have hvalue (x : Date) : (ofDate x).instant = x.day * 86400000000 := by
    simp [instant, ofDate, microsPerDay]
  rw [hvalue, hvalue] at hnear
  exact Date.ext (by omega)

end DateTime

end Columnar
