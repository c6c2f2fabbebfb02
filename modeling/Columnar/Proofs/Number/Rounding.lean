import Columnar.Number.Binary64
import Mathlib.Algebra.Order.Field.Power
import Mathlib.Algebra.Order.Field.Rat
import Mathlib.Tactic.FieldSimp
import Mathlib.Tactic.Linarith
import Mathlib.Tactic.Positivity
import Mathlib.Tactic.Ring

/-!
# Rounding

What a ratio rounds to is in its own form (`Binary64.canonical_ofRatio`) and depends on nothing but
the ratio's value (`Binary64.ofRatio_congr`). A number in its own form rounds to itself
(`Binary64.ofRatio_exact`), and otherwise the error is at most half a unit in the last place of the
significand (`Binary64.exists_ofRatio`).
-/

namespace Columnar.Binary64

/-- A number in its own form: the significand has 53 digits, or fewer at the least exponent. -/
def Canonical : Binary64 → Prop
  | finite _ m e => m < 2 ^ 53 ∧ -1074 ≤ e ∧ e ≤ 971 ∧ (2 ^ 52 ≤ m ∨ e = -1074)
  | _ => True

/-! ### The nearest natural number -/

theorem nearest_mul {k : Nat} (hk : 0 < k) (a b : Nat) : nearest (k * a) (k * b) = nearest a b := by
  have hlt (x y : Nat) : k * x < k * y ↔ x < y := Nat.mul_lt_mul_left hk
  have hcomm (x : Nat) : 2 * (k * x) = k * (2 * x) := Nat.mul_left_comm 2 k x
  simp only [nearest, Nat.mul_div_mul_left _ _ hk, Nat.mul_mod_mul_left, hcomm, hlt]

theorem nearest_congr {a b a' b' : Nat} (hb : 0 < b) (hb' : 0 < b') (h : a * b' = a' * b) :
    nearest a b = nearest a' b' := by
  rw [← nearest_mul hb' a b, ← nearest_mul hb a' b', Nat.mul_comm b' a, h, Nat.mul_comm a' b,
    Nat.mul_comm b' b]

theorem nearest_exact {b : Nat} (hb : 0 < b) (n : Nat) : nearest (n * b) b = n := by
  simp [nearest, Nat.mul_div_cancel _ hb, hb]

/-- The nearest natural number is at most one half away. -/
theorem nearest_error {a b : Nat} (hb : 0 < b) :
    2 * a ≤ 2 * (nearest a b * b) + b ∧ 2 * (nearest a b * b) ≤ 2 * a + b := by
  have hdiv := Nat.div_add_mod a b
  have hmod := Nat.mod_lt a hb
  have hup : (a / b + 1) * b = b * (a / b) + b := by ring
  have hdown : a / b * b = b * (a / b) := Nat.mul_comm _ _
  unfold nearest
  dsimp only
  split
  · omega
  · split
    · omega
    · split <;> omega

theorem nearest_le {a b n : Nat} (hb : 0 < b) (h : a ≤ n * b) : nearest a b ≤ n := by
  have hdown := (nearest_error (a := a) hb).2
  by_contra hlt
  have hmul := Nat.mul_le_mul_right b (not_le.mp hlt)
  rw [Nat.succ_mul] at hmul
  omega

theorem le_nearest {a b n : Nat} (hb : 0 < b) (h : n * b ≤ a) : n ≤ nearest a b := by
  have hup := (nearest_error (a := a) hb).1
  by_contra hlt
  have hmul := Nat.mul_le_mul_right b (not_le.mp hlt)
  rw [Nat.succ_mul] at hmul
  omega

/-! ### Powers of two -/

/-- A power of two as a ratio of naturals. -/
theorem zpow_eq (g : Int) : (2 : ℚ) ^ g = 2 ^ g.toNat / 2 ^ (-g).toNat := by
  rcases le_total 0 g with hg | hg
  · obtain ⟨n, rfl⟩ := Int.eq_ofNat_of_zero_le hg
    simp
  · obtain ⟨n, hn⟩ := Int.eq_ofNat_of_zero_le (Int.neg_nonneg_of_nonpos hg)
    obtain rfl : g = -(n : Int) := by omega
    simp

/-- The value of a finite number as a ratio of naturals. -/
theorem scaled_eq (m : Nat) (e : Int) :
    ((m * 2 ^ e.toNat : Nat) / (2 ^ (-e).toNat : Nat) : ℚ) = m * 2 ^ e := by
  rw [zpow_eq]
  push_cast
  ring

private theorem two_zpow_pos (g : Int) : (0 : ℚ) < 2 ^ g := zpow_pos two_pos g

/-- The exponent of the largest power of two that is at most a ratio. -/
theorem floorLog2_spec {num den : Nat} (hnum : 0 < num) (hden : 0 < den) :
    (2 : ℚ) ^ floorLog2 num den ≤ num / den ∧ (num / den : ℚ) < 2 ^ (floorLog2 num den + 1) := by
  have hd : (0 : ℚ) < den := by exact_mod_cast hden
  have hlow : (2 : ℚ) ^ ((num.log2 : Int) - den.log2 - 1) < num / den := by
    have hn : (2 : ℚ) ^ num.log2 ≤ num := by exact_mod_cast Nat.log2_self_le hnum.ne'
    have hd' : (den : ℚ) < 2 ^ (den.log2 + 1) := by exact_mod_cast Nat.lt_log2_self
    have hexponent : ((num.log2 : Int) - den.log2 - 1) =
        num.log2 - ((den.log2 + 1 : Nat) : Int) := by
      push_cast
      ring
    rw [hexponent, zpow_sub₀ two_ne_zero, zpow_natCast, zpow_natCast]
    exact div_lt_div₀' hn hd' (by positivity) hd
  have hhigh : (num / den : ℚ) < 2 ^ ((num.log2 : Int) - den.log2 + 1) := by
    have hn : (num : ℚ) < 2 ^ (num.log2 + 1) := by exact_mod_cast Nat.lt_log2_self
    have hd' : (2 : ℚ) ^ den.log2 ≤ den := by exact_mod_cast Nat.log2_self_le hden.ne'
    have hexponent : ((num.log2 : Int) - den.log2 + 1) =
        ((num.log2 + 1 : Nat) : Int) - den.log2 := by
      push_cast
      ring
    rw [hexponent, zpow_sub₀ two_ne_zero, zpow_natCast, zpow_natCast]
    exact div_lt_div₀ hn hd' (by positivity) (by positivity)
  set g : Int := (num.log2 : Int) - den.log2 with hg
  have htest : den * Nat.pow 2 g.toNat ≤ num * Nat.pow 2 (-g).toNat ↔ (2 : ℚ) ^ g ≤ num / den := by
    rw [zpow_eq, div_le_div_iff₀ (by positivity) hd, Nat.pow_eq, Nat.pow_eq, mul_comm den]
    norm_cast
  unfold floorLog2
  dsimp only
  rw [← hg]
  split
  · next h => exact ⟨htest.mp h, hhigh⟩
  · next h =>
    rw [sub_add_cancel]
    exact ⟨hlow.le, lt_of_not_ge fun hle ↦ h (htest.mpr hle)⟩

/-- A ratio between a power of two and the next one tells the exponent. -/
theorem floorLog2_eq {num den : Nat} {f : Int} (hnum : 0 < num) (hden : 0 < den)
    (hlow : (2 : ℚ) ^ f ≤ num / den) (hhigh : (num / den : ℚ) < 2 ^ (f + 1)) :
    floorLog2 num den = f := by
  obtain ⟨hlow', hhigh'⟩ := floorLog2_spec hnum hden
  have h₁ := (zpow_lt_zpow_iff_right₀ one_lt_two).mp (hlow.trans_lt hhigh')
  have h₂ := (zpow_lt_zpow_iff_right₀ one_lt_two).mp (hlow'.trans_lt hhigh)
  omega

theorem floorLog2_congr {num den num' den' : Nat} (hnum : 0 < num) (hden : 0 < den)
    (hden' : 0 < den') (h : num * den' = num' * den) :
    floorLog2 num den = floorLog2 num' den' := by
  have hnum' : 0 < num' := Nat.pos_of_mul_pos_right (h ▸ Nat.mul_pos hnum hden')
  have hratio : (num / den : ℚ) = num' / den' := by
    rw [div_eq_div_iff (by positivity) (by positivity)]
    exact_mod_cast h
  obtain ⟨hlow, hhigh⟩ := floorLog2_spec hnum' hden'
  exact floorLog2_eq hnum hden (hratio ▸ hlow) (hratio ▸ hhigh)

/-! ### Rounded ratios -/

/-- The exponent of what a ratio rounds to, unless the significand gets a digit too many. -/
private def exponentOf (num den : Nat) : Int := max (floorLog2 num den - 52) (-1074)

/-- The number with a rounded significand, which may have got a digit too many. -/
private def settle (negative : Bool) (significand : Nat) (exponent : Int) : Binary64 :=
  let (significand, exponent) :=
    if significand = 2 ^ 53 then (2 ^ 52, exponent + 1) else (significand, exponent)
  if 971 < exponent then infinite negative else finite negative significand exponent

private theorem ofRatio_eq (negative : Bool) {num : Nat} (den : Nat) (hnum : num ≠ 0) :
    ofRatio negative num den =
      settle negative (nearest (num * 2 ^ (-exponentOf num den).toNat)
        (den * 2 ^ (exponentOf num den).toNat)) (exponentOf num den) := by
  rw [ofRatio, if_neg hnum]
  rfl

/-- The ratio that is rounded to the significand. -/
private theorem ratio_eq (num den : Nat) (exponent : Int) :
    ((num * 2 ^ (-exponent).toNat : Nat) / (den * 2 ^ exponent.toNat : Nat) : ℚ) * 2 ^ exponent =
      num / den := by
  rw [zpow_eq]
  push_cast
  field_simp

private theorem canonical_bounded (negative : Bool) {significand : Nat} {exponent : Int}
    (hlt : significand < 2 ^ 53) (hleast : -1074 ≤ exponent)
    (hform : 2 ^ 52 ≤ significand ∨ exponent = -1074) :
    (if 971 < exponent then infinite negative
      else finite negative significand exponent).Canonical := by
  split
  · trivial
  · next hbound => exact ⟨hlt, hleast, not_lt.mp hbound, hform⟩

private theorem canonical_settle (negative : Bool) {significand : Nat} {exponent : Int}
    (hle : significand ≤ 2 ^ 53) (hleast : -1074 ≤ exponent)
    (hform : 2 ^ 52 ≤ significand ∨ exponent = -1074) :
    (settle negative significand exponent).Canonical := by
  unfold settle
  by_cases hcarry : significand = 2 ^ 53
  · rw [if_pos hcarry]
    exact canonical_bounded negative (by decide) (by omega) (.inl le_rfl)
  · rw [if_neg hcarry]
    exact canonical_bounded negative (lt_of_le_of_ne hle hcarry) hleast hform

/-- What a ratio rounds to is in its own form. -/
theorem canonical_ofRatio (negative : Bool) (num : Nat) {den : Nat} (hden : 0 < den) :
    (ofRatio negative num den).Canonical := by
  by_cases hnum : num = 0
  · rw [ofRatio, if_pos hnum]
    exact ⟨by decide, le_rfl, by decide, .inr rfl⟩
  · obtain ⟨hlow, hhigh⟩ := floorLog2_spec (Nat.pos_of_ne_zero hnum) hden
    rw [ofRatio_eq negative den hnum]
    set E : Int := exponentOf num den with hE
    set a := num * 2 ^ (-E).toNat
    set b := den * 2 ^ E.toNat
    have hb : 0 < b := by positivity
    have hb' : (0 : ℚ) < b := by exact_mod_cast hb
    have hratio : (a / b : ℚ) * 2 ^ E = num / den := ratio_eq num den E
    have hmax : E = floorLog2 num den - 52 ∨ E = -1074 ∧ floorLog2 num den - 52 ≤ -1074 := by
      rw [hE, exponentOf]
      omega
    have hupper : a ≤ 2 ^ 53 * b := by
      have hpower : (2 : ℚ) ^ (floorLog2 num den + 1) ≤ 2 ^ (53 : Int) * 2 ^ E := by
        rw [← zpow_add₀ two_ne_zero]
        exact zpow_le_zpow_right₀ one_le_two (by omega)
      have hle : (a / b : ℚ) ≤ 2 ^ (53 : Int) :=
        le_of_mul_le_mul_right (hratio ▸ hhigh.le.trans hpower) (two_zpow_pos E)
      rw [div_le_iff₀ hb'] at hle
      exact_mod_cast hle
    refine canonical_settle negative (nearest_le hb hupper) (le_max_right ..) ?_
    rcases hmax with hnormal | ⟨hleast, -⟩
    · have hpower : (2 : ℚ) ^ (52 : Int) * 2 ^ E = 2 ^ floorLog2 num den := by
        rw [← zpow_add₀ two_ne_zero, hnormal]
        congr 1
        omega
      have hle : (2 : ℚ) ^ (52 : Int) ≤ a / b :=
        le_of_mul_le_mul_right (hratio ▸ hpower ▸ hlow) (two_zpow_pos E)
      rw [le_div_iff₀ hb'] at hle
      exact .inl (le_nearest hb (by exact_mod_cast hle))
    · exact .inr hleast

/-- What a ratio rounds to depends on its value only. -/
theorem ofRatio_congr (negative : Bool) {num den num' den' : Nat} (hden : 0 < den)
    (hden' : 0 < den') (h : num * den' = num' * den) :
    ofRatio negative num den = ofRatio negative num' den' := by
  by_cases hnum : num = 0
  · subst hnum
    have hnum' : num' = 0 := by
      rw [Nat.zero_mul] at h
      exact (Nat.mul_eq_zero.mp h.symm).resolve_right hden.ne'
    rw [hnum', ofRatio, ofRatio, if_pos rfl, if_pos rfl]
  · have hpos : 0 < num := Nat.pos_of_ne_zero hnum
    have hnum' : num' ≠ 0 := by
      rintro rfl
      rw [Nat.zero_mul] at h
      exact hnum ((Nat.mul_eq_zero.mp h).resolve_right hden'.ne')
    have hnearest (x y : Nat) (hy : 0 < y) :
        nearest (num * x) (den * y) = nearest (num' * x) (den' * y) := by
      refine nearest_congr (Nat.mul_pos hden hy) (Nat.mul_pos hden' hy) ?_
      calc num * x * (den' * y) = num * den' * (x * y) := by ring
        _ = num' * x * (den * y) := by rw [h]; ring
    have hexponent : exponentOf num den = exponentOf num' den' := by
      rw [exponentOf, exponentOf, floorLog2_congr hpos hden hden' h]
    rw [ofRatio_eq negative den hnum, ofRatio_eq negative den' hnum', hexponent,
      hnearest _ _ (by positivity)]

/-- The sign does not matter to the rounding. -/
theorem ofRatio_sign {negative : Bool} {num den m : Nat} {e : Int}
    (h : ofRatio false num den = finite false m e) :
    ofRatio negative num den = finite negative m e := by
  by_cases hnum : num = 0
  · rw [ofRatio, if_pos hnum, zero] at h
    obtain ⟨-, rfl, rfl⟩ := finite.inj h
    rw [ofRatio, if_pos hnum, zero]
  · rw [ofRatio_eq _ _ hnum, settle] at h ⊢
    generalize (if _ = 2 ^ 53 then _ else _ : Nat × Int) = settled at h ⊢
    dsimp only at h ⊢
    split at h
    · cases h
    · next hfinite =>
      obtain ⟨-, rfl, rfl⟩ := finite.inj h
      rw [if_neg hfinite]

/-- A number in its own form rounds to itself. -/
theorem ofRatio_exact {negative : Bool} {m : Nat} {e : Int}
    (h : (finite negative m e).Canonical) :
    ofRatio negative (m * 2 ^ e.toNat) (2 ^ (-e).toNat) = finite negative m e := by
  obtain ⟨hm, hlow, hhigh, hform⟩ := h
  by_cases hzero : m = 0
  · subst hzero
    have hleast : e = -1074 := hform.resolve_left (by decide)
    rw [Nat.zero_mul, ofRatio, if_pos rfl, zero, hleast]
  · have hpos : 0 < m := Nat.pos_of_ne_zero hzero
    have hden : 0 < 2 ^ (-e).toNat := by positivity
    have hnum : 0 < m * 2 ^ e.toNat := by positivity
    obtain ⟨hle, hlt⟩ := floorLog2_spec hnum hden
    rw [scaled_eq] at hle hlt
    -- the exponent that rounding takes is the number's own
    have hexponent : exponentOf (m * 2 ^ e.toNat) (2 ^ (-e).toNat) = e := by
      unfold exponentOf
      set f := floorLog2 (m * 2 ^ e.toNat) (2 ^ (-e).toNat)
      have hupper : f < 53 + e := by
        have hm' : (m : ℚ) < 2 ^ (53 : Int) := by exact_mod_cast hm
        have hmul : (2 : ℚ) ^ f < 2 ^ (53 + e) := by
          rw [zpow_add₀ two_ne_zero]
          exact hle.trans_lt (mul_lt_mul_of_pos_right hm' (two_zpow_pos e))
        exact (zpow_lt_zpow_iff_right₀ one_lt_two).mp hmul
      rcases hform with hnormal | rfl
      · have hlower : 52 + e < f + 1 := by
          have hm' : (2 : ℚ) ^ (52 : Int) ≤ m := by exact_mod_cast hnormal
          have hmul : (2 : ℚ) ^ (52 + e) < 2 ^ (f + 1) := by
            rw [zpow_add₀ two_ne_zero]
            exact (mul_le_mul_of_nonneg_right hm' (two_zpow_pos e).le).trans_lt hlt
          exact (zpow_lt_zpow_iff_right₀ one_lt_two).mp hmul
        omega
      · omega
    have hsignificand : nearest (m * 2 ^ e.toNat * 2 ^ (-e).toNat)
        (2 ^ (-e).toNat * 2 ^ e.toNat) = m := by
      rw [Nat.mul_assoc, Nat.mul_comm (2 ^ e.toNat)]
      exact nearest_exact (by positivity) m
    rw [ofRatio_eq negative _ hnum.ne', hexponent, hsignificand, settle, if_neg hm.ne]
    exact if_neg (not_lt.mpr hhigh)

private theorem exists_settle (negative : Bool) (significand : Nat) {exponent : Int}
    (h : exponent ≤ 970) : ∃ m e, settle negative significand exponent = finite negative m e ∧
      (m : ℚ) * 2 ^ e = significand * 2 ^ exponent := by
  unfold settle
  split
  · next s e hsettled =>
    split at hsettled
    · next hcarry =>
      obtain ⟨rfl, rfl⟩ := Prod.mk.inj hsettled
      refine ⟨2 ^ 52, exponent + 1, if_neg (by omega), ?_⟩
      rw [hcarry, zpow_add_one₀ two_ne_zero]
      push_cast
      ring
    · obtain ⟨rfl, rfl⟩ := Prod.mk.inj hsettled
      exact ⟨significand, exponent, if_neg (by omega), rfl⟩

/-- A ratio of moderate size rounds to a finite number that differs by at most its 2^53rd part. -/
theorem exists_ofRatio (negative : Bool) {num den : Nat} (hnum : 0 < num) (hden : 0 < den)
    (hlow : (2 : ℚ) ^ (-1022 : Int) ≤ num / den) (hhigh : (num / den : ℚ) < 2 ^ (1000 : Int)) :
    ∃ m e, ofRatio negative num den = finite negative m e ∧
      |(m : ℚ) * 2 ^ e - num / den| ≤ num / den * 2 ^ (-53 : Int) := by
  obtain ⟨hle, hlt⟩ := floorLog2_spec hnum hden
  have hmin := (zpow_lt_zpow_iff_right₀ one_lt_two).mp (hlow.trans_lt hlt)
  have hmax := (zpow_lt_zpow_iff_right₀ one_lt_two).mp (hle.trans_lt hhigh)
  have hexponent : exponentOf num den = floorLog2 num den - 52 := by
    unfold exponentOf
    omega
  rw [ofRatio_eq negative den hnum.ne', hexponent]
  set E : Int := floorLog2 num den - 52 with hE
  set a := num * 2 ^ (-E).toNat with ha
  set b := den * 2 ^ E.toNat with hb
  have hbpos : 0 < b := by positivity
  obtain ⟨m, e, hsettle, hvalue⟩ := exists_settle negative (nearest a b) (show E ≤ 970 by omega)
  refine ⟨m, e, hsettle, ?_⟩
  have hratio : (a / b : ℚ) * 2 ^ E = num / den := ratio_eq num den E
  -- half a unit of the significand
  have hhalf : |(nearest a b : ℚ) - a / b| ≤ 1 / 2 := by
    obtain ⟨hup, hdown⟩ := nearest_error (a := a) hbpos
    have hb' : (0 : ℚ) < b := by exact_mod_cast hbpos
    have hup' : (2 * a : ℚ) ≤ 2 * (nearest a b * b) + b := by exact_mod_cast hup
    have hdown' : (2 * (nearest a b * b) : ℚ) ≤ 2 * a + b := by exact_mod_cast hdown
    rw [abs_le, neg_le_sub_iff_le_add, div_le_iff₀ hb', sub_le_iff_le_add, ← sub_le_iff_le_add',
      le_div_iff₀ hb']
    constructor <;> linarith
  have hunit : (2 : ℚ) ^ E / 2 ≤ num / den * 2 ^ (-53 : Int) := by
    have hsplit : (2 : ℚ) ^ E / 2 = 2 ^ floorLog2 num den * 2 ^ (-53 : Int) := by
      have hsum : floorLog2 num den + -53 = E - 1 := by omega
      rw [← zpow_add₀ two_ne_zero, hsum, zpow_sub_one₀ two_ne_zero, div_eq_mul_inv]
    rw [hsplit]
    exact mul_le_mul_of_nonneg_right hle (two_zpow_pos _).le
  calc |(m : ℚ) * 2 ^ e - num / den| = |(nearest a b : ℚ) - a / b| * 2 ^ E := by
        rw [hvalue, ← hratio, ← sub_mul, abs_mul, abs_of_pos (two_zpow_pos E)]
    _ ≤ 1 / 2 * 2 ^ E := mul_le_mul_of_nonneg_right hhalf (two_zpow_pos E).le
    _ = 2 ^ E / 2 := by ring
    _ ≤ num / den * 2 ^ (-53 : Int) := hunit

end Columnar.Binary64
