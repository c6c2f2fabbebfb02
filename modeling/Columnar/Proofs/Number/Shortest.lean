import Columnar.Proofs.Number.Rounding
import Columnar.Proofs.Number.Spelling
import Mathlib.Tactic.SplitIfs

/-!
# Written floating-point numbers

The text of a floating-point number has few digits, and yet it reads back as that very number
(`Binary64.ofText?_toText`). The number nearest to a decimal depends on the decimal's value only
(`ofScientific_scale`), every candidate of the search is tested, and the exact value is there if no
candidate passes (`ofScientific_shortest`).
-/

namespace Columnar.Binary64

/-! ### The number nearest to a decimal -/

/-- Zeros behind the coefficient may be counted in the exponent instead. -/
theorem ofScientific_scale (negative : Bool) (c k : Nat) (e : Int) :
    ofScientific negative (c * 10 ^ k) (e - k) = ofScientific negative c e := by
  by_cases hc : c = 0
  · subst hc
    rw [Nat.zero_mul, ofScientific, ofScientific]
    simp
  · have hpos : 0 < c := Nat.pos_of_ne_zero hc
    have hpos' : c * 10 ^ k ≠ 0 := (Nat.mul_pos hpos (by positivity)).ne'
    have hlength : ((Nat.toDigits 10 (c * 10 ^ k)).length : Int) + (e - k) =
        (Nat.toDigits 10 c).length + e := by
      rw [Text.toDigits_mul_pow hpos, List.length_append, List.length_replicate]
      omega
    have hratio : ofRatio negative (c * 10 ^ k * 10 ^ (e - k).toNat) (10 ^ (-(e - k)).toNat) =
        ofRatio negative (c * 10 ^ e.toNat) (10 ^ (-e).toNat) := by
      refine ofRatio_congr negative (by positivity) (by positivity) ?_
      have hexponent : k + (e - k).toNat + (-e).toNat = e.toNat + (-(e - k)).toNat := by omega
      calc c * 10 ^ k * 10 ^ (e - k).toNat * 10 ^ (-e).toNat
          = c * 10 ^ (k + (e - k).toNat + (-e).toNat) := by rw [pow_add, pow_add]; ring
        _ = c * 10 ^ e.toNat * 10 ^ (-(e - k)).toNat := by rw [hexponent, pow_add]; ring
    unfold ofScientific
    dsimp only
    rw [if_neg hc, if_neg hpos', hlength]
    simp only [Nat.pow_eq]
    rw [hratio]

/-- The sign does not matter to the nearest number. -/
theorem ofScientific_sign {c m : Nat} {x e : Int} (negative : Bool)
    (h : ofScientific false c x = finite false m e) :
    ofScientific negative c x = finite negative m e := by
  have hzero (h : zero false = finite false m e) : zero negative = finite negative m e := by
    obtain ⟨-, rfl, rfl⟩ := finite.inj h
    rfl
  unfold ofScientific at h ⊢
  dsimp only at h ⊢
  split_ifs at h ⊢
  · exact hzero h
  · exact hzero h
  · exact ofRatio_sign h

/-- A whole number has at most 309 digits. -/
private theorem length_whole {m k : Nat} (hmax : m < 2 ^ 53) (hk : k ≤ 971) :
    (Nat.toDigits 10 (m * 2 ^ k)).length ≤ 309 := by
  refine (Nat.length_toDigits_le_iff (by decide) (by decide)).mpr ?_
  calc m * 2 ^ k < 2 ^ 53 * 2 ^ k := Nat.mul_lt_mul_of_pos_right hmax (by positivity)
    _ ≤ 2 ^ 53 * 2 ^ 971 := Nat.mul_le_mul_left _ (Nat.pow_le_pow_right (by decide) hk)
    _ ≤ 10 ^ 309 := by decide +kernel

/-- Digits behind the point go up to the 324th at least. -/
private theorem length_fraction {m n : Nat} (hm : m ≠ 0) (hmax : m < 2 ^ 53) (hn : n ≤ 1074) :
    (Nat.toDigits 10 (m * 5 ^ n)).length ≤ 16 + n ∧
      n < 324 + (Nat.toDigits 10 (m * 5 ^ n)).length := by
  constructor
  · refine (Nat.length_toDigits_le_iff (by decide) (by omega)).mpr ?_
    calc m * 5 ^ n < 2 ^ 53 * 5 ^ n := Nat.mul_lt_mul_of_pos_right hmax (by positivity)
      _ ≤ 10 ^ 16 * 10 ^ n := Nat.mul_le_mul (by decide) (Nat.pow_le_pow_left (by decide) n)
      _ = 10 ^ (16 + n) := (Nat.pow_add ..).symm
  · have htwo : 2 ^ 1074 ≤ 10 ^ 324 := by decide +kernel
    -- the bound becomes a variable, so that its power is not evaluated again
    generalize 324 = k at htwo ⊢
    have hpos : 0 < m := Nat.pos_of_ne_zero hm
    refine (Nat.pow_lt_pow_iff_right (by decide : 1 < 10)).mp ?_
    have hpow : 2 ^ n ≤ 10 ^ k := (pow_le_pow_right₀ one_le_two hn).trans htwo
    calc 10 ^ n = 2 ^ n * 5 ^ n := Nat.mul_pow 2 5 n
      _ ≤ 10 ^ k * (m * 5 ^ n) := Nat.mul_le_mul hpow (Nat.le_mul_of_pos_left _ hpos)
      _ < 10 ^ k * 10 ^ (Nat.toDigits 10 (m * 5 ^ n)).length :=
          Nat.mul_lt_mul_of_pos_left
            (Text.toDigits_bounds (Nat.mul_pos hpos (by positivity))).2 (by positivity)
      _ = 10 ^ (k + (Nat.toDigits 10 (m * 5 ^ n)).length) := (Nat.pow_add ..).symm

/-- How many digits the exact value of a finite number has, and where its point is. -/
private theorem digits_exactDecimal {negative : Bool} {m : Nat} {e : Int}
    (h : (finite negative m e).Canonical) (hm : m ≠ 0) :
    ((Nat.toDigits 10 (exactDecimal m e).1).length : Int) + (exactDecimal m e).2 ≤ 310 ∧
      -330 ≤ ((Nat.toDigits 10 (exactDecimal m e).1).length : Int) + (exactDecimal m e).2 := by
  obtain ⟨hmax, hlow, hhigh, -⟩ := h
  unfold exactDecimal
  split
  · next he =>
    dsimp only
    have hlength := length_whole hmax (show e.toNat ≤ 971 by omega)
    rw [Nat.pow_eq]
    omega
  · next he =>
    obtain ⟨n, hn⟩ := Int.eq_ofNat_of_zero_le (show 0 ≤ -e by omega)
    obtain rfl : e = -(n : Int) := by omega
    have hneg : (-(-(n : Int))).toNat = n := by omega
    dsimp only
    rw [hneg, Nat.pow_eq]
    obtain ⟨hupper, hlower⟩ := length_fraction hm hmax (show n ≤ 1074 by omega)
    omega

/-- The exact value of a number rounds to it. -/
theorem ofScientific_exactDecimal {negative : Bool} {m : Nat} {e : Int}
    (h : (finite negative m e).Canonical) (hm : m ≠ 0) :
    ofScientific false (exactDecimal m e).1 (exactDecimal m e).2 = finite false m e := by
  obtain ⟨hupper, hlower⟩ := digits_exactDecimal h hm
  have hcanonical : (finite false m e).Canonical := h
  have hc : (exactDecimal m e).1 ≠ 0 := by
    unfold exactDecimal
    split <;> exact Nat.mul_ne_zero hm (Nat.pow_pos (by decide)).ne'
  unfold ofScientific
  dsimp only
  rw [if_neg hc, if_neg (by omega), if_neg (by omega), ← ofRatio_exact hcanonical]
  refine ofRatio_congr false (Nat.pow_pos (by decide)) (by positivity) ?_
  simp only [Nat.pow_eq]
  unfold exactDecimal
  split
  · next he =>
    have hden : (-e).toNat = 0 := by omega
    rw [hden]
    simp
  · next he =>
    have hnum : e.toNat = 0 := by omega
    have hten : (10 : Nat) ^ (-e).toNat = 5 ^ (-e).toNat * 2 ^ (-e).toNat := by rw [← Nat.mul_pow]
    dsimp only
    rw [hnum, hten, Nat.pow_eq]
    ring

/-! ### The search for few digits -/

variable {m : Nat} {e : Int}

theorem readsBack_onGrid {coefficient unit c : Nat} {exponent : Int}
    (h : onGrid coefficient unit exponent m e = some c) : readsBack c exponent m e = true := by
  unfold onGrid at h
  dsimp only at h
  generalize (if nearest coefficient unit = coefficient / unit then _ else _) = other at h
  split at h
  · next hread => exact Option.some.inj h ▸ hread
  · split at h
    · next hread => exact Option.some.inj h ▸ hread
    · cases h

/-- What the search finds reads back as the number if its exact value does. -/
theorem readsBack_searchGrids (fuel count digits : Nat) {coefficient : Nat} {exponent : Int}
    (h : readsBack coefficient exponent m e = true) :
    readsBack (searchGrids fuel count coefficient digits exponent m e).1
      (searchGrids fuel count coefficient digits exponent m e).2 m e = true := by
  induction fuel generalizing count with
  | zero => exact h
  | succ fuel ih =>
    unfold searchGrids
    split
    · exact h
    · dsimp only
      split
      · next hgrid => exact readsBack_onGrid hgrid
      · exact ih (count + 1)

end Columnar.Binary64

namespace Columnar.Numeral

/-- Stripped zeros are counted in the exponent. -/
theorem exists_strip (fuel coefficient : Nat) (exponent : Int) :
    ∃ k : Nat, coefficient = (strip fuel coefficient exponent).1 * 10 ^ k ∧
      exponent = (strip fuel coefficient exponent).2 - k := by
  induction fuel generalizing coefficient exponent with
  | zero => exact ⟨0, by simp [strip], by simp [strip]⟩
  | succ fuel ih =>
    unfold strip
    split
    · next hzero =>
      obtain ⟨k, hc, he⟩ := ih (coefficient / 10) (exponent + 1)
      refine ⟨k + 1, ?_, by omega⟩
      rw [Nat.pow_succ, ← Nat.mul_assoc, ← hc, Nat.div_mul_cancel (Nat.dvd_of_mod_eq_zero hzero)]
    · exact ⟨0, by simp, by simp⟩

end Columnar.Numeral

namespace Columnar.Binary64

/-- The digits that are written are those of a decimal that rounds to the number. -/
theorem ofScientific_shortest {negative : Bool} {m : Nat} {e : Int}
    (h : (finite negative m e).Canonical) (hm : m ≠ 0) :
    ofScientific false (shortest m e).1 (shortest m e).2 = finite false m e := by
  have hexact : readsBack (exactDecimal m e).1 (exactDecimal m e).2 m e = true :=
    beq_iff_eq.mpr (ofScientific_exactDecimal h hm)
  have hfound := beq_iff_eq.mp (readsBack_searchGrids 17 1
    (Nat.toDigits 10 (exactDecimal m e).1).length hexact)
  set found := searchGrids 17 1 (exactDecimal m e).1 (Nat.toDigits 10 (exactDecimal m e).1).length
    (exactDecimal m e).2 m e with hdef
  have hshortest : shortest m e = Numeral.strip found.1.log2 found.1 found.2 := rfl
  obtain ⟨k, hc, he⟩ := Numeral.exists_strip found.1.log2 found.1 found.2
  rw [hshortest, ← ofScientific_scale false _ k, ← hc, ← he]
  exact hfound

/-! ### Text -/

/-- The decimal that is written for a number. -/
def written (m : Nat) (e : Int) : Nat × Int := if m = 0 then (0, 0) else shortest m e

theorem ofScientific_written {negative : Bool} {m : Nat} {e : Int}
    (h : (finite negative m e).Canonical) :
    ofScientific negative (written m e).1 (written m e).2 = finite negative m e := by
  unfold written
  split
  · next hm =>
    obtain ⟨-, -, -, hform⟩ := h
    subst hm
    rw [hform.resolve_left (by decide)]
    rfl
  · next hm => exact ofScientific_sign negative (ofScientific_shortest h hm)

/-- How the digits of a finite number are spelled. -/
def spelling (m : Nat) (e : Int) : Spelling :=
  let (c, x) := written m e
  let point : Int := (Nat.toDigits 10 c).length + x
  if -4 < point ∧ point ≤ 16 then .layout c point true none
  else .layout c 1 false
    (some (.of 'e' (.inl rfl) (if (point - 1).natAbs < 10 then 1 else 0) (point - 1)))

private theorem toList_paddedExponent (n : Int) : 'e' :: (paddedExponent n).toList =
    (Power.of 'e' (.inl rfl) (if n.natAbs < 10 then 1 else 0) n).chars := by
  unfold paddedExponent Power.chars Power.of Text.ofNat
  by_cases hn : n < 0 <;> by_cases hten : n.natAbs < 10 <;> simp [hn, hten]

theorem toList_toText_finite (negative : Bool) (m : Nat) (e : Int) :
    (finite negative m e).toText.toList = (spelling m e).signed negative := by
  have hsign : (signText negative).toList = if negative then ['-'] else [] := by
    cases negative <;> rfl
  by_cases hm : m = 0
  · subst hm
    have htext : (finite negative 0 e).toText = (finite negative 0 0).toText := rfl
    have hspelling : spelling 0 e = spelling 0 0 := rfl
    rw [htext, hspelling]
    cases negative <;> decide +kernel
  unfold toText spelling written Spelling.signed
  dsimp only
  rw [if_neg hm, if_neg hm, String.toList_append, hsign]
  generalize shortest m e = found
  obtain ⟨c, x⟩ := found
  dsimp only
  congr 1
  split
  · rw [Spelling.chars_layout, Option.elim_none, List.append_nil]
    split
    · simp
    · split <;> simp
  · have he : "e".toList = ['e'] := rfl
    rw [Spelling.chars_layout, Option.elim_some, ← toList_paddedExponent, String.toList_append,
      String.toList_append, he, List.append_assoc, List.singleton_append]
    congr 1
    obtain ⟨d, rest, hdigits⟩ := List.exists_cons_of_ne_nil (Nat.toDigits_ne_nil (n := c) (b := 10))
    rw [hdigits]
    cases rest with
    | nil => simp
    | cons d' rest => simp

/-- What is spelled is the decimal that is to be written, but for zeros behind it. -/
theorem exists_spelling (m : Nat) (e : Int) : ∃ k : Nat,
    (spelling m e).coefficient = (written m e).1 * 10 ^ k ∧
      (spelling m e).exponent = (written m e).2 - k := by
  unfold spelling
  obtain ⟨c, x⟩ := written m e
  dsimp only
  split
  · refine ⟨_, Spelling.coefficient_layout .., ?_⟩
    rw [Spelling.exponent_layout, Option.elim_none]
    omega
  · refine ⟨_, Spelling.coefficient_layout .., ?_⟩
    rw [Spelling.exponent_layout, Option.elim_some, Power.value_of]
    omega

/-- The characters of a number read back. -/
theorem ofChars?_toText {x : Binary64} (h : x.Canonical) : ofChars? x.toText.toList = some x := by
  cases x with
  | nan => decide +kernel
  | infinite negative => cases negative <;> decide +kernel
  | finite negative m e =>
    obtain ⟨k, hcoefficient, hexponent⟩ := exists_spelling m e
    have hname : (spelling m e).chars.map Char.toLower ≠ ['n', 'a', 'n'] :=
      (spelling m e).map_toLower_ne rfl rfl
    rw [ofChars?, toList_toText_finite, Spelling.readSign_signed]
    dsimp only
    rw [if_neg hname, Spelling.readUnsigned_chars, Option.map_some, ofDecimal, hcoefficient,
      hexponent, ofScientific_scale, ofScientific_written h]

theorem isPlain_of_mem_toText (x : Binary64) : ∀ c ∈ x.toText.toList, Text.IsPlain c := by
  cases x with
  | nan => exact List.all_iff_forall_prop.mp (by decide)
  | infinite negative => cases negative <;> exact List.all_iff_forall_prop.mp (by decide)
  | finite negative m e =>
    rw [toList_toText_finite]
    exact (spelling m e).isPlain_of_mem_signed negative

/-- A spelled floating-point number has a point or an exponent. -/
theorem exists_mark_spelling (m : Nat) (e : Int) : '.' ∈ (spelling m e).chars ∨
    'e' ∈ (spelling m e).chars := by
  unfold spelling
  obtain ⟨c, x⟩ := written m e
  dsimp only
  split
  · refine .inl ?_
    rw [Spelling.chars_layout]
    split
    · simp
    · split <;> simp
  · refine .inr ?_
    rw [Spelling.chars_layout]
    exact List.mem_append_right _ List.mem_cons_self

/-- A written floating-point number is no integer. -/
theorem exists_not_isIntegral (x : Binary64) :
    ∃ c ∈ x.toText.toList, Text.isIntegral c = false := by
  cases x with
  | nan => exact ⟨'n', by decide, by decide⟩
  | infinite negative => exact ⟨'i', by cases negative <;> decide, by decide⟩
  | finite negative m e =>
    rw [toList_toText_finite]
    rcases exists_mark_spelling m e with h | h
    · exact ⟨'.', List.mem_append_right _ h, by decide⟩
    · exact ⟨'e', List.mem_append_right _ h, by decide⟩

/-- Without underscores there is nothing to drop. -/
private theorem dropSeparators_eq {cs : List Char} (h : ∀ c ∈ cs, c ≠ '_') :
    dropSeparators cs = cs := by
  induction cs with
  | nil => rfl
  | cons c cs ih =>
    rw [dropSeparators, ih fun d hd ↦ h d (List.mem_cons_of_mem c hd)]
    rintro b rest rfl
    exact h '_' (by simp) rfl

/-- The text of a number reads back. -/
theorem ofText?_toText {x : Binary64} (h : x.Canonical) : ofText? x.toText = some x := by
  have hplain := isPlain_of_mem_toText x
  have htrim : Text.trimSpace x.toText.toList = x.toText.toList :=
    Text.strip_eq fun c hc ↦ by rw [Text.isSpace, (hplain c hc).not_isBlank, Bool.false_and]
  have hmap : x.toText.toList.map Text.asciiDigit = x.toText.toList :=
    (List.map_congr_left fun c hc ↦ (hplain c hc).asciiDigit_eq).trans (List.map_id _)
  rw [ofText?, htrim, hmap, dropSeparators_eq fun c hc ↦ (hplain c hc).2.2, ofChars?_toText h]

theorem canonical_ofDecimal (d : Decimal) : (ofDecimal d).Canonical := by
  cases d with
  | finite negative coefficient exponent =>
    have hzero (negative : Bool) : (zero negative).Canonical :=
      ⟨by decide, le_rfl, by decide, .inr rfl⟩
    rw [ofDecimal, ofScientific]
    split
    · exact hzero negative
    · split
      · trivial
      · split
        · exact hzero negative
        · exact canonical_ofRatio negative _ (Nat.pow_pos (by decide))
  | _ => trivial

/-- The numbers that texts write are those in their own form. -/
theorem canonical_iff {x : Binary64} : x.Canonical ↔ ∃ s, ofText? s = some x := by
  refine ⟨fun h ↦ ⟨x.toText, ofText?_toText h⟩, ?_⟩
  rintro ⟨s, h⟩
  rw [ofText?, ofChars?] at h
  generalize Decimal.readSign _ = signed at h
  obtain ⟨negative, rest⟩ := signed
  dsimp only at h
  split at h
  · cases h
    trivial
  · obtain ⟨d, -, rfl⟩ := Option.map_eq_some_iff.mp h
    exact canonical_ofDecimal d

/-- The text of a number tells it from every other one. -/
theorem toText_injective {x y : Binary64} (hx : x.Canonical) (hy : y.Canonical)
    (h : x.toText = y.toText) : x = y :=
  Option.some.inj ((ofText?_toText hx).symm.trans (h ▸ ofText?_toText hy))

end Columnar.Binary64
