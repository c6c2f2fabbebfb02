import Columnar.Proofs.Number.Spelling
import Mathlib.Tactic.Set
import Mathlib.Tactic.SplitIfs

/-!
# Written decimals

The text of a decimal reads back as that decimal, digit for digit (`Decimal.ofText?_toText`): the
sign of zero, trailing zeros and the diagnostic of what is no number are all in it.
-/

namespace Columnar

namespace Decimal

/-- How many digits of a decimal stand before the point. -/
def pointOf (coefficient : Nat) (exponent : Int) : Int :=
  let left : Int := exponent + (Nat.toDigits 10 coefficient).length
  if exponent ≤ 0 ∧ -6 < left then left else 1

/-- The exponent that is written when the point is elsewhere. -/
def powerOf (k : Int) : Option Power :=
  if k = 0 then none else some (.of 'E' (.inr rfl) 0 k)

theorem elim_powerOf (k : Int) : (powerOf k).elim 0 Power.value = k := by
  unfold powerOf
  split
  · next h => exact h.symm
  · exact Power.value_of _ 0 k

private theorem toList_exponentText (k : Int) :
    (exponentText k).toList = (Power.of 'E' (.inr rfl) 0 k).chars := by
  unfold exponentText Power.chars Power.of Text.ofNat
  by_cases hk : k < 0 <;> simp [hk]

/-- How the digits of a decimal are spelled. -/
def spelling (coefficient : Nat) (exponent : Int) : Spelling :=
  .layout coefficient (pointOf coefficient exponent) false
    (powerOf (exponent + (Nat.toDigits 10 coefficient).length - pointOf coefficient exponent))

theorem toList_toText_finite (negative : Bool) (coefficient : Nat) (exponent : Int) :
    (finite negative coefficient exponent).toText.toList =
      (spelling coefficient exponent).signed negative := by
  have hsign : (if negative then "-" else "").toList = if negative then ['-'] else [] := by
    cases negative <;> rfl
  unfold spelling Spelling.signed
  set digits := Nat.toDigits 10 coefficient with hdigits
  set left : Int := exponent + digits.length with hleft
  set point := pointOf coefficient exponent with hpoint
  have hpower : (if left = point then "" else exponentText (left - point)).toList =
      (powerOf (left - point)).elim [] Power.chars := by
    unfold powerOf
    simp only [Int.sub_eq_zero]
    split
    · rfl
    · exact toList_exponentText _
  have htext : (finite negative coefficient exponent).toText =
      (if negative then "-" else "") ++ String.ofList
        ((if point ≤ 0 then ['0']
          else if digits.length ≤ point then
            digits ++ List.replicate (point.toNat - digits.length) '0'
          else digits.take point.toNat) ++
        if point ≤ 0 then '.' :: List.replicate (-point).toNat '0' ++ digits
          else if digits.length ≤ point then []
          else '.' :: digits.drop point.toNat)
      ++ (if left = point then "" else exponentText (left - point)) := rfl
  rw [htext, String.toList_append, String.toList_append, hsign, hpower, String.toList_ofList,
    List.append_assoc]
  congr 1
  rw [Spelling.chars_layout, ← hdigits]
  congr 1
  split
  · rfl
  · split <;> simp

private theorem padding_pointOf (coefficient : Nat) (exponent : Int) :
    Spelling.padding coefficient (pointOf coefficient exponent) false = 0 := by
  have hlength : 0 < (Nat.toDigits 10 coefficient).length := Nat.length_toDigits_pos
  unfold Spelling.padding pointOf
  dsimp only
  split_ifs <;> simp <;> omega

/-- No digit is lost or added in spelling. -/
theorem coefficient_spelling (coefficient : Nat) (exponent : Int) :
    (spelling coefficient exponent).coefficient = coefficient := by
  rw [spelling, Spelling.coefficient_layout, padding_pointOf, Nat.pow_zero, Nat.mul_one]

theorem exponent_spelling (coefficient : Nat) (exponent : Int) :
    (spelling coefficient exponent).exponent = exponent := by
  rw [spelling, Spelling.exponent_layout, padding_pointOf, elim_powerOf]
  omega

/-! ### Reading back -/

/-- Nothing is left out of a text of plain characters. -/
private theorem ofText?_eq {s : String} (h : ∀ c ∈ s.toList, Text.IsPlain c) :
    ofText? s = (readUnsigned (readSign s.toList).1 (readSign s.toList).2).or
      (readNan (readSign s.toList).1 (readSign s.toList).2) := by
  have hfilter : s.toList.filter (· ≠ '_') = s.toList :=
    List.filter_eq_self.mpr fun c hc ↦ decide_eq_true (h c hc).2.2
  have hmap : s.toList.map Text.asciiDigit = s.toList :=
    (List.map_congr_left fun c hc ↦ (h c hc).asciiDigit_eq).trans (List.map_id _)
  have hcs : ((Text.trimChars s.toList).filter (· ≠ '_')).map Text.asciiDigit = s.toList := by
    rw [Text.trimChars, Text.strip_eq fun c hc ↦ (h c hc).not_isBlank, hfilter, hmap]
  unfold ofText?
  rw [hcs]

private theorem ofText?_toText_finite (negative : Bool) (coefficient : Nat) (exponent : Int) :
    ofText? (finite negative coefficient exponent).toText =
      some (finite negative coefficient exponent) := by
  have hchars := toList_toText_finite negative coefficient exponent
  rw [ofText?_eq (hchars ▸ (spelling coefficient exponent).isPlain_of_mem_signed negative), hchars,
    Spelling.readSign_signed, Spelling.readUnsigned_chars, coefficient_spelling, exponent_spelling,
    Option.some_or]

/-- The name of what is no number, in capitals as far as they stand there. -/
private def nanName (signalling : Bool) : List Char :=
  if signalling then ['s', 'N', 'a', 'N'] else ['N', 'a', 'N']

private theorem readUnsigned_nanName (negative signalling : Bool) (digits : List Char) :
    readUnsigned negative (nanName signalling ++ digits) = none := by
  have hword (word : String) (h : word.toList.head? = some 'i') :
      (String.ofList ((nanName signalling ++ digits).map Char.toLower) == word) = false := by
    rw [beq_eq_false_iff_ne]
    rintro rfl
    rw [String.toList_ofList] at h
    cases signalling
    · exact absurd (Option.some.inj h) (by decide)
    · exact absurd (Option.some.inj h) (by decide)
  have hparts : readParts (nanName signalling ++ digits) = none := by
    cases signalling <;> rfl
  unfold readUnsigned
  simp only [hword "inf" rfl, hword "infinity" rfl, hparts, Bool.or_false, Bool.false_eq_true,
    if_false, Option.bind_none]

private theorem readNan_nanName (negative signalling : Bool) {digits : List Char}
    (h : ∀ c ∈ digits, c.isDigit) : readNan negative (nanName signalling ++ digits) =
      some (nan negative signalling (Nat.ofDigitChars 10 digits 0)) := by
  have hlower : digits.map Char.toLower = digits :=
    (List.map_congr_left fun c hc ↦ Text.toLower_of_isDigit (h c hc)).trans (List.map_id _)
  have hread := Text.natural?_eq 0 h
  cases signalling <;>
    simp [nanName, readNan, hlower, hread]

private theorem ofText?_toText_nan (negative signalling : Bool) (diagnostic : Nat) :
    ofText? (nan negative signalling diagnostic).toText =
      some (nan negative signalling diagnostic) := by
  -- the diagnostic number zero is not written
  set digits := if diagnostic = 0 then [] else Nat.toDigits 10 diagnostic with hdigits
  have hisDigit : ∀ c ∈ digits, c.isDigit := by
    intro c hc
    rw [hdigits] at hc
    split at hc
    · cases hc
    · exact Text.isDigit_of_mem_toDigits hc
  have hvalue : Nat.ofDigitChars 10 digits 0 = diagnostic := by
    rw [hdigits]
    split
    · next h => rw [h, Nat.ofDigitChars_nil]
    · exact Nat.ofDigitChars_ten_toDigits
  have hchars : (nan negative signalling diagnostic).toText.toList =
      (if negative then ['-'] else []) ++ (nanName signalling ++ digits) := by
    have htext : (if diagnostic = 0 then "" else Text.ofNat diagnostic).toList = digits := by
      rw [hdigits]
      split
      · rfl
      · exact String.toList_ofList
    unfold toText
    rw [String.toList_append, String.toList_append, htext]
    cases negative <;> cases signalling <;> rfl
  have hplain : ∀ c ∈ (nan negative signalling diagnostic).toText.toList, Text.IsPlain c := by
    rw [hchars, List.forall_mem_append, List.forall_mem_append]
    refine ⟨?_, ?_, fun c hc ↦ Text.isPlain_of_isDigit (hisDigit c hc)⟩
    · cases negative <;> exact List.all_iff_forall_prop.mp (by decide)
    · cases signalling <;> exact List.all_iff_forall_prop.mp (by decide)
  have hsign : readSign ((if negative then ['-'] else []) ++ (nanName signalling ++ digits)) =
      (negative, nanName signalling ++ digits) := by
    cases negative <;> cases signalling <;> rfl
  rw [ofText?_eq hplain, hchars, hsign, readUnsigned_nanName, readNan_nanName _ _ hisDigit, hvalue,
    Option.none_or]

/-- The text of a decimal reads back. -/
theorem ofText?_toText (d : Decimal) : ofText? d.toText = some d := by
  cases d with
  | finite negative coefficient exponent =>
    exact ofText?_toText_finite negative coefficient exponent
  | infinite negative => cases negative <;> decide +kernel
  | nan negative signalling diagnostic => exact ofText?_toText_nan negative signalling diagnostic

theorem toText_injective {d d' : Decimal} (h : d.toText = d'.toText) : d = d' :=
  Option.some.inj ((ofText?_toText d).symm.trans (h ▸ ofText?_toText d'))

end Decimal

end Columnar
