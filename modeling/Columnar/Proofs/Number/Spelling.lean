import Columnar.Proofs.Number.Digits

/-!
# Spelled numbers

A number may be spelled with digits, a point with more digits behind it, and an exponent. However
it is spelled, `Decimal.readUnsigned` finds its coefficient and its exponent
(`Spelling.readUnsigned_chars`).
-/

namespace Columnar

private theorem isDigit_of_mem_replicate {n : Nat} {c : Char} (h : c ∈ List.replicate n '0') :
    c.isDigit := by
  rw [List.eq_of_mem_replicate h]
  rfl

/-- A spelled exponent: its mark, its sign and its digits. -/
structure Power where
  mark : Char
  negative : Bool
  digits : List Char
  isMark : mark = 'e' ∨ mark = 'E'
  digits_ne_nil : digits ≠ []
  isDigit : ∀ c ∈ digits, c.isDigit

namespace Power

variable (p : Power)

def chars : List Char := p.mark :: (if p.negative then '-' else '+') :: p.digits

def value : Int :=
  if p.negative then -(Nat.ofDigitChars 10 p.digits 0 : Int) else Nat.ofDigitChars 10 p.digits 0

/-- An exponent, with zeros in front of its digits. -/
def of (mark : Char) (h : mark = 'e' ∨ mark = 'E') (zeros : Nat) (n : Int) : Power where
  mark := mark
  negative := decide (n < 0)
  digits := List.replicate zeros '0' ++ Nat.toDigits 10 n.natAbs
  isMark := h
  digits_ne_nil := by simp
  isDigit c hc := by
    rcases List.mem_append.mp hc with hc | hc
    · exact isDigit_of_mem_replicate hc
    · exact Text.isDigit_of_mem_toDigits hc

@[simp] theorem value_of {mark : Char} (h : mark = 'e' ∨ mark = 'E') (zeros : Nat) (n : Int) :
    (of mark h zeros n).value = n := by
  have hdigits : Nat.ofDigitChars 10 (of mark h zeros n).digits 0 = n.natAbs := by
    rw [of, Nat.ofDigitChars_append, Nat.ofDigitChars_replicate_zero, Nat.mul_zero,
      Nat.ofDigitChars_ten_toDigits]
  have hsign : (of mark h zeros n).negative = decide (n < 0) := rfl
  rw [value, hdigits, hsign]
  by_cases hn : n < 0
  · rw [if_pos (decide_eq_true hn)]
    omega
  · rw [if_neg (by simpa using hn)]
    omega

end Power

/-- A spelled number without its sign. -/
structure Spelling where
  whole : List Char
  fraction : Option (List Char)
  power : Option Power
  whole_ne_nil : whole ≠ []
  isDigit_whole : ∀ c ∈ whole, c.isDigit
  isDigit_fraction : ∀ cs ∈ fraction, ∀ c ∈ cs, c.isDigit

namespace Spelling

variable (s : Spelling)

def chars : List Char :=
  s.whole ++ s.fraction.elim [] ('.' :: ·) ++ s.power.elim [] Power.chars

/-- The number that all digits make, without the point. -/
def coefficient : Nat := Nat.ofDigitChars 10 (s.whole ++ s.fraction.getD []) 0

/-- The exponent that makes up for the point. -/
def exponent : Int := s.power.elim 0 Power.value - (s.fraction.getD []).length

/-! ### Reading -/

/-- Digits end where another character follows. -/
private theorem takeWhile_digits {ds rest : List Char} (hds : ∀ c ∈ ds, c.isDigit)
    (hrest : ∀ c ∈ rest.head?, c.isDigit = false) :
    (ds ++ rest).takeWhile Char.isDigit = ds ∧ (ds ++ rest).dropWhile Char.isDigit = rest := by
  rw [List.takeWhile_append_of_pos hds, List.dropWhile_append_of_pos hds]
  cases rest with
  | nil => simp
  | cons c rest => simp [hrest c rfl]

/-- Without an exponent there is nothing behind the digits. -/
private theorem readParts_none {whole : List Char} (hne : whole ≠ [])
    (hwhole : ∀ c ∈ whole, c.isDigit) {fraction : Option (List Char)}
    (hfraction : ∀ cs ∈ fraction, ∀ c ∈ cs, c.isDigit) :
    Decimal.readParts (whole ++ fraction.elim [] ('.' :: ·)) =
      some (whole, fraction.getD [], 0) := by
  cases fraction with
  | none =>
    obtain ⟨htake, hdrop⟩ := takeWhile_digits hwhole (fun c (h : c ∈ [].head?) ↦ by cases h)
    rw [List.append_nil] at htake hdrop
    simp [Decimal.readParts, htake, hdrop, hne]
  | some fraction =>
    obtain ⟨htake, hdrop⟩ := takeWhile_digits hwhole
      (fun c (h : c ∈ ('.' :: fraction).head?) ↦ by cases h; rfl)
    obtain ⟨htake', hdrop'⟩ := takeWhile_digits (hfraction fraction rfl)
      (fun c (h : c ∈ [].head?) ↦ by cases h)
    rw [List.append_nil] at htake' hdrop'
    simp [Decimal.readParts, htake, hdrop, hne, htake', hdrop']

/-- An exponent behind the digits is read with its sign. -/
private theorem readParts_some {whole : List Char} (hne : whole ≠ [])
    (hwhole : ∀ c ∈ whole, c.isDigit) {fraction : Option (List Char)}
    (hfraction : ∀ cs ∈ fraction, ∀ c ∈ cs, c.isDigit) (p : Power) :
    Decimal.readParts (whole ++ fraction.elim [] ('.' :: ·) ++ p.chars) =
      some (whole, fraction.getD [], p.value) := by
  have hsign : Decimal.readSign ((if p.negative then '-' else '+') :: p.digits) =
      (p.negative, p.digits) := by
    cases p.negative <;> rfl
  have hdot : p.mark ≠ '.' := by
    rcases p.isMark with h | h <;> rw [h] <;> decide
  have hnodigit : ∀ c ∈ (p.mark :: (if p.negative then '-' else '+') :: p.digits).head?,
      c.isDigit = false := by
    rintro c ⟨rfl⟩
    rcases p.isMark with h | h <;> rw [h] <;> rfl
  unfold Power.chars Power.value
  cases fraction with
  | none =>
    obtain ⟨htake, hdrop⟩ := takeWhile_digits hwhole hnodigit
    simp [Decimal.readParts, htake, hdrop, hne, hsign, hdot, p.isMark, p.digits_ne_nil,
      Text.natural?_eq 0 p.isDigit]
  | some fraction =>
    obtain ⟨htake, hdrop⟩ := takeWhile_digits hwhole
      (fun c (h : c ∈ ('.' :: (fraction ++ p.mark :: (if p.negative then '-' else '+') ::
        p.digits)).head?) ↦ by cases h; rfl)
    obtain ⟨htake', hdrop'⟩ := takeWhile_digits (hfraction fraction rfl) hnodigit
    simp [Decimal.readParts, htake, hdrop, hne, hsign, p.isMark, p.digits_ne_nil,
      Text.natural?_eq 0 p.isDigit, htake', hdrop']

/-- The parts of a spelled number are found. -/
theorem readParts_chars : Decimal.readParts s.chars =
    some (s.whole, s.fraction.getD [], s.power.elim 0 Power.value) := by
  obtain ⟨whole, fraction, power, hne, hwhole, hfraction⟩ := s
  cases power with
  | none =>
    unfold chars
    rw [Option.elim_none, List.append_nil]
    exact readParts_none hne hwhole hfraction
  | some p => exact readParts_some hne hwhole hfraction p

/-- What begins with a digit is no name. -/
theorem map_toLower_ne {word : List Char} {d : Char} (h : word.head? = some d)
    (hd : d.isDigit = false) : s.chars.map Char.toLower ≠ word := by
  rintro rfl
  obtain ⟨c, cs, hwhole⟩ := List.exists_cons_of_ne_nil s.whole_ne_nil
  have hc : c.isDigit := s.isDigit_whole c (hwhole ▸ List.mem_cons_self)
  rw [chars, hwhole] at h
  have hlower : c.toLower = d := Option.some.inj h
  rw [← hlower, Text.toLower_of_isDigit hc, hc] at hd
  cases hd

/-- A spelled number is read. -/
theorem readUnsigned_chars (negative : Bool) :
    Decimal.readUnsigned negative s.chars = some (.finite negative s.coefficient s.exponent) := by
  have hdigits : ∀ c ∈ s.whole ++ s.fraction.getD [], c.isDigit := by
    intro c hc
    rcases List.mem_append.mp hc with hc | hc
    · exact s.isDigit_whole c hc
    · rcases hf : s.fraction with _ | cs <;> rw [hf] at hc
      · cases hc
      · exact s.isDigit_fraction cs hf c hc
  have hword (word : String) (h : word.toList.head? = some 'i') :
      (String.ofList (s.chars.map Char.toLower) == word) = false := by
    rw [beq_eq_false_iff_ne]
    rintro rfl
    rw [String.toList_ofList] at h
    exact s.map_toLower_ne h rfl rfl
  rw [Decimal.readUnsigned]
  simp only [hword "inf" rfl, hword "infinity" rfl, Bool.or_false, Bool.false_eq_true, if_false]
  rw [readParts_chars, Option.bind_some]
  dsimp only
  rw [Text.natural?_eq 0 hdigits]
  rfl

/-- The number behind its sign. -/
def signed (negative : Bool) : List Char := (if negative then ['-'] else []) ++ s.chars

/-- A spelled number begins with its sign or with a digit. -/
theorem exists_signed (negative : Bool) : ∃ c cs, s.signed negative = c :: cs ∧
    if negative then c = '-' else c.isDigit = true := by
  cases negative with
  | true => exact ⟨'-', _, rfl, rfl⟩
  | false =>
    obtain ⟨c, cs, hwhole⟩ := List.exists_cons_of_ne_nil s.whole_ne_nil
    exact ⟨c, _, by rw [signed, chars, hwhole]; rfl,
      s.isDigit_whole c (hwhole ▸ List.mem_cons_self)⟩

/-- The sign is told from the digits. -/
theorem readSign_signed (negative : Bool) :
    Decimal.readSign (s.signed negative) = (negative, s.chars) := by
  cases negative with
  | true => rfl
  | false =>
    obtain ⟨c, cs, hcs, hc⟩ := s.exists_signed false
    have hchars : s.signed false = s.chars := rfl
    rw [← hchars, hcs]
    rw [Decimal.readSign] <;> rintro _ ⟨⟩ <;> cases hc

/-- The characters of a spelled number. -/
theorem mem_signed (negative : Bool) : ∀ c ∈ s.signed negative,
    c.isDigit = true ∨ c ∈ ['-', '+', '.', 'e', 'E'] := by
  have hsign (b : Bool) : (if b then '-' else '+') ∈ ['-', '+', '.', 'e', 'E'] := by
    cases b <;> decide
  simp only [signed, chars, List.forall_mem_append]
  refine ⟨by cases negative <;> exact List.all_iff_forall_prop.mp (by decide),
    ⟨fun c hc ↦ .inl (s.isDigit_whole c hc), ?_⟩, ?_⟩
  · rcases hf : s.fraction with _ | fraction
    · exact List.forall_mem_nil _
    · exact List.forall_mem_cons.mpr
        ⟨.inr (by decide), fun c hc ↦ .inl (s.isDigit_fraction fraction hf c hc)⟩
  · rcases s.power with _ | p
    · exact List.forall_mem_nil _
    · refine List.forall_mem_cons.mpr ⟨.inr ?_, List.forall_mem_cons.mpr
        ⟨.inr (hsign p.negative), fun c hc ↦ .inl (p.isDigit c hc)⟩⟩
      rcases p.isMark with h | h <;> rw [h] <;> decide

theorem isPlain_of_mem_signed (negative : Bool) : ∀ c ∈ s.signed negative, Text.IsPlain c := by
  have hmarks : ∀ c ∈ ['-', '+', '.', 'e', 'E'], Text.IsPlain c :=
    List.all_iff_forall_prop.mp (by decide)
  intro c hc
  rcases s.mem_signed negative c hc with hdigit | hmark
  · exact Text.isPlain_of_isDigit hdigit
  · exact hmarks c hmark

/-! ### Layout -/

variable (n : Nat) (point : Int) (zero : Bool) (power : Option Power)

/-- A number with so many of its digits before the point and the others behind it; zeros stand in
for digits that it does not have, and one may stand behind a point that ends the number. -/
def layout : Spelling :=
  if hpoint : point ≤ 0 then
    { whole := ['0']
      fraction := some (List.replicate (-point).toNat '0' ++ Nat.toDigits 10 n)
      power := power
      whole_ne_nil := by simp
      isDigit_whole := by simp
      isDigit_fraction := by
        rintro _ ⟨rfl⟩ c hc
        rcases List.mem_append.mp hc with hc | hc
        · exact isDigit_of_mem_replicate hc
        · exact Text.isDigit_of_mem_toDigits hc }
  else if (Nat.toDigits 10 n).length ≤ point then
    { whole := Nat.toDigits 10 n ++ List.replicate (point.toNat - (Nat.toDigits 10 n).length) '0'
      fraction := if zero then some ['0'] else none
      power := power
      whole_ne_nil := by simp
      isDigit_whole := by
        intro c hc
        rcases List.mem_append.mp hc with hc | hc
        · exact Text.isDigit_of_mem_toDigits hc
        · exact isDigit_of_mem_replicate hc
      isDigit_fraction := by
        intro cs hcs c hc
        split at hcs
        · obtain rfl := Option.some.inj hcs
          rw [List.mem_singleton.mp hc]
          rfl
        · cases hcs }
  else
    { whole := (Nat.toDigits 10 n).take point.toNat
      fraction := some ((Nat.toDigits 10 n).drop point.toNat)
      power := power
      whole_ne_nil := by
        simp only [ne_eq, List.take_eq_nil_iff, Nat.toDigits_ne_nil, or_false]
        omega
      isDigit_whole := fun c hc ↦ Text.isDigit_of_mem_toDigits (List.mem_of_mem_take hc)
      isDigit_fraction := by
        rintro _ ⟨rfl⟩ c hc
        exact Text.isDigit_of_mem_toDigits (List.mem_of_mem_drop hc) }

theorem chars_layout : (layout n point zero power).chars =
    (if point ≤ 0 then
      '0' :: '.' :: (List.replicate (-point).toNat '0' ++ Nat.toDigits 10 n)
    else if (Nat.toDigits 10 n).length ≤ point then
      Nat.toDigits 10 n ++ List.replicate (point.toNat - (Nat.toDigits 10 n).length) '0' ++
        if zero then ['.', '0'] else []
    else (Nat.toDigits 10 n).take point.toNat ++ '.' :: (Nat.toDigits 10 n).drop point.toNat) ++
      power.elim [] Power.chars := by
  unfold chars layout
  split
  · rfl
  · split
    · cases zero <;> rfl
    · rfl

/-- How many zeros are behind the digits. -/
def padding : Nat :=
  if point ≤ 0 then 0
  else if (Nat.toDigits 10 n).length ≤ point then
    point.toNat - (Nat.toDigits 10 n).length + zero.toNat
  else 0

theorem coefficient_layout :
    (layout n point zero power).coefficient = n * 10 ^ padding n point zero := by
  have hread : Nat.ofDigitChars 10 (Nat.toDigits 10 n) 0 = n := Nat.ofDigitChars_ten_toDigits
  unfold coefficient layout padding
  split
  · have hzero : Nat.ofDigitChars 10 ['0'] 0 = 0 := rfl
    rw [Option.getD_some, Nat.ofDigitChars_append, Nat.ofDigitChars_append, hzero,
      Nat.ofDigitChars_replicate_zero, Nat.mul_zero, hread, Nat.pow_zero, Nat.mul_one]
  · split
    · have hbehind : (if zero then some ['0'] else none).getD [] =
          List.replicate zero.toNat '0' := by
        cases zero <;> rfl
      rw [hbehind, List.append_assoc, List.replicate_append_replicate, Nat.ofDigitChars_append,
        hread, Nat.ofDigitChars_replicate_zero, Nat.mul_comm]
    · rw [Option.getD_some, List.take_append_drop, hread, Nat.pow_zero, Nat.mul_one]

theorem exponent_layout : (layout n point zero power).exponent =
    power.elim 0 Power.value + point - (Nat.toDigits 10 n).length - padding n point zero := by
  unfold exponent layout padding
  split
  · simp only [Option.getD_some, List.length_append, List.length_replicate]
    omega
  · split
    · have hbehind : ((if zero then some ['0'] else none).getD []).length = zero.toNat := by
        cases zero <;> rfl
      simp only [hbehind]
      omega
    · simp only [Option.getD_some, List.length_drop]
      omega

end Spelling

end Columnar
