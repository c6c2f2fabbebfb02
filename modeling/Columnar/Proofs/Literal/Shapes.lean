import Columnar.Literal.Typing
import Columnar.Proofs.Calendar.Stamp
import Columnar.Proofs.Succeeding

/-!
# Shapes of bound texts

What dates, identifiers and mappings are bound as can be told apart by its shape. The text of a
second from the year 1000 on has four digits for the year and two for every other part
(`isDateTimeText_clockText`), an identifier's is a canonical one (`isUuidText_toText`), and a
mapping's begins with a brace.
-/

namespace Columnar.Literal

/-! ### Texts of dates and identifiers -/

/-- A character that a pattern allows: a digit where it has a `d`, and otherwise its own. -/
def Fits (c p : Char) : Prop := if p = 'd' then c.isDigit = true else c = p

/-- Year, month and day, hour, minute and second, each in its digits. -/
def dateTimePattern : List Char :=
  ['d', 'd', 'd', 'd', '-', 'd', 'd', '-', 'd', 'd', ' ',
    'd', 'd', ':', 'd', 'd', ':', 'd', 'd']

/-- A text of the shape of a date and a time of the day. -/
def IsDateTimeText (s : String) : Prop := List.Forall₂ Fits s.toList dateTimePattern

private theorem fits_digits {cs : List Char} {n : Nat} (hlength : cs.length = n)
    (h : ∀ c ∈ cs, c.isDigit = true) : List.Forall₂ Fits cs (List.replicate n 'd') := by
  induction cs generalizing n with
  | nil =>
    subst hlength
    exact .nil
  | cons c cs ih =>
    subst hlength
    obtain ⟨hc, hcs⟩ := List.forall_mem_cons.mp h
    exact .cons hc (ih rfl hcs)

private theorem fits_twoDigits {n : Nat} (h : n < 100) :
    List.Forall₂ Fits (twoDigits n).toList (List.replicate 2 'd') := by
  apply fits_digits
  · rw [toList_twoDigits]
    have hlength := Nat.length_toDigits_le_iff (b := 10) (by decide) (k := 2) (by decide) (n := n)
    have hshort := Nat.length_toDigits_le_iff (b := 10) (by decide) (k := 1) (by decide) (n := n)
    have hpos := Nat.length_toDigits_pos (b := 10) (n := n)
    split <;> simp <;> omega
  · exact isDigit_of_mem_twoDigits

private theorem fits_year {n : Nat} (h : 1000 ≤ n) (h' : n ≤ 9999) :
    List.Forall₂ Fits (Nat.toDigits 10 n) (List.replicate 4 'd') := by
  apply fits_digits
  · have hle := Nat.length_toDigits_le_iff (b := 10) (by decide) (k := 4) (by decide) (n := n)
    have hlt := Nat.length_toDigits_le_iff (b := 10) (by decide) (k := 3) (by decide) (n := n)
    omega
  · exact fun c hc ↦ Text.isDigit_of_mem_toDigits hc

/-- A date of four digits and a time have the shape. -/
theorem isDateTimeText_stamp {c : Civil} {hour minute second : Nat} (hc : c.isValid = true)
    (hyear : 1000 ≤ c.year) (hhour : hour < 24) (hminute : minute < 60) (hsecond : second < 60) :
    IsDateTimeText (DateTime.stamp c hour minute second) := by
  have hlength : Civil.monthLength c.year c.month ≤ 31 := by
    unfold Civil.monthLength
    split_ifs <;> decide
  simp only [Civil.isValid, Bool.and_eq_true, decide_eq_true_eq] at hc
  have hmark {p : Char} (hp : p ≠ 'd') : Fits p p := by simp [Fits, hp]
  rw [IsDateTimeText, DateTime.toList_stamp]
  exact List.rel_append (fits_year hyear (by omega)) (.cons (hmark (by decide))
    (List.rel_append (fits_twoDigits (by omega)) (.cons (hmark (by decide))
      (List.rel_append (fits_twoDigits (by omega)) (.cons (hmark (by decide))
        (List.rel_append (fits_twoDigits (by omega)) (.cons (hmark (by decide))
          (List.rel_append (fits_twoDigits (by omega)) (.cons (hmark (by decide))
            (fits_twoDigits (by omega)))))))))))

/-- The text of a second from the year 1000 on has the shape. -/
theorem isDateTimeText_clockText {n : Nat} (h : Civil.yearsLength 999 * 86400 ≤ n)
    (h' : n < dayCount * 86400) : IsDateTimeText (DateTime.clockText n) := by
  have hyear : 1000 ≤ (Civil.ofDay (n / 86400)).year :=
    Civil.lt_year_ofDay ((Nat.le_div_iff_mul_le (by decide)).mpr h)
  have hvalid := Civil.isValid_ofDay ((Nat.div_lt_iff_lt_mul (by decide)).mpr h')
  exact isDateTimeText_stamp hvalid hyear (by omega) (by omega) (by omega)

/-- A date and a time are shorter than an identifier. -/
theorem IsDateTimeText.isUuidText_eq_false {s : String} (h : IsDateTimeText s) :
    isUuidText s = false := by
  have hlength : s.toList.length = 19 := List.Forall₂.length_eq h
  simp [isUuidText, hlength]

/-- A text that begins with something else than a digit has not the shape. -/
theorem not_isDateTimeText {s : String} {c : Char} (hs : s.toList.head? = some c)
    (hc : c.isDigit = false) : ¬ IsDateTimeText s := by
  intro h
  obtain ⟨cs, hcs⟩ := List.head?_eq_some_iff.mp hs
  rw [IsDateTimeText, hcs] at h
  cases h with
  | cons hfirst hrest =>
    rw [Fits, if_pos rfl, hc] at hfirst
    cases hfirst

/-! ### Texts of identifiers -/

/-- A text that begins with something else than a hexadecimal digit is no identifier. -/
theorem isUuidText_eq_false {s : String} {c : Char} (hs : s.toList.head? = some c)
    (hc : uuidShape 0 c = false) : isUuidText s = false := by
  obtain ⟨cs, hcs⟩ := List.head?_eq_some_iff.mp hs
  simp [isUuidText, hcs, hc]

/-- Whether characters may stand in an identifier, from a place on. -/
private def mayStand (first : Nat) (cs : List Char) : Bool :=
  (cs.zipIdx first).all fun p ↦ uuidShape p.2 p.1

private theorem mayStand_append (first : Nat) (cs ds : List Char) :
    mayStand first (cs ++ ds) = (mayStand first cs && mayStand (first + cs.length) ds) := by
  rw [mayStand, List.zipIdx_append, List.all_append]
  rfl

/-- Hexadecimal digits may stand where an identifier has no hyphen. -/
private theorem mayStand_digits {cs : List Char} {first : Nat}
    (h : ∀ c ∈ cs, uuidShape 0 c = true)
    (hplaces : ∀ i < cs.length, [8, 13, 18, 23].contains (first + i) = false) :
    mayStand first cs = true := by
  induction cs generalizing first with
  | nil => rfl
  | cons c cs ih =>
    obtain ⟨hc, hcs⟩ := List.forall_mem_cons.mp h
    have hplace := hplaces 0 (Nat.zero_lt_succ _)
    have hrest : mayStand (first + 1) cs = true := by
      apply ih hcs
      intro i hi
      rw [Nat.add_right_comm]
      exact hplaces (i + 1) (Nat.succ_lt_succ hi)
    have hfirst : uuidShape first c = true := by
      rw [Nat.add_zero] at hplace
      simp only [uuidShape, hplace]
      exact hc
    rw [mayStand, List.zipIdx_cons, List.all_cons, hfirst, Bool.true_and]
    exact hrest

private theorem mayStand_hyphen {first : Nat} (h : [8, 13, 18, 23].contains first = true)
    (cs : List Char) : mayStand first ('-' :: cs) = mayStand (first + 1) cs := by
  have hfirst : uuidShape first '-' = true := by
    simp only [uuidShape, h]
    rfl
  rw [mayStand, List.zipIdx_cons, List.all_cons, hfirst, Bool.true_and]
  rfl

/-- The canonical text of an identifier is one. -/
theorem isUuidText_toText (u : Uuid) : isUuidText u.toText = true := by
  have hlength : (Text.hex 32 u.bits.toNat).length = 32 :=
    Text.length_hex (by decide) u.bits.isLt
  have hdigit : ∀ c ∈ Text.hex 32 u.bits.toNat, uuidShape 0 c = true := by
    intro c hc
    obtain ⟨d, hd, rfl⟩ := Text.mem_hex hc
    have hall : ∀ d < 16, uuidShape 0 (Nat.digitChar d) = true := by decide
    exact hall d hd
  rw [isUuidText, Uuid.toText, String.toList_ofList]
  generalize Text.hex 32 u.bits.toNat = ds at *
  have hgroup (i n first : Nat) (hi : i + n ≤ 32)
      (hplaces : ∀ k < n, [8, 13, 18, 23].contains (first + k) = false) :
      ((ds.drop i).take n).length = n ∧ mayStand first ((ds.drop i).take n) = true := by
    have hn : ((ds.drop i).take n).length = n := by
      rw [List.length_take, List.length_drop]
      omega
    refine ⟨hn, mayStand_digits (fun c hc ↦ hdigit c ?_) (by rwa [hn])⟩
    exact List.mem_of_mem_drop (List.mem_of_mem_take hc)
  obtain ⟨hn₁, hd₁⟩ := hgroup 0 8 0 (by decide) (by decide)
  obtain ⟨hn₂, hd₂⟩ := hgroup 8 4 9 (by decide) (by decide)
  obtain ⟨hn₃, hd₃⟩ := hgroup 12 4 14 (by decide) (by decide)
  obtain ⟨hn₄, hd₄⟩ := hgroup 16 4 19 (by decide) (by decide)
  obtain ⟨hn₅, hd₅⟩ := hgroup 20 12 24 (by decide) (by decide)
  have hlast : ds.drop 20 = (ds.drop 20).take 12 := by
    rw [List.take_of_length_le]
    rw [List.length_drop]
    omega
  rw [List.drop_zero] at hn₁ hd₁
  rw [hlast]
  change (_ == 36 && mayStand 0 _) = true
  simp only [mayStand_append, List.length_append, List.length_cons, hn₁, hn₂, hn₃, hn₄, hn₅, hd₁]
  simp [mayStand_hyphen, hd₂, hd₃, hd₄, hd₅]

/-- The text of a mapping begins with a brace. -/
theorem head?_toJson_map {entries : List (Value × Value)} {s : String}
    (h : Value.toJson (.map entries) = .ok s) : s.toList.head? = some '\x7b' := by
  rw [Value.toJson] at h
  obtain ⟨texts, -, htext⟩ := Succeeding.bind_eq_ok.mp h
  obtain rfl := Except.ok.inj htext
  simp

end Columnar.Literal
