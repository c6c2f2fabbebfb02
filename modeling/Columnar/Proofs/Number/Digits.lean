import Columnar.Number.Integer
import Columnar.Proofs.Keys.Splitting
import Columnar.Value.Text
import Mathlib.Algebra.Ring.Nat
import Mathlib.Data.Bool.AllAny
import Mathlib.Tactic.Set

/-!
# Written natural numbers

What is written in decimal digits is read back by `Text.natural?`, and what is written in
hexadecimal ones by `Integer.natural?`, whatever zeros stand in front; so the digits tell numbers
apart. What reading a number leaves out of a text or rewrites is none of its plain characters.
-/

namespace Columnar

namespace Text

/-! ### Decimal digits -/

theorem digitValue?_eq (c : Char) :
    digitValue? c = if c.isDigit then some (c.toNat - '0'.toNat) else none := rfl

@[simp] theorem isSome_digitValue? (c : Char) : (digitValue? c).isSome = c.isDigit := by
  rw [digitValue?_eq]
  cases c.isDigit <;> rfl

theorem toLower_of_isDigit {c : Char} (h : c.isDigit) : c.toLower = c := by
  rw [Char.isDigit_iff_toNat] at h
  refine dif_neg fun hupper ↦ ?_
  have hle : 65 ≤ c.toNat := hupper.1
  have hnine : c.toNat ≤ 57 := h.2
  omega

/-- Digits are read one after another. -/
theorem natural?_eq {cs : List Char} (start : Nat) (h : ∀ c ∈ cs, c.isDigit) :
    natural? start cs = some (Nat.ofDigitChars 10 cs start) := by
  induction cs generalizing start with
  | nil => rfl
  | cons c cs ih =>
    rw [natural?, digitValue?_eq, if_pos (h c List.mem_cons_self), Nat.ofDigitChars_cons]
    exact ih _ fun d hd ↦ h d (List.mem_cons_of_mem c hd)

theorem isDigit_of_mem_toDigits {n : Nat} {c : Char} (h : c ∈ Nat.toDigits 10 n) : c.isDigit :=
  Nat.isDigit_of_mem_toDigits (by decide) (by decide) h

/-- The written form of a number is read back. -/
theorem natural?_toDigits (n : Nat) : natural? 0 (Nat.toDigits 10 n) = some n := by
  rw [natural?_eq 0 fun _ ↦ isDigit_of_mem_toDigits, Nat.ofDigitChars_ten_toDigits]

theorem toDigits_injective {m n : Nat} (h : Nat.toDigits 10 m = Nat.toDigits 10 n) : m = n :=
  Option.some.inj ((natural?_toDigits m).symm.trans (h ▸ natural?_toDigits n))

/-- Zeros behind the digits multiply by powers of ten. -/
theorem toDigits_mul_pow {n : Nat} (hn : 0 < n) (k : Nat) :
    Nat.toDigits 10 (n * 10 ^ k) = Nat.toDigits 10 n ++ List.replicate k '0' := by
  induction k with
  | zero => simp
  | succ k ih =>
    have hpos : 0 < n * 10 ^ k := Nat.mul_pos hn (Nat.pow_pos (by decide))
    rw [List.replicate_succ', ← List.append_assoc, ← ih, Nat.pow_succ, ← Nat.mul_assoc,
      Nat.mul_comm _ 10]
    exact (Nat.toDigits_append_toDigits (by decide) hpos (by decide : 0 < 10)).symm

/-- A number and how many digits it has. -/
theorem toDigits_bounds {n : Nat} (hn : 0 < n) :
    10 ^ ((Nat.toDigits 10 n).length - 1) ≤ n ∧ n < 10 ^ (Nat.toDigits 10 n).length := by
  have hlength : 0 < (Nat.toDigits 10 n).length := Nat.length_toDigits_pos
  refine ⟨?_, (Nat.length_toDigits_le_iff (by decide) hlength).mp (Nat.le_refl _)⟩
  rcases Nat.eq_or_lt_of_le (Nat.succ_le_of_lt hlength) with hone | hmore
  · rw [← hone]
    exact hn
  · refine Nat.le_of_not_lt fun hlt ↦ ?_
    have hle := (Nat.length_toDigits_le_iff (by decide) (Nat.sub_pos_of_lt hmore)).mpr hlt
    omega

/-! ### Runs of digits -/

/-- Digits end where another character follows. -/
theorem toDigits_append_inj {m n : Nat} {r r' : List Char} (hr : ∀ c ∈ r.head?, c.isDigit = false)
    (hr' : ∀ c ∈ r'.head?, c.isDigit = false)
    (h : Nat.toDigits 10 m ++ r = Nat.toDigits 10 n ++ r') : m = n ∧ r = r' := by
  obtain ⟨hdigits, hrest⟩ := Splitting.eq_of_run (fun _ ↦ isDigit_of_mem_toDigits)
    (fun _ ↦ isDigit_of_mem_toDigits) hr hr' h
  exact ⟨toDigits_injective hdigits, hrest⟩

/-- What an integer is written with. -/
def isIntegral (c : Char) : Bool := c.isDigit || c == '-'

theorem toList_ofInt (n : Int) :
    (ofInt n).toList = (if n < 0 then ['-'] else []) ++ Nat.toDigits 10 n.natAbs := by
  unfold ofInt ofNat
  split <;> simp

theorem isIntegral_of_mem_ofInt {n : Int} : ∀ c ∈ (ofInt n).toList, isIntegral c = true := by
  rw [toList_ofInt, List.forall_mem_append]
  refine ⟨by split <;> exact List.all_iff_forall_prop.mp (by decide), fun c hc ↦ ?_⟩
  rw [isIntegral, isDigit_of_mem_toDigits hc, Bool.true_or]

theorem ofInt_injective {m n : Int} (h : ofInt m = ofInt n) : m = n := by
  have hchars := congrArg String.toList h
  rw [toList_ofInt, toList_ofInt] at hchars
  have hminus {k : Nat} {cs : List Char} (h : '-' :: cs = Nat.toDigits 10 k) : False := by
    cases isDigit_of_mem_toDigits (h ▸ List.mem_cons_self)
  have habs : m.natAbs = n.natAbs ∧ (m < 0 ↔ n < 0) := by
    by_cases hm : m < 0 <;> by_cases hn : n < 0 <;> simp only [hm, hn, if_true, if_false,
      List.nil_append, List.singleton_append] at hchars
    · exact ⟨toDigits_injective (List.cons.inj hchars).2, by simp [hm, hn]⟩
    · exact (hminus hchars).elim
    · exact (hminus hchars.symm).elim
    · exact ⟨toDigits_injective hchars, by simp [hm, hn]⟩
  omega

/-- An integer ends where something else than a digit follows. -/
theorem ofInt_append_inj {m n : Int} {r r' : List Char}
    (hr : ∀ c ∈ r.head?, isIntegral c = false) (hr' : ∀ c ∈ r'.head?, isIntegral c = false)
    (h : (ofInt m).toList ++ r = (ofInt n).toList ++ r') : m = n ∧ r = r' := by
  obtain ⟨hchars, hrest⟩ := Splitting.eq_of_run isIntegral_of_mem_ofInt isIntegral_of_mem_ofInt
    hr hr' h
  exact ⟨ofInt_injective (String.toList_inj.mp hchars), hrest⟩

/-! ### Plain characters -/

/-- A character that the reading of a number leaves as it is. -/
def IsPlain (c : Char) : Prop := 0x21 ≤ c.toNat ∧ c.toNat < 0x7f ∧ c ≠ '_'

instance (c : Char) : Decidable (IsPlain c) := inferInstanceAs (Decidable (_ ∧ _ ∧ _))

theorem isPlain_of_isDigit {c : Char} (h : c.isDigit) : IsPlain c := by
  obtain ⟨hlow, hhigh⟩ := Char.isDigit_iff_toNat.mp h
  have hzero : 48 ≤ c.toNat := hlow
  have hnine : c.toNat ≤ 57 := hhigh
  refine ⟨by omega, by omega, ?_⟩
  rintro rfl
  cases h

theorem IsPlain.not_isBlank {c : Char} (h : IsPlain c) : isBlank c = false := by
  have hall : ∀ n < 0x7f, 0x21 ≤ n → blankCodes.contains n = false := by decide
  exact hall c.toNat h.2.1 h.1

theorem IsPlain.asciiDigit_eq {c : Char} (h : IsPlain c) : asciiDigit c = c := by
  have hall : ∀ n < 0x7f, asciiDigit (Char.ofNat n) = Char.ofNat n := by decide +kernel
  have hc := hall c.toNat h.2.1
  rwa [Char.ofNat_toNat] at hc

/-- Nothing is stripped where no character has the property. -/
theorem strip_eq {p : Char → Bool} {cs : List Char} (h : ∀ c ∈ cs, p c = false) :
    strip p cs = cs := by
  have hdrop {cs : List Char} (h : ∀ c ∈ cs, p c = false) : cs.dropWhile p = cs := by
    cases cs with
    | nil => rfl
    | cons c cs => rw [List.dropWhile_cons_of_neg (by rw [h c List.mem_cons_self]; decide)]
  rw [strip, hdrop h, hdrop fun c hc ↦ h c (List.mem_reverse.mp hc), List.reverse_reverse]

/-! ### Hexadecimal digits -/

theorem digit?_digitChar {d : Nat} (h : d < 16) : Integer.digit? 16 (Nat.digitChar d) = some d := by
  have hall : ∀ d < 16, Integer.digit? 16 (Nat.digitChar d) = some d := by decide +kernel
  exact hall d h

private theorem naturalAfter?_cons {d : Nat} (h : d < 16) (value : Nat) (cs : List Char) :
    Integer.naturalAfter? 16 value (Nat.digitChar d :: cs) =
      Integer.naturalAfter? 16 (16 * value + d) cs := by
  have hplain : Nat.digitChar d ≠ '_' := by
    have hall : ∀ d < 16, Nat.digitChar d ≠ '_' := by decide
    exact hall d h
  rw [Integer.naturalAfter?, digit?_digitChar h, Option.bind_some]
  exact fun _ _ he _ ↦ hplain he

/-- Digits that follow others are read behind them. -/
private theorem naturalAfter?_toDigits_append (n : Nat) (cs : List Char) :
    Integer.naturalAfter? 16 0 (Nat.toDigits 16 n ++ cs) = Integer.naturalAfter? 16 n cs := by
  induction n using Nat.strongRecOn generalizing cs with
  | ind n ih =>
    rw [Nat.toDigits_eq_if (by decide)]
    split
    · next h => rw [List.singleton_append, naturalAfter?_cons h, Nat.mul_zero, Nat.zero_add]
    · next h =>
      rw [List.append_assoc, ih (n / 16) (by omega), List.singleton_append,
        naturalAfter?_cons (Nat.mod_lt n (by decide)), Nat.div_add_mod]

private theorem naturalAfter?_replicate (k : Nat) (cs : List Char) :
    Integer.naturalAfter? 16 0 (List.replicate k '0' ++ cs) = Integer.naturalAfter? 16 0 cs := by
  induction k with
  | zero => rfl
  | succ k ih =>
    rw [List.replicate_succ, List.cons_append]
    exact (naturalAfter?_cons (by decide : 0 < 16) 0 _).trans ih

/-- The written form of a code is read back. -/
theorem naturalAfter?_hex (width n : Nat) : Integer.naturalAfter? 16 0 (hex width n) = some n := by
  have hread := naturalAfter?_toDigits_append n []
  rw [List.append_nil] at hread
  rw [hex, naturalAfter?_replicate, hread, Integer.naturalAfter?]

theorem hex_injective {width m n : Nat} (h : hex width m = hex width n) : m = n :=
  Option.some.inj ((naturalAfter?_hex width m).symm.trans (h ▸ naturalAfter?_hex width n))

/-- A code that fits has as many digits as it is padded to. -/
theorem length_hex {width n : Nat} (hwidth : 0 < width) (h : n < 16 ^ width) :
    (hex width n).length = width := by
  have hle := (Nat.length_toDigits_le_iff (by decide) hwidth).mpr h
  rw [hex, List.length_append, List.length_replicate]
  omega

theorem mem_toDigits {n : Nat} {c : Char} (h : c ∈ Nat.toDigits 16 n) :
    ∃ d < 16, c = Nat.digitChar d := by
  induction n using Nat.strongRecOn with
  | ind n ih =>
    rw [Nat.toDigits_eq_if (by decide)] at h
    split at h
    · next hn => exact ⟨n, hn, List.mem_singleton.mp h⟩
    · rcases List.mem_append.mp h with h | h
      · exact ih (n / 16) (by omega) h
      · exact ⟨n % 16, Nat.mod_lt n (by decide), List.mem_singleton.mp h⟩

theorem mem_hex {width n : Nat} {c : Char} (h : c ∈ hex width n) :
    ∃ d < 16, c = Nat.digitChar d := by
  rcases List.mem_append.mp h with h | h
  · exact ⟨0, by decide, List.eq_of_mem_replicate h⟩
  · exact mem_toDigits h

end Text

namespace Uuid

/-- The digits of an identifier stand between its hyphens. -/
theorem filter_toText (u : Uuid) :
    u.toText.toList.filter (· != '-') = Text.hex 32 u.bits.toNat := by
  set d := Text.hex 32 u.bits.toNat with hd
  have hplain {cs : List Char} (h : ∀ c ∈ cs, c ∈ d) : cs.filter (· != '-') = cs := by
    refine List.filter_eq_self.mpr fun c hc ↦ ?_
    obtain ⟨k, hk, rfl⟩ := Text.mem_hex (h c hc)
    have hall : ∀ k < 16, (Nat.digitChar k != '-') = true := by decide
    exact hall k hk
  have htake (i n : Nat) : ((d.drop i).take n).filter (· != '-') = (d.drop i).take n :=
    hplain fun _ hc ↦ List.mem_of_mem_drop (List.mem_of_mem_take hc)
  have hsplit (i n : Nat) : (d.drop i).take n ++ d.drop (i + n) = d.drop i := by
    rw [← List.drop_drop, List.take_append_drop]
  have hhyphen (cs : List Char) : ('-' :: cs).filter (· != '-') = cs.filter (· != '-') := rfl
  have hlast : (d.drop 20).filter (· != '-') = d.drop 20 :=
    hplain fun _ hc ↦ List.mem_of_mem_drop hc
  rw [toText, String.toList_ofList]
  simp only [List.filter_append, hhyphen, htake, hlast, ← hd, List.append_assoc, List.cons_append]
  rw [hplain fun _ hc ↦ List.mem_of_mem_take hc, hsplit 16 4, hsplit 12 4, hsplit 8 4,
    List.take_append_drop]

theorem toText_injective {u u' : Uuid} (h : u.toText = u'.toText) : u = u' := by
  have hhex : Text.hex 32 u.bits.toNat = Text.hex 32 u'.bits.toNat := by
    rw [← filter_toText, ← filter_toText, h]
  have hbits : u.bits = u'.bits := BitVec.eq_of_toNat_eq (Text.hex_injective hhex)
  exact congrArg Uuid.mk hbits

end Uuid

end Columnar
