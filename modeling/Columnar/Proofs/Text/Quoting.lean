import Columnar.Proofs.Number.Digits

/-!
# Reading quoted text

Between its quotes a text can be read character by character: a backslash begins a code, and the
quote that ends the text is never written without one inside. So a quoted text ends where it ends,
whatever follows (`Text.quote_append_inj`).
-/

namespace Columnar.Text

/-- The character whose code stands in so many hexadecimal digits, and what follows them. -/
def readCode (width : Nat) (cs : List Char) : Option (Char × List Char) :=
  (Integer.naturalAfter? 16 0 (cs.take width)).map fun n ↦ (Char.ofNat n, cs.drop width)

/-- The character that is written after a backslash, and what follows. -/
def readEscape (c : Char) (rest : List Char) : Option (Char × List Char) :=
  if c = 'n' then some ('\n', rest)
  else if c = 'r' then some ('\r', rest)
  else if c = 't' then some ('\t', rest)
  else if c = 'x' then readCode 2 rest
  else if c = 'u' then readCode 4 rest
  else if c = 'U' then readCode 8 rest
  else some (c, rest)

/-- The first character of what stands between quotes, and what follows. -/
def readQuoted : List Char → Option (Char × List Char)
  | [] => none
  | ['\\'] => none
  | '\\' :: c :: rest => readEscape c rest
  | c :: rest => some (c, rest)

private theorem readCode_hex {width : Nat} (hwidth : 0 < width) {c : Char}
    (h : c.toNat < 16 ^ width) (rest : List Char) :
    readCode width (hex width c.toNat ++ rest) = some (c, rest) := by
  have htake : (hex width c.toNat ++ rest).take width = hex width c.toNat :=
    List.take_left' (length_hex hwidth h)
  have hdrop : (hex width c.toNat ++ rest).drop width = rest :=
    List.drop_left' (length_hex hwidth h)
  rw [readCode, htake, hdrop, naturalAfter?_hex, Option.map_some, Char.ofNat_toNat]

variable {mark : Char}

/-- What is written for a character begins with a backslash, or is that character alone. -/
theorem escape_cases (hmark : mark = '\'' ∨ mark = '"') (c : Char) :
    (∃ d ds, escape mark c = '\\' :: d :: ds ∧ ∀ rest, readEscape d (ds ++ rest) = some (c, rest)) ∨
      escape mark c = [c] ∧ c ≠ mark ∧ c ≠ '\\' := by
  have hsize : c.toNat < 16 ^ 8 := by
    have hvalid : c.toNat < 0x110000 := by
      rcases c.valid with h | h
      · exact Nat.lt_trans h (by decide)
      · exact h.2
    exact Nat.lt_trans hvalid (by decide)
  unfold escape
  split
  · next h =>
    refine .inl ⟨c, [], rfl, fun rest ↦ ?_⟩
    rw [Bool.or_eq_true, beq_iff_eq, beq_iff_eq] at h
    rcases h with rfl | rfl
    · rcases hmark with rfl | rfl <;> rfl
    · rfl
  · next h =>
    split
    · next h => exact .inl ⟨'n', [], rfl, fun rest ↦ by rw [eq_of_beq h]; rfl⟩
    split
    · next h => exact .inl ⟨'r', [], rfl, fun rest ↦ by rw [eq_of_beq h]; rfl⟩
    split
    · next h => exact .inl ⟨'t', [], rfl, fun rest ↦ by rw [eq_of_beq h]; rfl⟩
    split
    · exact .inr ⟨rfl, by simpa using h⟩
    split
    · next h => exact .inl ⟨'x', _, rfl, fun rest ↦ readCode_hex (by decide) h rest⟩
    split
    · next h => exact .inl ⟨'u', _, rfl, fun rest ↦ readCode_hex (by decide) h rest⟩
    · exact .inl ⟨'U', _, rfl, fun rest ↦ readCode_hex (by decide) hsize rest⟩

/-- What is written for a character reads as that character. -/
theorem readQuoted_escape (hmark : mark = '\'' ∨ mark = '"') (c : Char) (rest : List Char) :
    readQuoted (escape mark c ++ rest) = some (c, rest) := by
  rcases escape_cases hmark c with ⟨d, ds, he, hread⟩ | ⟨he, -, hc⟩
  · rw [he]
    exact hread rest
  · rw [he, List.singleton_append]
    rw [readQuoted]
    · exact fun h _ ↦ hc h
    · exact fun _ _ h _ ↦ hc h

/-- What is written for a character does not begin with the quote. -/
theorem head_escape (hmark : mark = '\'' ∨ mark = '"') (c : Char) :
    ∃ d ds, escape mark c = d :: ds ∧ d ≠ mark := by
  rcases escape_cases hmark c with ⟨d, ds, he, -⟩ | ⟨he, hc, -⟩
  · refine ⟨_, _, he, ?_⟩
    rcases hmark with rfl | rfl <;> decide
  · exact ⟨_, _, he, hc⟩

/-- Between quotes of one kind, a text ends at the first one that does not belong to it. -/
theorem escape_append_inj (hmark : mark = '\'' ∨ mark = '"') {cs cs' r r' : List Char}
    (h : cs.flatMap (escape mark) ++ mark :: r = cs'.flatMap (escape mark) ++ mark :: r') :
    cs = cs' ∧ r = r' := by
  induction cs generalizing cs' with
  | nil =>
    cases cs' with
    | nil => exact ⟨rfl, (List.cons.inj h).2⟩
    | cons c' cs' =>
      obtain ⟨d, ds, hd, hne⟩ := head_escape hmark c'
      rw [List.flatMap_cons, hd] at h
      exact absurd (List.cons.inj h).1.symm hne
  | cons c cs ih =>
    cases cs' with
    | nil =>
      obtain ⟨d, ds, hd, hne⟩ := head_escape hmark c
      rw [List.flatMap_cons, hd] at h
      exact absurd (List.cons.inj h).1 hne
    | cons c' cs' =>
      rw [List.flatMap_cons, List.flatMap_cons, List.append_assoc, List.append_assoc] at h
      have hread := congrArg readQuoted h
      rw [readQuoted_escape hmark, readQuoted_escape hmark] at hread
      obtain ⟨rfl, hrest⟩ := Prod.mk.inj (Option.some.inj hread)
      obtain ⟨rfl, rfl⟩ := ih hrest
      exact ⟨rfl, rfl⟩

theorem quoteMark_eq (cs : List Char) : quoteMark cs = '\'' ∨ quoteMark cs = '"' := by
  unfold quoteMark
  split
  · exact .inr rfl
  · exact .inl rfl

/-- A quoted text can be told from what follows it. -/
theorem quote_append_inj {s s' : String} {r r' : List Char}
    (h : (quote s).toList ++ r = (quote s').toList ++ r') : s = s' ∧ r = r' := by
  rw [quote, quote, String.toList_ofList, String.toList_ofList] at h
  simp only [List.cons_append, List.append_assoc, List.nil_append] at h
  obtain ⟨hmark, hbody⟩ := List.cons.inj h
  rw [← hmark] at hbody
  obtain ⟨hcs, hr⟩ := escape_append_inj (quoteMark_eq _) hbody
  exact ⟨String.toList_inj.mp hcs, hr⟩

end Columnar.Text
