import Columnar.Statement.Setting

/-!
# Reading text settings

A text that is the value of a setting can be read back: a backslash makes the next character stand
for itself, and the first quote without one ends the text. The reader finds the text that was
written and stops right behind it, whatever follows (`Setting.readLiteral_format`).
-/

namespace Columnar.Setting

/-- What stands before the first quote without a backslash in front of it, backslashes taken away,
and what follows that quote. -/
def readBody : List Char → Option (List Char × List Char)
  | [] | ['\\'] => none
  | '\\' :: c :: rest => (readBody rest).map fun r ↦ (c :: r.1, r.2)
  | c :: rest =>
    if c = '\'' then some ([], rest) else (readBody rest).map fun r ↦ (c :: r.1, r.2)

/-- The text in quotes that begins the characters, and what follows it. -/
def readLiteral : List Char → Option (List Char × List Char)
  | '\'' :: rest => readBody rest
  | _ => none

/-- The characters with a text in place of each that equals the given one. -/
def replace (old : Char) (new : List Char) (cs : List Char) : List Char :=
  cs.flatMap fun c ↦ if c = old then new else [c]

/-- Escaping takes two replacements, that of the backslashes first: it would double the backslashes
that the other one puts in. -/
theorem escape_eq (cs : List Char) :
    escape cs = replace '\'' ['\\', '\''] (replace '\\' ['\\', '\\'] cs) := by
  unfold escape replace
  rw [List.flatMap_assoc]
  congr 1
  funext c
  by_cases hbackslash : c = '\\'
  · subst hbackslash
    rfl
  · by_cases hquote : c = '\'' <;> simp [hbackslash, hquote]

theorem toList_format_text (s : String) :
    (format (.text s)).toList = '\'' :: (escape s.toList ++ ['\'']) := by
  rw [format, String.toList_ofList, List.cons_append]

/-- The reader finds the escaped characters and stops behind the quote after them. -/
theorem readBody_escape (cs rest : List Char) :
    readBody (escape cs ++ '\'' :: rest) = some (cs, rest) := by
  induction cs with
  | nil => simp [escape, readBody]
  | cons c cs ih =>
    have hescape : escape (c :: cs) =
        (if c == '\\' || c == '\'' then ['\\', c] else [c]) ++ escape cs := List.flatMap_cons
    rw [hescape]
    split
    · -- The character behind the backslash is taken as it is, be it a quote or a backslash.
      rw [List.append_assoc, List.cons_append, List.singleton_append, readBody, ih]
      rfl
    · next h =>
      simp only [Bool.or_eq_true, beq_iff_eq, not_or] at h
      obtain ⟨hbackslash, hquote⟩ := h
      rw [List.append_assoc, List.singleton_append, readBody, if_neg hquote, ih]
      · rfl
      · exact fun hc _ ↦ hbackslash hc
      · exact fun _ _ hc _ ↦ hbackslash hc

/-- A text setting is written by doubling its backslashes, then putting one in front of each quote,
and quotes around the whole. Read with a backslash making the next character stand for itself, it
is the text that was given, and ends with its last character, whatever follows it; so different
texts are written differently. -/
theorem readLiteral_format (s : String) :
    (format (.text s)).toList = '\'' ::
      (replace '\'' ['\\', '\''] (replace '\\' ['\\', '\\'] s.toList) ++ ['\'']) ∧
    (∀ rest, readLiteral ((format (.text s)).toList ++ rest) = some (s.toList, rest)) ∧
    ∀ s', format (.text s) = format (.text s') → s = s' := by
  have hread (s : String) (rest : List Char) :
      readLiteral ((format (.text s)).toList ++ rest) = some (s.toList, rest) := by
    rw [toList_format_text, List.cons_append, List.append_assoc, List.singleton_append, readLiteral,
      readBody_escape]
  refine ⟨?_, hread s, fun s' h ↦ ?_⟩
  · rw [toList_format_text, escape_eq]
  · have hsame := hread s []
    rw [h, hread s' [], Option.some.injEq, Prod.mk.injEq] at hsame
    exact (String.toList_inj.mp hsame.1).symm

/-- A text that ends in a backslash behind a quote does not run into what follows. -/
example : readLiteral "'it\\'s \\\\', max_threads = 2".toList =
    some ("it's \\".toList, ", max_threads = 2".toList) := by decide

end Columnar.Setting
