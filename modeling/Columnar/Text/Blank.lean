/-!
# Blanks, trimming and words

Blank characters are the white space of every script together with the four ASCII separators.
`trim` removes blanks at both ends, `words` cuts a text at every run of blanks. `trimSpace` removes
white space only.
-/

namespace Columnar.Text

/-- The codes of the blank characters. -/
def blankCodes : List Nat :=
  [0x9, 0xa, 0xb, 0xc, 0xd, 0x1c, 0x1d, 0x1e, 0x1f, 0x20, 0x85, 0xa0, 0x1680,
    0x2000, 0x2001, 0x2002, 0x2003, 0x2004, 0x2005, 0x2006, 0x2007, 0x2008, 0x2009, 0x200a,
    0x2028, 0x2029, 0x202f, 0x205f, 0x3000]

/-- Whether a character is blank. -/
def isBlank (c : Char) : Bool := blankCodes.contains c.toNat

/-- Every white-space character of ASCII is blank. -/
theorem isBlank_of_isWhitespace {c : Char} (h : c.isWhitespace = true) : isBlank c = true := by
  simp only [Char.isWhitespace, Bool.or_eq_true, decide_eq_true_eq] at h
  rcases h with ((h | h) | h) | h <;> subst h <;> decide

/-- The codes of the ASCII separators, which are blank and yet no white space. -/
def separatorCodes : List Nat := [0x1c, 0x1d, 0x1e, 0x1f]

/-- Whether a character is white space. -/
def isSpace (c : Char) : Bool := isBlank c && !separatorCodes.contains c.toNat

/-- The characters without those at both ends that have a property. -/
def strip (p : Char → Bool) (cs : List Char) : List Char :=
  ((cs.dropWhile p).reverse.dropWhile p).reverse

/-- The characters without the blanks at both ends. -/
def trimChars (cs : List Char) : List Char := strip isBlank cs

/-- The characters without the white space at both ends. -/
def trimSpace (cs : List Char) : List Char := strip isSpace cs

/-- The text without the blanks at both ends. -/
def trim (s : String) : String := String.ofList (trimChars s.toList)

/-- Words of the rest of a text, where `word` is the word being read, last character first. -/
def wordsFrom (word : List Char) : List Char → List (List Char)
  | [] => if word.isEmpty then [] else [word.reverse]
  | c :: rest =>
    if isBlank c then
      if word.isEmpty then wordsFrom [] rest else word.reverse :: wordsFrom [] rest
    else wordsFrom (c :: word) rest

/-- The longest pieces of the text that hold no blank, in order. -/
def words (s : String) : List String := (wordsFrom [] s.toList).map String.ofList

/-- No word holds a blank and none is empty. -/
theorem not_isBlank_of_mem_wordsFrom {word cs w : List Char} (hw : ∀ c ∈ word, isBlank c = false)
    (h : w ∈ wordsFrom word cs) : w ≠ [] ∧ ∀ c ∈ w, isBlank c = false := by
  induction cs generalizing word with
  | nil =>
    cases word with
    | nil => simp [wordsFrom] at h
    | cons a as =>
      simp only [wordsFrom, List.isEmpty_cons, Bool.false_eq_true, ↓reduceIte,
        List.mem_singleton] at h
      subst h
      exact ⟨by simp, fun c hc ↦ hw c (List.mem_reverse.1 hc)⟩
  | cons a rest ih =>
    simp only [wordsFrom] at h
    split at h
    · split at h
      · exact ih (by simp) h
      · rename_i hne
        rcases List.mem_cons.1 h with rfl | h
        · exact ⟨by simpa using hne, fun c hc ↦ hw c (List.mem_reverse.1 hc)⟩
        · exact ih (by simp) h
    · rename_i ha
      refine ih (fun c hc ↦ ?_) h
      rcases List.mem_cons.1 hc with rfl | hc
      · simpa using ha
      · exact hw c hc

end Columnar.Text
