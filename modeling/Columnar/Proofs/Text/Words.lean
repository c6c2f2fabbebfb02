import Mathlib.Data.List.DropRight
import Columnar.Text.Keyword

/-!
# The last word of a text

Words split at every blank (`Text.wordsFrom_append`), so a text that has a word is what stands in
front of its last word, that word, and blanks (`Text.exists_ending`). A text ends in a keyword
behind a space exactly when the keyword is its last word, in any letter case, when it is not the
only one, and when that space stands directly in front of it (`Text.endsInKeyword_iff`).
-/

namespace Columnar.Text

/-- The blank directly in front of the last word, if anything stands there. -/
def gapBeforeLast (s : String) : Option Char :=
  ((s.toList.rdropWhile isBlank).rdropWhile fun c ↦ !isBlank c).getLast?

/-! ### Words -/

/-- Words split at a blank. -/
theorem wordsFrom_append (word cs : List Char) {b : Char} (hb : isBlank b = true)
    (rest : List Char) :
    wordsFrom word (cs ++ b :: rest) = wordsFrom word cs ++ wordsFrom [] rest := by
  induction cs generalizing word with
  | nil =>
    simp only [List.nil_append, wordsFrom, hb, if_true]
    split <;> rfl
  | cons c cs ih =>
    simp only [List.cons_append, wordsFrom, ih]
    split
    · split <;> rfl
    · rfl

/-- Blanks hold no word. -/
theorem wordsFrom_blank {cs : List Char} (h : ∀ c ∈ cs, isBlank c = true) :
    wordsFrom [] cs = [] := by
  induction cs with
  | nil => rfl
  | cons c cs ih =>
    obtain ⟨hc, hcs⟩ := List.forall_mem_cons.mp h
    simp [wordsFrom, hc, ih hcs]

/-- Characters that are not blank are one word. -/
theorem wordsFrom_word (word : List Char) {cs : List Char} (hcs : cs ≠ [])
    (h : ∀ c ∈ cs, isBlank c = false) : wordsFrom word cs = [word.reverse ++ cs] := by
  induction cs generalizing word with
  | nil => exact absurd rfl hcs
  | cons c cs ih =>
    obtain ⟨hc, hcs⟩ := List.forall_mem_cons.mp h
    rw [wordsFrom, hc, if_neg Bool.false_ne_true]
    cases cs with
    | nil => simp [wordsFrom]
    | cons d ds => simp [ih (c :: word) (List.cons_ne_nil _ _) hcs]

/-! ### The last word -/

/-- The characters are what stands in front of their last word, which ends in a blank unless it is
empty, that word, and blanks behind it. -/
structure Ending (cs front word tail : List Char) : Prop where
  eq : cs = front ++ word ++ tail
  nonempty : word ≠ []
  word : ∀ c ∈ word, isBlank c = false
  tail : ∀ c ∈ tail, isBlank c = true
  front : ∀ c ∈ front.getLast?, isBlank c = true

/-- Characters dropped at the end are those behind the last one that is kept. -/
private theorem rdropWhile_append {p : Char → Bool} {as bs : List Char}
    (has : ∀ a ∈ as.getLast?, p a = false) (hbs : ∀ b ∈ bs, p b = true) :
    (as ++ bs).rdropWhile p = as := by
  have hself : as.rdropWhile p = as := by
    refine List.rdropWhile_eq_self_iff.mpr fun hne ↦ ?_
    simp [has _ (List.getLast?_eq_some_getLast hne)]
  rw [List.rdropWhile, List.reverse_append,
    List.dropWhile_append_of_pos fun b hb ↦ hbs b (List.mem_reverse.mp hb)]
  exact hself

/-- What is not blank has a last word. -/
theorem exists_ending {cs : List Char} (h : ∃ c ∈ cs, isBlank c = false) :
    ∃ front word tail, Ending cs front word tail := by
  let back := cs.rdropWhile isBlank
  let word := back.rtakeWhile fun c ↦ !isBlank c
  have hback : back ≠ [] := by
    obtain ⟨c, hc, hblank⟩ := h
    intro hnil
    rw [List.rdropWhile_eq_nil_iff.mp hnil c hc] at hblank
    cases hblank
  refine ⟨back.rdropWhile fun c ↦ !isBlank c, word, cs.rtakeWhile isBlank, ?_, ?_, ?_, ?_, ?_⟩
  · rw [List.rdropWhile_append_rtakeWhile, List.rdropWhile_append_rtakeWhile]
  · intro hnil
    exact List.rtakeWhile_eq_nil_iff.mp hnil hback
      (by simpa using List.rdropWhile_last_not isBlank cs hback)
  · intro c hc
    simpa using List.mem_rtakeWhile_imp hc
  · exact fun c hc ↦ List.mem_rtakeWhile_imp hc
  · intro c hc
    obtain ⟨hne, rfl⟩ := List.mem_getLast?_eq_getLast hc
    simpa using List.rdropWhile_last_not _ back hne

namespace Ending

variable {cs front word tail : List Char} (h : Ending cs front word tail)

include h

theorem wordsFrom_eq : wordsFrom [] cs = wordsFrom [] front ++ [word] := by
  have hword : wordsFrom [] (word ++ tail) = [word] := by
    cases tail with
    | nil => simp [wordsFrom_word [] h.nonempty h.word]
    | cons b tail =>
      obtain ⟨hb, htail⟩ := List.forall_mem_cons.mp h.tail
      rw [wordsFrom_append _ _ hb, wordsFrom_word [] h.nonempty h.word, wordsFrom_blank htail]
      rfl
  rw [h.eq, List.append_assoc]
  rcases List.eq_nil_or_concat front with rfl | ⟨before, b, rfl⟩
  · exact hword
  · have hb : isBlank b = true := h.front b (by simp)
    rw [List.concat_eq_append, List.append_assoc, List.singleton_append, wordsFrom_append _ _ hb,
      wordsFrom_append _ _ hb, hword]
    simp [wordsFrom]

/-- Only the blanks behind the word are dropped at the end. -/
private theorem rdropWhile_eq (front : List Char) :
    (front ++ word ++ tail).rdropWhile isBlank = front ++ word := by
  refine rdropWhile_append (fun c hc ↦ h.word c ?_) h.tail
  rw [List.getLast?_append_of_ne_nil _ h.nonempty] at hc
  exact List.mem_of_mem_getLast? hc

theorem gap_eq : (cs.rdropWhile isBlank).rdropWhile (fun c ↦ !isBlank c) = front := by
  rw [h.eq, h.rdropWhile_eq]
  exact rdropWhile_append (fun c hc ↦ by simp [h.front c hc]) (fun c hc ↦ by simp [h.word c hc])

theorem trimChars_eq : trimChars cs = front.dropWhile isBlank ++ word := by
  have hfront : (front ++ (word ++ tail)).dropWhile isBlank =
      front.dropWhile isBlank ++ (word ++ tail) := by
    obtain ⟨c, rest, hword⟩ := List.exists_cons_of_ne_nil h.nonempty
    have hc : isBlank c = false := h.word c (hword ▸ List.mem_cons_self)
    rw [List.dropWhile_append, hword, List.cons_append, List.dropWhile_cons_of_neg (by simp [hc])]
    split
    · next hempty => rw [List.isEmpty_iff.mp hempty, List.nil_append]
    · rfl
  calc trimChars cs
    _ = (cs.dropWhile isBlank).rdropWhile isBlank := rfl
    _ = (front.dropWhile isBlank ++ word ++ tail).rdropWhile isBlank := by
      rw [h.eq, List.append_assoc, hfront, List.append_assoc]
    _ = front.dropWhile isBlank ++ word := h.rdropWhile_eq _

end Ending

/-- A word behind a text and a space is its last word. -/
theorem words_append_word (s : String) {word : String} (hword : word ≠ "")
    (hblank : ∀ c ∈ word.toList, isBlank c = false) :
    words (s ++ " " ++ word) = words s ++ [word] ∧ gapBeforeLast (s ++ " " ++ word) = some ' ' := by
  have h : Ending (s ++ " " ++ word).toList (s.toList ++ [' ']) word.toList [] :=
    ⟨by simp, by simpa using hword, hblank, by simp, by simp; decide⟩
  have hfront : wordsFrom [] (s.toList ++ [' ']) = wordsFrom [] s.toList := by
    rw [wordsFrom_append [] _ (by decide)]
    exact List.append_nil _
  constructor
  · rw [words, h.wordsFrom_eq, hfront, List.map_append, List.map_singleton, String.ofList_toList]
    rfl
  · rw [gapBeforeLast, h.gap_eq, List.getLast?_concat]

/-- A text without words is blank. -/
theorem wordsFrom_eq_nil_iff {cs : List Char} :
    wordsFrom [] cs = [] ↔ ∀ c ∈ cs, isBlank c = true := by
  refine ⟨fun hnil ↦ ?_, wordsFrom_blank⟩
  by_contra hsome
  obtain ⟨front, word, tail, h⟩ := exists_ending (by simpa using hsome)
  rw [h.wordsFrom_eq] at hnil
  simp at hnil

/-! ### Keywords at the end -/

/-- A blank is its own capital. -/
theorem capital_of_isBlank {c : Char} (hc : isBlank c = true) : capital c = [c] := by
  have h : ∀ n ∈ blankCodes, capital (Char.ofNat n) = [Char.ofNat n] := by decide
  simpa using h c.toNat (by simpa [isBlank] using hc)

/-- No other character has a blank capital. -/
theorem eq_of_mem_capital {b c : Char} (hb : isBlank b = true) (h : b ∈ capital c) : b = c := by
  have hletters : ∀ n ∈ List.range' 97 26, isBlank (Char.ofNat (n - 32)) = false := by decide
  have hletter : ∀ a ∈ ['I', 'S', 'F', 'L', 'T'], isBlank a = false := by
    simp [isBlank, blankCodes]
  by_contra hne
  unfold capital at h
  split at h
  · next hc =>
    simp only [Bool.and_eq_true, decide_eq_true_eq] at hc
    have hrange : c.toNat ∈ List.range' 97 26 :=
      List.mem_range'_1.mpr ⟨hc.1, Nat.lt_succ_of_le hc.2⟩
    rw [List.mem_singleton.mp h, hletters _ hrange] at hb
    cases hb
  · have hmem : b ∈ ['I', 'S', 'F', 'L', 'T'] := by
      split at h <;> simp only [List.mem_cons, List.not_mem_nil, or_false] at h
      all_goals first | exact absurd h hne | rcases h with rfl | rfl | rfl <;> decide
    rw [hletter b hmem] at hb
    cases hb

/-- No capital of a word is blank. -/
theorem not_isBlank_of_mem_flatMap_capital {word : List Char}
    (hword : ∀ c ∈ word, isBlank c = false) {b : Char} (h : b ∈ word.flatMap capital) :
    isBlank b = false := by
  obtain ⟨c, hc, hbc⟩ := List.mem_flatMap.mp h
  rw [← Bool.not_eq_true]
  intro hb
  rw [eq_of_mem_capital hb hbc, hword c hc] at hb
  cases hb

namespace Ending

variable {front word tail : List Char}

/-- The blank in front of the last word is left where blanks are dropped and letters are in
capitals. -/
theorem getLast?_front {cs : List Char} (h : Ending cs front word tail)
    (hfront : front.dropWhile isBlank ≠ []) :
    ((front.dropWhile isBlank).flatMap capital).getLast? = front.getLast? := by
  obtain ⟨before, b, hb⟩ := List.eq_nil_or_concat _ |>.resolve_left hfront
  have hlast : front.getLast? = some b := by
    obtain ⟨dropped, hdropped⟩ := List.dropWhile_suffix isBlank (l := front)
    rw [← hdropped, hb]
    simp
  rw [hb, hlast, List.concat_eq_append, List.flatMap_append, List.flatMap_singleton,
    capital_of_isBlank (h.front b hlast), List.getLast?_concat]

theorem endsInKeyword_iff {s keyword : String} (h : Ending s.toList front word tail)
    (hkeyword : ∀ c ∈ keyword.toList, isBlank c = false) :
    endsInKeyword (" " ++ keyword) s = true ↔ wordsFrom [] front ≠ [] ∧
      word.flatMap capital = keyword.toList ∧ front.getLast? = some ' ' := by
  let front' := (front.dropWhile isBlank).flatMap capital
  let word' := word.flatMap capital
  have hends : endsInKeyword (" " ++ keyword) s = true ↔
      ' ' :: keyword.toList <:+ front' ++ word' := by
    rw [endsInKeyword, capitals, trim, String.toList_ofList, String.toList_ofList, h.trimChars_eq,
      List.flatMap_append, List.isSuffixOf_iff_suffix]
    simp [front', word']
  have hspace : ' ' ∉ word' := fun hmem ↦
    absurd (not_isBlank_of_mem_flatMap_capital h.word hmem) (by decide)
  rw [hends, Ne, wordsFrom_eq_nil_iff, ← List.dropWhile_eq_nil_iff]
  constructor
  · intro hsuffix
    rcases List.suffix_or_suffix_of_suffix hsuffix (List.suffix_append front' word') with hin | hin
    · exact absurd (hin.subset List.mem_cons_self) hspace
    rcases List.suffix_cons_iff.mp hin with heq | ⟨between, hbetween⟩
    · exact absurd (heq ▸ List.mem_cons_self) hspace
    obtain ⟨before, hbefore⟩ := hsuffix
    have hall : front' ++ word' = before ++ ' ' :: between ++ word' := by
      rw [← hbefore, ← hbetween]
      simp
    have hfront' : front' = before ++ ' ' :: between := List.append_cancel_right hall
    have hfront : front.dropWhile isBlank ≠ [] := by
      intro hnil
      simp [front', hnil] at hfront'
    have hlast : front.getLast? = (' ' :: between).getLast? := by
      rw [← h.getLast?_front hfront, ← List.getLast?_append_of_ne_nil before (List.cons_ne_nil _ _)]
      exact congrArg List.getLast? hfront'
    -- What stands between the blank and the word belongs to the keyword, and ends in a blank.
    have hempty : between = [] := by
      by_contra hne
      obtain ⟨b, hb⟩ := Option.isSome_iff_exists.mp (List.getLast?_isSome.mpr hne)
      have hmem : b ∈ keyword.toList :=
        hbetween ▸ List.mem_append_left _ (List.mem_of_mem_getLast? hb)
      have hblank : isBlank b = true := by
        refine h.front b ?_
        rw [hlast, List.getLast?_cons, hb]
        rfl
      rw [hkeyword b hmem] at hblank
      cases hblank
    subst hempty
    exact ⟨hfront, hbetween, hlast⟩
  · rintro ⟨hfront, hword, hgap⟩
    rw [← h.getLast?_front hfront] at hgap
    obtain ⟨before, hbefore⟩ := List.getLast?_eq_some_iff.mp hgap
    exact ⟨before, by simp [front', word', hbefore, hword]⟩

end Ending

/-- A text ends in a keyword behind a space exactly when the keyword is the last of several words,
in any letter case, and that space stands directly in front of it. -/
theorem endsInKeyword_iff (keyword : String)
    (hkeyword : ∀ c ∈ keyword.toList, isBlank c = false) (s : String) :
    endsInKeyword (" " ++ keyword) s = true ↔
      ∃ front word, words s = front ++ [word] ∧ front ≠ [] ∧ capitals word = keyword ∧
        gapBeforeLast s = some ' ' := by
  by_cases hs : ∃ c ∈ s.toList, isBlank c = false
  · obtain ⟨front, word, tail, h⟩ := exists_ending hs
    have hwords : words s = (wordsFrom [] front).map String.ofList ++ [String.ofList word] := by
      rw [words, h.wordsFrom_eq, List.map_append, List.map_singleton]
    rw [h.endsInKeyword_iff hkeyword, hwords, gapBeforeLast, h.gap_eq]
    constructor
    · rintro ⟨hfront, hword, hgap⟩
      refine ⟨_, _, rfl, by simpa using hfront, ?_, hgap⟩
      rw [capitals, String.toList_ofList, hword, String.ofList_toList]
    · rintro ⟨front', word', heq, hfront, hword, hgap⟩
      obtain ⟨rfl, hlast⟩ := List.append_inj' heq rfl
      obtain rfl : String.ofList word = word' := List.singleton_inj.mp hlast
      refine ⟨by simpa using hfront, ?_, hgap⟩
      rw [← hword, capitals, String.toList_ofList, String.toList_ofList]
  · have hblank : ∀ c ∈ s.toList, isBlank c = true := by simpa using hs
    have htrim : trimChars s.toList = [] := by
      rw [trimChars, strip, List.dropWhile_eq_nil_iff.mpr hblank]
      rfl
    rw [words, wordsFrom_blank hblank, endsInKeyword, trim, htrim]
    simp [capitals]

end Columnar.Text
