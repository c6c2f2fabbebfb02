import Columnar.Text.Blank
import Mathlib.Logic.Function.Iterate

/-!
# Reading formulas

How a text is read as a formula of propositional logic: `NOT` binds tighter than `AND`, which binds
tighter than `OR`, and parentheses group. Keywords count in any letter case, as words of their own.
The reader goes over the tokens once and keeps a stack of what stands open (`Formula.step`).

`ReadsAs` says what a text is read as wherever it stands in parentheses; one lemma for each shape of
text says how its reading is made of those of its parts. Text without parentheses and keywords is
read as an atom (`readsAs_atom`).
-/

namespace Columnar

/-- The two ways to join formulas. -/
inductive Connective where
  | and | or
  deriving DecidableEq, Repr

/-- Formulas over atoms. -/
inductive Formula (α : Type) where
  | atom (a : α)
  | not (f : Formula α)
  | join (k : Connective) (f g : Formula α)
  deriving DecidableEq, Repr

/-- The keyword of a connective. -/
def Connective.keyword : Connective → String
  | and => "AND"
  | or => "OR"

/-- The truth value of two joined formulas. -/
def Connective.apply : Connective → Bool → Bool → Bool
  | and, a, b => a && b
  | or, a, b => a || b

namespace Formula

variable {α β : Type}

/-- The truth value of a formula, given those of its atoms. -/
def holds (v : α → Bool) : Formula α → Bool
  | atom a => v a
  | not f => !f.holds v
  | join k f g => k.apply (f.holds v) (g.holds v)

/-- The atoms, from left to right. -/
def atoms : Formula α → List α
  | atom a => [a]
  | not f => f.atoms
  | join _ f g => f.atoms ++ g.atoms

/-- The formula with other atoms in the same places. -/
def map (h : α → β) : Formula α → Formula β
  | atom a => atom (h a)
  | not f => not (f.map h)
  | join k f g => join k (f.map h) (g.map h)

/-- A formula, and more behind it. -/
def joinAll (k : Connective) (f : Formula α) (gs : List (Formula α)) : Formula α :=
  gs.foldl (join k) f

theorem map_joinAll (h : α → β) (k : Connective) (f : Formula α) (gs : List (Formula α)) :
    (joinAll k f gs).map h = joinAll k (f.map h) (gs.map (map h)) := by
  induction gs generalizing f with
  | nil => rfl
  | cons g gs ih => exact ih (join k f g)

theorem atoms_joinAll (k : Connective) (f : Formula α) (gs : List (Formula α)) :
    (joinAll k f gs).atoms = f.atoms ++ gs.flatMap atoms := by
  induction gs generalizing f with
  | nil => simp [joinAll]
  | cons g gs ih =>
    show (joinAll k (join k f g) gs).atoms = _
    rw [ih, atoms, List.flatMap_cons, List.append_assoc]

theorem holds_joinAll (v : α → Bool) (k : Connective) (f : Formula α) (gs : List (Formula α)) :
    (joinAll k f gs).holds v = (gs.map (holds v)).foldl k.apply (f.holds v) := by
  induction gs generalizing f with
  | nil => rfl
  | cons g gs ih => exact ih (join k f g)

/-! ### Tokens -/

/-- What a formula is read from. -/
inductive Token where
  | opening | closing | not
  | join (k : Connective)
  | text (cs : List Char)
  deriving DecidableEq, Repr

/-- Whether words are made of a character: letters, digits, the underscore and whatever is not in
ASCII. -/
def isWordChar (c : Char) : Bool := c.isAlphanum || c == '_' || 127 < c.toNat

/-- A word, which is a keyword in any letter case. -/
def Token.ofWord (word : List Char) : Token :=
  match word.map Char.toUpper with
  | ['A', 'N', 'D'] => .join .and
  | ['O', 'R'] => .join .or
  | ['N', 'O', 'T'] => .not
  | _ => .text word

/-- A character that stands outside of words. -/
def Token.ofMark (c : Char) : Token :=
  match c with
  | '(' => .opening
  | ')' => .closing
  | c => .text [c]

/-- The token of a word that ends here, if there is one. -/
def ending (word : List Char) : List Token := if word = [] then [] else [Token.ofWord word]

/-- The tokens of the rest of a text, where `word` has been read of a word. -/
def tokensFrom (word : List Char) : List Char → List Token
  | [] => ending word
  | c :: rest =>
    if isWordChar c then tokensFrom (word ++ [c]) rest
    else ending word ++ Token.ofMark c :: tokensFrom [] rest

/-- The tokens of a text. -/
def tokens (cs : List Char) : List Token := tokensFrom [] cs

/-- Where no word goes on, the tokens of two texts stand one after the other. -/
theorem tokensFrom_mark {c : Char} (hc : isWordChar c = false) (word cs rest : List Char) :
    tokensFrom word (cs ++ c :: rest) =
      tokensFrom word cs ++ Token.ofMark c :: tokens rest := by
  induction cs generalizing word with
  | nil => simp [tokensFrom, hc, tokens]
  | cons d cs ih =>
    rw [List.cons_append, tokensFrom, tokensFrom.eq_2 word d cs]
    split
    · exact ih (word ++ [d])
    · rw [ih [], List.append_assoc, List.cons_append]

/-- Text in parentheses. -/
def grouped (cs : List Char) : List Char := '(' :: cs ++ [')']

theorem tokens_grouped (cs rest : List Char) :
    tokens (grouped cs ++ rest) = .opening :: tokens cs ++ .closing :: tokens rest := by
  have hclosing : tokens (cs ++ ')' :: rest) = tokens cs ++ .closing :: tokens rest :=
    tokensFrom_mark (by decide) [] cs rest
  have hopening : tokens ('(' :: (cs ++ ')' :: rest)) = .opening :: tokens (cs ++ ')' :: rest) :=
    tokensFrom_mark (c := '(') (by decide) [] [] _
  rw [List.cons_append, ← hclosing, ← hopening, grouped]
  simp

/-- Text in parentheses behind a connective. -/
def clause (k : Connective) (cs : List Char) : List Char :=
  ' ' :: k.keyword.toList ++ ' ' :: grouped cs

theorem tokens_clause (k : Connective) (cs rest : List Char) :
    tokens (clause k cs ++ rest) =
      [.text [' '], .join k, .text [' '], .opening] ++ tokens cs ++ .closing :: tokens rest := by
  have hgrouped := tokens_grouped cs rest
  cases k
  all_goals
    simp only [tokens, grouped, clause, List.cons_append, List.append_assoc] at hgrouped ⊢
    simp [Connective.keyword, tokensFrom, ending, Token.ofMark, Token.ofWord,
      isWordChar] at hgrouped ⊢
    assumption

theorem tokens_negation (cs : List Char) :
    tokens ("NOT ".toList ++ grouped cs) =
      [.not, .text [' '], .opening] ++ tokens cs ++ [.closing] := by
  have hgrouped := tokens_grouped cs []
  simp only [tokens, grouped, List.cons_append, List.append_nil] at hgrouped ⊢
  simp [tokensFrom, ending, Token.ofMark, Token.ofWord, isWordChar] at hgrouped ⊢
  assumption

/-! ### The reader -/

/-- What has been read of an operand. -/
inductive Part where
  | text (cs : List Char)
  | group (f : Formula String)

namespace Part

/-- Whether there is no operand yet. -/
def isBlank : Part → Bool
  | text cs => cs.all Text.isBlank
  | group _ => false

/-- The operand: text without blanks at its ends is an atom. -/
def formula : Part → Formula String
  | text cs => atom (String.ofList (Text.trimChars cs))
  | group f => f

end Part

/-- A formula behind what is joined already. -/
def behind (k : Connective) (before : Option (Formula α)) (f : Formula α) : Formula α :=
  match before with
  | none => f
  | some g => join k g f

/-- What stands open: the disjunction and the conjunction read so far, the negations in front of the
operand, and the operand. -/
structure Frame where
  disjunction : Option (Formula String) := none
  conjunction : Option (Formula String) := none
  negations : Nat := 0
  part : Part := .text []

namespace Frame

/-- The conjunction with its last operand. -/
def conjoined (fr : Frame) : Formula String :=
  behind .and fr.conjunction (not^[fr.negations] fr.part.formula)

/-- The whole formula. -/
def formula (fr : Frame) : Formula String := behind .or fr.disjunction fr.conjoined

end Frame

/-- Reads a token. Text is part of the operand, which cannot go on behind a group; a negation and a
group stand where there is no operand yet. -/
def step : List Frame → Token → Option (List Frame)
  | [], _ => none
  | fr :: outer, .text cs =>
    match fr.part with
    | .text before => some ({ fr with part := .text (before ++ cs) } :: outer)
    | .group _ => if cs.all Text.isBlank then some (fr :: outer) else none
  | fr :: outer, .not =>
    if fr.part.isBlank then
      some ({ fr with negations := fr.negations + 1, part := .text [] } :: outer)
    else none
  | fr :: outer, .join .and =>
    some ({ disjunction := fr.disjunction, conjunction := some fr.conjoined } :: outer)
  | fr :: outer, .join .or => some ({ disjunction := some fr.formula } :: outer)
  | fr :: outer, .opening => if fr.part.isBlank then some ({} :: fr :: outer) else none
  | [_], .closing => none
  | fr :: open' :: outer, .closing => some ({ open' with part := .group fr.formula } :: outer)

/-- The formula that a text is read as. -/
def read (s : String) : Option (Formula String) :=
  match (tokens s.toList).foldlM step [{}] with
  | some [fr] => some fr.formula
  | _ => none

example : read "a = 1 OR not b AND (c OR d)" =
    some (join .or (atom "a = 1")
      (join .and (not (atom "b")) (join .or (atom "c") (atom "d")))) := by
  cbv

/-- Text that is read as a formula, wherever it stands in parentheses. -/
def ReadsAs (cs : List Char) (f : Formula String) : Prop :=
  ∀ outer, ∃ fr : Frame, (tokens cs).foldlM step ({} :: outer) = some (fr :: outer) ∧
    fr.formula = f

theorem read_of_readsAs {s : String} {f : Formula String} (h : ReadsAs s.toList f) :
    read s = some f := by
  have ⟨fr, hfold, hformula⟩ := h []
  rw [read, hfold, ← hformula]

/-- A group is the operand where there was none. -/
theorem foldlM_group {cs : List Char} {f : Formula String} (h : ReadsAs cs f) (fr : Frame)
    (hblank : fr.part.isBlank = true) (outer : List Frame) (rest : List Token) :
    (.opening :: tokens cs ++ .closing :: rest).foldlM step (fr :: outer) =
      rest.foldlM step ({ fr with part := .group f } :: outer) := by
  have ⟨inner, hfold, hformula⟩ := h (fr :: outer)
  have hopening : step (fr :: outer) .opening = some ({} :: fr :: outer) := by
    simp [step, hblank]
  rw [List.cons_append, List.foldlM_cons, hopening]
  show ((tokens cs ++ _).foldlM step ({} :: fr :: outer)) = _
  rw [List.foldlM_append, hfold, ← hformula]
  rfl

/-- A negation of text in parentheses. -/
theorem ReadsAs.negation {cs : List Char} {f : Formula String} (h : ReadsAs cs f) :
    ReadsAs ("NOT ".toList ++ grouped cs) (not f) := by
  intro outer
  rw [tokens_negation]
  refine ⟨{ negations := 1, part := .group f }, ?_, rfl⟩
  exact foldlM_group h { negations := 1, part := .text [' '] } rfl outer []

/-- A clause joins another formula to what was read. Conjunctions are not looked for behind a
disjunction. -/
theorem foldlM_clause {k : Connective} {cs : List Char} {g : Formula String} (h : ReadsAs cs g)
    {fr : Frame} {f : Formula String} (hpart : fr.part = .group f)
    (hk : k = .and → fr.disjunction = none) (outer : List Frame) (rest : List Char) :
    ∃ next : Frame, (tokens (clause k cs ++ rest)).foldlM step (fr :: outer) =
        (tokens rest).foldlM step (next :: outer) ∧
      next.part = .group g ∧ (k = .and → next.disjunction = none) ∧
      next.formula = join k fr.formula g := by
  have hspace : step (fr :: outer) (.text [' ']) = some (fr :: outer) := by
    simp [step, hpart, Text.isBlank, Text.blankCodes]
  rw [tokens_clause]
  cases k with
  | and =>
    have hnone := hk rfl
    let next : Frame := { disjunction := fr.disjunction, conjunction := some fr.conjoined }
    refine ⟨{ next with part := .group g }, ?_, rfl, fun _ ↦ hnone, ?_⟩
    · simp only [List.cons_append, List.nil_append, List.foldlM_cons, hspace]
      exact foldlM_group h { next with part := .text [' '] } rfl outer (tokens rest)
    · simp [Frame.formula, Frame.conjoined, next, hnone, behind, Part.formula]
  | or =>
    let next : Frame := { disjunction := some fr.formula }
    refine ⟨{ next with part := .group g }, ?_, rfl, nofun, rfl⟩
    simp only [List.cons_append, List.nil_append, List.foldlM_cons, hspace]
    exact foldlM_group h { next with part := .text [' '] } rfl outer (tokens rest)

/-- Texts in parentheses with a connective between them. -/
theorem ReadsAs.joined {k : Connective} {cs : List Char} {f : Formula String} (h : ReadsAs cs f)
    {others : List (List Char × Formula String)} (hothers : ∀ o ∈ others, ReadsAs o.1 o.2) :
    ReadsAs (grouped cs ++ others.flatMap fun o ↦ clause k o.1)
      (joinAll k f (others.map Prod.snd)) := by
  intro outer
  rw [tokens_grouped, foldlM_group h {} rfl]
  let start : Frame := { part := .group f }
  -- More clauses may follow a frame with a group as its operand, so the induction is over them.
  have hclauses : ∀ (fr : Frame) (f : Formula String), fr.part = .group f →
      (k = .and → fr.disjunction = none) →
      ∃ last : Frame, (tokens (others.flatMap fun o ↦ clause k o.1)).foldlM step (fr :: outer) =
          some (last :: outer) ∧ last.formula = joinAll k fr.formula (others.map Prod.snd) := by
    induction others with
    | nil => exact fun fr _ _ _ ↦ ⟨fr, by simp [tokens, tokensFrom, ending], rfl⟩
    | cons o others ih =>
      intro fr f hpart hk
      have ho : ReadsAs o.1 o.2 := hothers o List.mem_cons_self
      have ⟨next, hstep, hnextPart, hnextNone, hnext⟩ :=
        foldlM_clause ho hpart hk outer (others.flatMap fun o ↦ clause k o.1)
      have ⟨last, hfold, hlast⟩ :=
        ih (fun o ho ↦ hothers o (List.mem_cons_of_mem _ ho)) next o.2 hnextPart hnextNone
      refine ⟨last, ?_, ?_⟩
      · rw [List.flatMap_cons, hstep, hfold]
      · rw [hlast, hnext]
        rfl
  exact hclauses start f rfl fun _ ↦ rfl

/-! ### Atoms -/

/-- A keyword in any letter case. -/
def IsKeyword (word : List Char) : Prop :=
  word.map Char.toUpper ∈ ["AND".toList, "OR".toList, "NOT".toList]

/-- A word that stands in a text with no letter of a longer word at either end. -/
def HasWord (word cs : List Char) : Prop :=
  ∃ before after, cs = before ++ word ++ after ∧ (∀ c ∈ before.getLast?, isWordChar c = false) ∧
    ∀ c ∈ after.head?, isWordChar c = false

/-- Text without parentheses and without the words `AND`, `OR` and `NOT`. -/
structure IsAtomic (cs : List Char) : Prop where
  not_mem_opening : '(' ∉ cs
  not_mem_closing : ')' ∉ cs
  not_hasWord : ∀ word, IsKeyword word → ¬ HasWord word cs

/-- Text in which no keyword stands anywhere, not even within a word. -/
theorem isAtomic_of_not_infix {cs : List Char} (hopening : '(' ∉ cs) (hclosing : ')' ∉ cs)
    (hkeywords : ∀ keyword ∈ ["AND".toList, "OR".toList, "NOT".toList],
      ¬ keyword <:+: cs.map Char.toUpper) : IsAtomic cs := by
  refine ⟨hopening, hclosing, ?_⟩
  rintro word hword ⟨before, after, rfl, -, -⟩
  apply hkeywords _ hword
  exact ⟨before.map Char.toUpper, after.map Char.toUpper, by simp⟩

theorem ofWord_of_not_isKeyword {word : List Char} (h : ¬ IsKeyword word) :
    Token.ofWord word = .text word := by
  unfold Token.ofWord
  split
  · next hw => exact absurd (by simp [IsKeyword, hw]) h
  · next hw => exact absurd (by simp [IsKeyword, hw]) h
  · next hw => exact absurd (by simp [IsKeyword, hw]) h
  · rfl

/-- A word that ends where no word goes on is a piece of text when it is no keyword. -/
private theorem exists_ending {before word : List Char} (after : List Char)
    (hbefore : ∀ c ∈ before.getLast?, isWordChar c = false)
    (hafter : ∀ c ∈ after.head?, isWordChar c = false)
    (hword : ∀ w, IsKeyword w → ¬ HasWord w (before ++ word ++ after)) :
    ∃ pieces : List (List Char), ending word = pieces.map .text ∧ pieces.flatten = word := by
  by_cases hempty : word = []
  · exact ⟨[], by simp [ending, hempty], by simp [hempty]⟩
  · have hkeyword : ¬ IsKeyword word := fun hk ↦
      hword word hk ⟨before, after, rfl, hbefore, hafter⟩
    exact ⟨[word], by simp [ending, hempty, ofWord_of_not_isKeyword hkeyword], by simp⟩

/-- The tokens of a text are pieces of it when it has no parentheses and no keyword. The word that
is being read stands behind what was read before. -/
private theorem exists_pieces (before word : List Char) {cs : List Char}
    (hbefore : ∀ c ∈ before.getLast?, isWordChar c = false)
    (hopening : '(' ∉ cs) (hclosing : ')' ∉ cs)
    (hword : ∀ w, IsKeyword w → ¬ HasWord w (before ++ word ++ cs)) :
    ∃ pieces : List (List Char), tokensFrom word cs = pieces.map .text ∧
      pieces.flatten = word ++ cs := by
  induction cs generalizing before word with
  | nil =>
    have hends := exists_ending [] hbefore nofun hword
    simpa [tokensFrom] using hends
  | cons c cs ih =>
    have hrest : '(' ∉ cs ∧ ')' ∉ cs :=
      ⟨fun h ↦ hopening (List.mem_cons_of_mem _ h), fun h ↦ hclosing (List.mem_cons_of_mem _ h)⟩
    rw [tokensFrom]
    split
    · have hgoes := ih before (word ++ [c]) hbefore hrest.1 hrest.2
        (by simpa using hword)
      simpa using hgoes
    · next hc =>
      have hmark : Token.ofMark c = .text [c] := by
        unfold Token.ofMark
        split
        · exact absurd List.mem_cons_self hopening
        · exact absurd List.mem_cons_self hclosing
        · rfl
      have ⟨first, hfirst, hword'⟩ :=
        exists_ending (c :: cs) hbefore (by simpa using hc) hword
      have ⟨others, hothers, hcs⟩ := ih (before ++ word ++ [c]) []
        (by simpa using hc) hrest.1 hrest.2 (by simpa using hword)
      exact ⟨first ++ [c] :: others, by simp [hfirst, hothers, hmark], by simp [hword', hcs]⟩

/-- Pieces of text make the operand. -/
private theorem foldlM_pieces (pieces : List (List Char)) (before : List Char)
    (outer : List Frame) : (pieces.map Token.text).foldlM step ({ part := .text before } :: outer) =
      some ({ part := .text (before ++ pieces.flatten) } :: outer) := by
  induction pieces generalizing before with
  | nil => simp
  | cons piece pieces ih =>
    rw [List.flatten_cons, ← List.append_assoc]
    exact ih (before ++ piece)

/-- Text without parentheses and keywords is an atom. -/
theorem readsAs_atom {s : String} (h : IsAtomic s.toList) :
    ReadsAs s.toList (atom (Text.trim s)) := by
  intro outer
  have ⟨pieces, hpieces, hs⟩ := exists_pieces [] [] nofun
    h.not_mem_opening h.not_mem_closing h.not_hasWord
  refine ⟨{ part := .text s.toList }, ?_, rfl⟩
  rw [tokens, hpieces, foldlM_pieces, hs]
  rfl

end Formula

end Columnar
