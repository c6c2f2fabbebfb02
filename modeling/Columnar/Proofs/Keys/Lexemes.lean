import Columnar.Proofs.Keys.Splitting
import Columnar.Proofs.Lockstep

/-!
# Lexemes of expressions

An expression is a row of lexemes: the characters of its text, its columns, and the places of its
literals. Its signature spells them (`Body.text_of_walk`) and its SQL is written from them
(`Body.render_of_lexemes`), so expressions with the same lexemes have the same SQL up to values.
Lexemes that are `readable` can be read back from their spelling (`Lexeme.eq_of_readable`); those
that are `legible` also where the spelling stands in a key.
-/

namespace Columnar

/-- A part of an expression: a character of its text, a column, or the place of a literal. -/
inductive Lexeme where
  | char (c : Char)
  | column (owner : Option String) (name : String)
  | mark (type : String)
  deriving DecidableEq

namespace Lexeme

/-- The characters of a text. -/
def ofText (text : String) : List Lexeme := text.toList.map char

/-- The place of a literal. -/
def ofLiteral (last : Option Column) : Value → Lexeme
  | .undefined => mark "UNDEFINED"
  | v => mark (Literal.inferType v last)

theorem ofLiteral_of_ne {last : Option Column} {v : Value} (hv : v ≠ .undefined) :
    ofLiteral last v = mark (Literal.inferType v last) := by
  cases v <;> first | rfl | exact absurd rfl hv

/-- The column of a lexeme. -/
def ofColumn (c : Column) : Lexeme := column c.owner c.name

/-- How a lexeme stands in a signature. -/
def spelled : Lexeme → List Char
  | char c => [c]
  | column (some owner) name => owner.toList ++ '.' :: name.toList
  | column none name => name.toList
  | mark type => (typeMark type).toList

/-- How lexemes stand in a signature. -/
def spell (ls : List Lexeme) : List Char := ls.flatMap spelled

/-- How many literals there are. -/
def marks (ls : List Lexeme) : Nat := ls.countP fun l ↦ l matches mark _

/-- The SQL of lexemes when `n` numbers are taken; columns may be written without their table. -/
def write (bare : Bool) (n : Nat) : List Lexeme → String
  | [] => ""
  | char c :: rest => String.singleton c ++ write bare n rest
  | column owner name :: rest =>
    let own := "`" ++ name ++ "`"
    (if bare then own
      else match owner with
        | some owner => "`" ++ owner ++ "`." ++ own
        | none => own) ++ write bare n rest
  | mark type :: rest =>
    placeholder (Bindings.nameOf (n + 1)) type ++ write bare (n + 1) rest

variable {ls ms : List Lexeme} {bare : Bool} {n : Nat}

@[simp] theorem spell_append (ls ms : List Lexeme) : spell (ls ++ ms) = spell ls ++ spell ms :=
  List.flatMap_append

@[simp] theorem spell_cons (l : Lexeme) (ls : List Lexeme) :
    spell (l :: ls) = l.spelled ++ spell ls := rfl

@[simp] theorem spell_ofText (text : String) : spell (ofText text) = text.toList := by
  simp only [spell, ofText, List.flatMap_map, spelled]
  induction text.toList with
  | nil => rfl
  | cons c cs ih => rw [List.flatMap_cons, ih, List.singleton_append]

@[simp] theorem spelled_ofColumn (c : Column) : (ofColumn c).spelled = c.signature.toList := by
  unfold ofColumn Column.signature
  cases c.owner with
  | none => rfl
  | some owner => simp [spelled]

@[simp] theorem marks_append (ls ms : List Lexeme) : marks (ls ++ ms) = marks ls + marks ms :=
  List.countP_append

@[simp] theorem marks_ofText (text : String) : marks (ofText text) = 0 := by
  simp [marks, ofText]

@[simp] theorem marks_ofColumn_cons (c : Column) (ls : List Lexeme) :
    marks (ofColumn c :: ls) = marks ls := by
  simp [marks, ofColumn]

@[simp] theorem marks_mark_cons (type : String) (ls : List Lexeme) :
    marks (mark type :: ls) = marks ls + 1 := by
  simp [marks]

@[simp] theorem write_ofColumn_cons (scope : Scope) (n : Nat) (c : Column) (ls : List Lexeme) :
    write scope.bare n (ofColumn c :: ls) = scope.column c ++ write scope.bare n ls := by
  unfold Scope.column Column.qualified Column.bare
  rfl

theorem write_append (bare : Bool) (n : Nat) (ls ms : List Lexeme) :
    write bare n (ls ++ ms) = write bare n ls ++ write bare (n + marks ls) ms := by
  induction ls generalizing n with
  | nil => simp [write, marks]
  | cons l ls ih =>
    cases l with
    | char c => simp [write, ih, marks, String.append_assoc]
    | column owner name => simp [write, ih, marks, String.append_assoc]
    | mark type =>
      have hn : n + 1 + marks ls = n + marks (mark type :: ls) := by
        rw [marks_mark_cons]
        omega
      simp [write, ih, hn, String.append_assoc]

@[simp] theorem write_ofText (bare : Bool) (n : Nat) (text : String) :
    write bare n (ofText text) = text := by
  have hchars (cs : List Char) : write bare n (cs.map char) = String.ofList cs := by
    induction cs with
    | nil => rfl
    | cons c cs ih =>
      rw [List.map_cons, write, ih]
      apply String.toList_injective
      simp
  rw [ofText, hchars, String.ofList_toList]

end Lexeme

/-- The lexemes of a body; `last` is the column directly before it, if there is one. -/
def Body.lexemes (last : Option Column) : Body → List Lexeme
  | missing => []
  | done text => Lexeme.ofText text
  | column text c rest => Lexeme.ofText text ++ Lexeme.ofColumn c :: rest.lexemes (some c)
  | nested text _ inner rest => Lexeme.ofText text ++ (inner.lexemes none ++ rest.lexemes none)
  | raw text insert rest => Lexeme.ofText text ++ (Lexeme.ofText insert ++ rest.lexemes none)
  | literal text v rest => Lexeme.ofText text ++ Lexeme.ofLiteral last v :: rest.lexemes none

/-- The lexemes of an expression. -/
def Expr.lexemes (e : Expr) : List Lexeme := e.body.lexemes none

namespace Body

/-- A signature spells the lexemes. -/
theorem text_of_walk {body : Body} {last : Option Column} {w : Walked}
    (h : body.walk last = .ok w) : w.text.toList = Lexeme.spell (body.lexemes last) := by
  induction body generalizing last w with
  | missing => cases h
  | done text =>
    cases h
    simp [lexemes]
  | column text c rest ih =>
    rw [walk] at h
    rcases hr : rest.walk (some c) with e | r <;> rw [hr] at h
    · cases h
    · cases h
      simp [lexemes, Walked.after, ih hr]
  | nested text label inner rest ihInner ihRest =>
    rw [walk] at h
    rcases hi : inner.walk none with e | i <;> rw [hi] at h
    · cases h
    · rcases hr : rest.walk none with e | r
      · simp only [bind, Except.bind, hr] at h
        cases h
      · simp only [bind, Except.bind, hr] at h
        cases h
        simp [lexemes, Walked.after, ihInner hi, ihRest hr]
  | literal text v rest ih =>
    by_cases hv : v = .undefined
    · subst hv
      rw [walk] at h
      rcases hr : rest.walk none with e | r
      · simp only [bind, Except.bind, hr] at h
        cases h
      · simp only [bind, Except.bind, hr] at h
        cases h
        simp [lexemes, Walked.after, ih hr, Lexeme.ofLiteral, Lexeme.spelled]
    · rw [walk_literal hv] at h
      rcases hs : Literal.serialize v with e | serial <;> rw [hs] at h
      · cases h
      · rcases hr : rest.walk none with e | r
        · simp only [bind, Except.bind, hr] at h
          cases h
        · simp only [bind, Except.bind, hr] at h
          cases h
          simp [lexemes, Walked.after, ih hr, Lexeme.ofLiteral_of_ne hv, Lexeme.spelled]
  | raw text insert rest ih =>
    rw [walk] at h
    rcases hr : rest.walk none with e | r <;> rw [hr] at h
    · cases h
    · cases h
      simp [lexemes, Walked.after, ih hr]

/-- The SQL is written from the lexemes, and a value is bound for each place of a literal. -/
theorem render_of_lexemes {scope : Scope} {body : Body} {soFar : String} {position : Nat}
    {last : Option Column} {b b' : Bindings} {sql : String}
    (h : (body.render scope soFar position last).Done b sql b') :
    sql = soFar ++ Lexeme.write scope.bare b.count (body.lexemes last) ∧
      ∃ vs, b' = b.extend vs ∧ vs.length = Lexeme.marks (body.lexemes last) := by
  induction body generalizing soFar position last b b' sql with
  | missing => exact absurd h Render.not_done_throw
  | done text =>
    obtain ⟨rfl, rfl⟩ := Render.done_pure.mp h
    exact ⟨by simp [lexemes], [], by simp, by simp [lexemes]⟩
  | column text c rest ih =>
    obtain ⟨rfl, vs, rfl, hvs⟩ := ih h
    refine ⟨?_, vs, rfl, by simp [lexemes, hvs]⟩
    simp [lexemes, Lexeme.write_append, String.append_assoc]
  | nested text label inner rest ihInner ihRest =>
    obtain ⟨inside, b₁, hi, hr⟩ := Render.done_bind.mp h
    obtain ⟨rfl, vs, rfl, hvs⟩ := ihInner hi
    obtain ⟨rfl, ws, rfl, hws⟩ := ihRest hr
    refine ⟨?_, vs ++ ws, by simp, by simp [lexemes, hvs, hws]⟩
    simp [lexemes, Lexeme.write_append, String.append_assoc, Bindings.extend, hvs]
  | literal text v rest ih =>
    by_cases hv : v = .undefined
    · subst hv
      exact absurd h not_done_undefined
    · rw [render_literal hv] at h
      obtain ⟨place, b₁, hp, hr⟩ := Render.done_bind.mp h
      obtain ⟨serial, -, rfl, rfl⟩ := Render.done_bindLiteral.mp hp
      obtain ⟨rfl, vs, rfl, hvs⟩ := ih hr
      refine ⟨?_, serial :: vs, by simp, ?_⟩
      · simp [lexemes, Lexeme.write_append, Lexeme.write, Lexeme.ofLiteral_of_ne hv,
          String.append_assoc, Bindings.extend]
      · simp [lexemes, Lexeme.ofLiteral_of_ne hv, hvs]
  | raw text insert rest ih =>
    obtain ⟨rfl, vs, rfl, hvs⟩ := ih h
    refine ⟨?_, vs, rfl, by simp [lexemes, hvs]⟩
    simp [lexemes, Lexeme.write_append, String.append_assoc]

end Body

/-! ### Reading lexemes back -/

/-- Whether a character may be part of an identifier. -/
def isWordChar (c : Char) : Bool := c.isAlphanum || c == '_'

/-- Whether a text is an identifier. -/
def isWord (text : String) : Bool := !text.toList.isEmpty && text.toList.all isWordChar

/-- Whether a text has none of some characters. -/
def lacks (cs : List Char) (text : String) : Bool := text.toList.all fun c ↦ !cs.contains c

theorem lacks_append (cs : List Char) (s t : String) :
    lacks cs (s ++ t) = (lacks cs s && lacks cs t) := by
  rw [lacks, String.toList_append, List.all_append, lacks, lacks]

/-- The characters that tell the parts of keys and of signatures apart. -/
def marking : List Char := ['|', ';', ':', '.', '\x7b', '\x7d']

/-- The characters that end clauses and items in keys. -/
def closing : List Char := ['|', ';']

theorem marking_of_closing {c : Char} (hc : c ∈ closing) : c ∈ marking :=
  List.mem_of_mem_take (i := 2) hc

/-- Where a reader of lexemes stands: in a word of the text, after a column, or elsewhere. -/
inductive Spot where
  | elsewhere | word | column
  deriving DecidableEq

namespace Lexeme

/-- The spot after a character. -/
def after (c : Char) : Spot := if isWordChar c then .word else .elsewhere

/-- Whether lexemes can be read back: text and types have no marking characters, columns are
identifiers with a table, and no word of the text touches a column. -/
def legible : Spot → List Lexeme → Bool
  | _, [] => true
  | spot, char c :: rest =>
    !marking.contains c && !(spot == .column && isWordChar c) && legible (after c) rest
  | spot, column owner name :: rest =>
    spot == .elsewhere && owner.any isWord && isWord name && legible .column rest
  | _, mark type :: rest => lacks marking type && legible .elsewhere rest

/-- Whether lexemes can be read back when nothing else stands around them: the text has neither dots
nor opening braces, types have no closing ones, columns are identifiers with a table, and no word of
the text touches a column. -/
def readable : Spot → List Lexeme → Bool
  | _, [] => true
  | spot, char c :: rest =>
    c != '.' && c != '\x7b' && !(spot == .column && isWordChar c) && readable (after c) rest
  | spot, column owner name :: rest =>
    spot == .elsewhere && owner.any isWord && isWord name && readable .column rest
  | _, mark type :: rest => lacks ['\x7d'] type && readable .elsewhere rest

theorem all_of_isWord {text : String} (h : isWord text = true) :
    text.toList ≠ [] ∧ ∀ c ∈ text.toList, isWordChar c = true := by
  rw [isWord, Bool.and_eq_true, Bool.not_eq_true', List.isEmpty_eq_false_iff,
    List.all_eq_true] at h
  exact h

theorem not_mem_of_lacks {cs : List Char} {text : String} (h : lacks cs text = true) {c : Char}
    (hc : c ∈ cs) : c ∉ text.toList := by
  intro hmem
  have hnot := List.all_eq_true.mp h c hmem
  rw [Bool.not_eq_true', ← Bool.not_eq_true, List.contains_iff_mem] at hnot
  exact hnot hc

theorem lacks_of_subset {cs ds : List Char} {text : String} (hsub : cs ⊆ ds)
    (h : lacks ds text = true) : lacks cs text = true := by
  refine List.all_eq_true.mpr fun c hmem ↦ ?_
  rw [Bool.not_eq_true', ← Bool.not_eq_true, List.contains_iff_mem]
  exact fun hc ↦ not_mem_of_lacks h (hsub hc) hmem

private theorem not_mem_marking {c : Char} (h : isWordChar c = true) : c ∉ marking := by
  intro hc
  simp only [marking, List.mem_cons, List.not_mem_nil, or_false] at hc
  rcases hc with rfl | rfl | rfl | rfl | rfl | rfl <;> revert h <;> decide

theorem not_mem_of_isWord {text : String} (h : isWord text = true) {c : Char}
    (hc : c ∈ marking) : c ∉ text.toList :=
  fun hmem ↦ not_mem_marking ((all_of_isWord h).2 c hmem) hc

/-! What is legible after each lexeme. -/

private theorem legible_char {spot : Spot} {c : Char} {ls : List Lexeme}
    (h : legible spot (char c :: ls) = true) :
    c ∉ marking ∧ (spot = .column → isWordChar c = false) ∧ legible (after c) ls = true := by
  rw [legible, Bool.and_eq_true, Bool.and_eq_true, Bool.not_eq_true', Bool.not_eq_true',
    ← Bool.not_eq_true, List.contains_iff_mem] at h
  obtain ⟨⟨hc, hspot⟩, hls⟩ := h
  refine ⟨hc, ?_, hls⟩
  rintro rfl
  exact hspot

private theorem legible_column {spot : Spot} {owner : Option String} {name : String}
    {ls : List Lexeme} (h : legible spot (column owner name :: ls) = true) :
    spot = .elsewhere ∧ (∃ table, owner = some table ∧ isWord table = true) ∧
      isWord name = true ∧ legible .column ls = true := by
  rw [legible, Bool.and_eq_true, Bool.and_eq_true, Bool.and_eq_true, beq_iff_eq,
    Option.any_eq_true] at h
  obtain ⟨⟨⟨hspot, howner⟩, hname⟩, hls⟩ := h
  exact ⟨hspot, howner, hname, hls⟩

private theorem legible_mark {spot : Spot} {type : String} {ls : List Lexeme}
    (h : legible spot (mark type :: ls) = true) :
    lacks marking type = true ∧ legible .elsewhere ls = true := by
  rw [legible, Bool.and_eq_true] at h
  exact h

/-! What is readable after each lexeme. -/

theorem readable_char {spot : Spot} {c : Char} {ls : List Lexeme} :
    readable spot (char c :: ls) = true ↔ c ≠ '.' ∧ c ≠ '\x7b' ∧
      (spot = .column → isWordChar c = false) ∧ readable (after c) ls = true := by
  rw [readable, Bool.and_eq_true, Bool.and_eq_true, Bool.and_eq_true, bne_iff_ne, bne_iff_ne,
    Bool.not_eq_true', Bool.and_eq_false_imp, beq_iff_eq, and_assoc, and_assoc]

theorem readable_column {spot : Spot} {owner : Option String} {name : String}
    {ls : List Lexeme} : readable spot (column owner name :: ls) = true ↔
      spot = .elsewhere ∧ (∃ table, owner = some table ∧ isWord table = true) ∧
      isWord name = true ∧ readable .column ls = true := by
  rw [readable, Bool.and_eq_true, Bool.and_eq_true, Bool.and_eq_true, beq_iff_eq,
    Option.any_eq_true, and_assoc, and_assoc]

theorem readable_mark {spot : Spot} {type : String} {ls : List Lexeme} :
    readable spot (mark type :: ls) = true ↔
      lacks ['\x7d'] type = true ∧ readable .elsewhere ls = true := by
  rw [readable, Bool.and_eq_true]

private theorem spelled_mark (type : String) :
    (mark type).spelled = '\x7b' :: ':' :: (type.toList ++ ['\x7d']) := by
  simp [spelled, typeMark]

private theorem ne_brace_of_word {w r cs : List Char} {c : Char}
    (hw : ∀ d ∈ w, isWordChar d = true) (h : w ++ '.' :: r = c :: cs) : c ≠ '\x7b' := by
  cases w with
  | nil =>
    obtain ⟨rfl, -⟩ := List.cons.inj h
    decide
  | cons d w =>
    obtain ⟨rfl, -⟩ := List.cons.inj h
    intro hd
    have hword := hw d (by simp)
    rw [hd] at hword
    exact absurd hword (by decide)

/-- No dot follows a word of the text. -/
private theorem not_dot {ls : List Lexeme} (h : readable .word ls = true) {w r : List Char}
    (hw : ∀ c ∈ w, isWordChar c = true) : spell ls ≠ w ++ '.' :: r := by
  intro heq
  induction ls generalizing w with
  | nil => cases w <;> cases heq
  | cons l ls ih =>
    cases l with
    | char c =>
      obtain ⟨hdot, -, -, hls⟩ := readable_char.mp h
      rw [spell_cons, spelled, List.singleton_append] at heq
      cases w with
      | nil =>
        obtain ⟨rfl, -⟩ := List.cons.inj heq
        exact hdot rfl
      | cons d w =>
        obtain ⟨rfl, htail⟩ := List.cons.inj heq
        rw [after, if_pos (hw c (by simp))] at hls
        exact ih hls (fun d hd ↦ hw d (by simp [hd])) htail
    | column owner name => cases (readable_column.mp h).1
    | mark type =>
      rw [spell_cons, spelled_mark] at heq
      exact ne_brace_of_word hw heq.symm rfl

private theorem spell_column {table name : String} {ls : List Lexeme} :
    spell (column (some table) name :: ls) =
      table.toList ++ '.' :: (name.toList ++ spell ls) := by
  rw [spell_cons, spelled, List.append_assoc, List.cons_append]

/-- A character of the text is not read as the beginning of a column. -/
private theorem char_ne_column {spot : Spot} {c : Char} {owner : Option String} {name : String}
    {ls ms : List Lexeme} (hl : readable spot (char c :: ls) = true)
    (hm : readable spot (column owner name :: ms) = true) :
    spell (char c :: ls) ≠ spell (column owner name :: ms) := by
  obtain ⟨-, -, -, hls⟩ := readable_char.mp hl
  obtain ⟨-, ⟨table, rfl, htable⟩, -, -⟩ := readable_column.mp hm
  obtain ⟨hne, hword⟩ := all_of_isWord htable
  rw [spell_column, spell_cons, spelled, List.singleton_append]
  intro heq
  rcases hcs : table.toList with _ | ⟨d, cs⟩
  · exact hne hcs
  · rw [hcs] at heq hword
    obtain ⟨rfl, htail⟩ := List.cons.inj heq
    rw [after, if_pos (hword c (by simp))] at hls
    exact not_dot hls (fun d hd ↦ hword d (by simp [hd])) htail

/-- Only the place of a literal begins with a brace. -/
private theorem mark_ne {spot : Spot} {type : String} {l : Lexeme} {ls ms : List Lexeme}
    (hm : readable spot (l :: ms) = true) (hl : ∀ type', l ≠ mark type') :
    spell (mark type :: ls) ≠ spell (l :: ms) := by
  rw [spell_cons, spelled_mark]
  intro heq
  cases l with
  | char c =>
    obtain ⟨-, hbrace, -, -⟩ := readable_char.mp hm
    rw [spell_cons, spelled, List.singleton_append] at heq
    obtain ⟨rfl, -⟩ := List.cons.inj heq
    exact hbrace rfl
  | column owner name =>
    obtain ⟨-, ⟨table, rfl, htable⟩, -, -⟩ := readable_column.mp hm
    rw [spell_column] at heq
    exact ne_brace_of_word (all_of_isWord htable).2 heq.symm rfl
  | mark type' => exact hl type' rfl

/-- After a column there is no more of a word. -/
private theorem head_of_column {ls : List Lexeme} (h : readable .column ls = true) :
    ∀ c ∈ (spell ls).head?, isWordChar c = false := by
  intro c hc
  cases ls with
  | nil => cases hc
  | cons l ls =>
    cases l with
    | char d =>
      obtain ⟨-, -, hd, -⟩ := readable_char.mp h
      rw [spell_cons, spelled, List.singleton_append, List.head?_cons] at hc
      obtain rfl := Option.some.inj hc
      exact hd rfl
    | column owner name => cases (readable_column.mp h).1
    | mark type =>
      rw [spell_cons, spelled_mark] at hc
      obtain rfl := Option.some.inj hc
      decide

/-- Columns are read back with what follows them. -/
private theorem eq_of_columns {table table' name name' : String} {ls ms : List Lexeme}
    (htable : isWord table = true) (htable' : isWord table' = true) (hname : isWord name = true)
    (hname' : isWord name' = true) (hls : readable .column ls = true)
    (hms : readable .column ms = true)
    (h : spell (column (some table) name :: ls) = spell (column (some table') name' :: ms)) :
    table = table' ∧ name = name' ∧ spell ls = spell ms := by
  rw [spell_column, spell_column] at h
  obtain ⟨ht, hrest⟩ := Splitting.eq_of_first (not_mem_of_isWord htable (by decide))
    (not_mem_of_isWord htable' (by decide)) h
  obtain ⟨hn, htail⟩ := Splitting.eq_of_run (all_of_isWord hname).2 (all_of_isWord hname').2
    (head_of_column hls) (head_of_column hms) hrest
  exact ⟨String.toList_injective ht, String.toList_injective hn, htail⟩

/-- Places of literals are read back with what follows them. -/
private theorem eq_of_marks {type type' : String} {ls ms : List Lexeme}
    (htype : lacks ['\x7d'] type = true) (htype' : lacks ['\x7d'] type' = true)
    (h : spell (mark type :: ls) = spell (mark type' :: ms)) :
    type = type' ∧ spell ls = spell ms := by
  simp only [spell_cons, spelled_mark, List.cons_append, List.cons.injEq, true_and,
    List.append_assoc] at h
  obtain ⟨ht, htail⟩ := Splitting.eq_of_first (not_mem_of_lacks htype (by decide))
    (not_mem_of_lacks htype' (by decide)) h
  exact ⟨String.toList_injective ht, htail⟩

private theorem spell_ne_nil {spot : Spot} {l : Lexeme} {ls : List Lexeme}
    (h : readable spot (l :: ls) = true) : spell (l :: ls) ≠ [] := by
  cases l with
  | char c => simp [spelled]
  | column owner name =>
    obtain ⟨-, ⟨table, rfl, -⟩, -, -⟩ := readable_column.mp h
    simp [spelled]
  | mark type => simp [spelled_mark]

/-- Readable lexemes are read back from their spelling. -/
theorem eq_of_readable {spot : Spot} {ls ms : List Lexeme} (hl : readable spot ls = true)
    (hm : readable spot ms = true) (h : spell ls = spell ms) : ls = ms := by
  induction ls generalizing spot ms with
  | nil =>
    cases ms with
    | nil => rfl
    | cons m ms => exact absurd h.symm (spell_ne_nil hm)
  | cons l ls ih =>
    cases ms with
    | nil => exact absurd h (spell_ne_nil hl)
    | cons m ms =>
      cases l with
      | char c =>
        cases m with
        | char c' =>
          obtain ⟨-, -, -, hls⟩ := readable_char.mp hl
          obtain ⟨-, -, -, hms⟩ := readable_char.mp hm
          obtain ⟨rfl, htail⟩ := List.cons.inj h
          rw [ih hls hms htail]
        | column owner name => exact absurd h (char_ne_column hl hm)
        | mark type => exact absurd h.symm (mark_ne hl nofun)
      | column owner name =>
        cases m with
        | char c => exact absurd h.symm (char_ne_column hm hl)
        | column owner' name' =>
          obtain ⟨-, ⟨table, rfl, htable⟩, hname, hls⟩ := readable_column.mp hl
          obtain ⟨-, ⟨table', rfl, htable'⟩, hname', hms⟩ := readable_column.mp hm
          obtain ⟨rfl, rfl, htail⟩ := eq_of_columns htable htable' hname hname' hls hms h
          rw [ih hls hms htail]
        | mark type => exact absurd h.symm (mark_ne hl nofun)
      | mark type =>
        cases m with
        | mark type' =>
          obtain ⟨htype, hls⟩ := readable_mark.mp hl
          obtain ⟨htype', hms⟩ := readable_mark.mp hm
          obtain ⟨rfl, htail⟩ := eq_of_marks htype htype' h
          rw [ih hls hms htail]
        | char c => exact absurd h (mark_ne hm nofun)
        | column owner name => exact absurd h (mark_ne hm nofun)

/-- Legible lexemes are readable. -/
theorem readable_of_legible {spot : Spot} {ls : List Lexeme} (h : legible spot ls = true) :
    readable spot ls = true := by
  induction ls generalizing spot with
  | nil => rfl
  | cons l ls ih =>
    cases l with
    | char c =>
      obtain ⟨hc, hspot, hls⟩ := legible_char h
      have hdot : c ≠ '.' := fun heq ↦ hc (heq ▸ by decide)
      have hbrace : c ≠ '\x7b' := fun heq ↦ hc (heq ▸ by decide)
      exact readable_char.mpr ⟨hdot, hbrace, hspot, ih hls⟩
    | column owner name =>
      obtain ⟨hspot, howner, hname, hls⟩ := legible_column h
      exact readable_column.mpr ⟨hspot, howner, hname, ih hls⟩
    | mark type =>
      obtain ⟨htype, hls⟩ := legible_mark h
      exact readable_mark.mpr ⟨lacks_of_subset (by decide) htype, ih hls⟩

/-- Legible lexemes are read back from their spelling. -/
theorem eq_of_spell {spot : Spot} {ls ms : List Lexeme} (hl : legible spot ls = true)
    (hm : legible spot ms = true) (h : spell ls = spell ms) : ls = ms :=
  eq_of_readable (readable_of_legible hl) (readable_of_legible hm) h

/-! ### What a legible spelling does not have -/

/-- What ends clauses and items is not part of a legible spelling. -/
theorem not_mem_spell {spot : Spot} {ls : List Lexeme} (h : legible spot ls = true) {c : Char}
    (hc : c ∈ closing) : c ∉ spell ls := by
  have hmarking := marking_of_closing hc
  induction ls generalizing spot with
  | nil => exact List.not_mem_nil
  | cons l ls ih =>
    rw [spell_cons, List.mem_append, not_or]
    cases l with
    | char d =>
      obtain ⟨hd, -, hls⟩ := legible_char h
      refine ⟨?_, ih hls⟩
      rw [spelled, List.mem_singleton]
      rintro rfl
      exact hd hmarking
    | column owner name =>
      obtain ⟨-, ⟨table, rfl, htable⟩, hname, hls⟩ := legible_column h
      refine ⟨?_, ih hls⟩
      rw [spelled, List.mem_append, List.mem_cons, not_or, not_or]
      refine ⟨not_mem_of_isWord htable hmarking, ?_, not_mem_of_isWord hname hmarking⟩
      rintro rfl
      exact absurd hc (by decide)
    | mark type =>
      obtain ⟨htype, hls⟩ := legible_mark h
      refine ⟨?_, ih hls⟩
      have hnot : c ∉ ['\x7b', ':', '\x7d'] := by
        rintro hmem
        simp only [closing, List.mem_cons, List.not_mem_nil, or_false] at hc hmem
        rcases hc with rfl | rfl <;> revert hmem <;> decide
      have htext := not_mem_of_lacks htype hmarking
      simp only [List.mem_cons, List.not_mem_nil, or_false, not_or] at hnot
      simp [spelled_mark, hnot, htext]

/-- In a legible spelling a colon only follows a brace. -/
theorem follows_spell {spot : Spot} {ls : List Lexeme} (h : legible spot ls = true)
    {before rest : List Char} (hbefore : '\x7b' ∈ before)
    (hrest : Splitting.Follows ':' before rest) :
    Splitting.Follows ':' before (spell ls ++ rest) := by
  induction ls generalizing spot with
  | nil => exact hrest
  | cons l ls ih =>
    rw [spell_cons, List.append_assoc]
    cases l with
    | char c =>
      obtain ⟨hc, -, hls⟩ := legible_char h
      apply (ih hls).append_left
      rw [spelled, List.mem_singleton]
      rintro rfl
      exact hc (by decide)
    | column owner name =>
      obtain ⟨-, ⟨table, rfl, htable⟩, hname, hls⟩ := legible_column h
      apply (ih hls).append_left
      have htable := not_mem_of_isWord htable (c := ':') (by decide)
      have hname := not_mem_of_isWord hname (c := ':') (by decide)
      simp [spelled, htable, hname]
    | mark type =>
      obtain ⟨htype, hls⟩ := legible_mark h
      have htype := not_mem_of_lacks htype (c := ':') (by decide)
      have hafter := (ih hls).append_left (a := type.toList ++ ['\x7d']) (by simp [htype])
      rw [spelled_mark]
      exact hafter.cons hbefore (by decide)

end Lexeme

end Columnar
