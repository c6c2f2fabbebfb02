import Columnar.Proofs.Keys.Lexemes

/-!
# Composed expressions

An operand is composed when it is a literal, a column of a table with plain names, or built from
composed operands by the operators. The texts of the operators keep operands apart: no word of a
text touches a column. So the lexemes of a composed expression can be read back from its signature
however deep its operands are nested, though the signature does not show where one of them ends,
and expressions with the same signature have the same SQL (`Expr.render_of_walk`).
-/

namespace Columnar

/-! ### Slots -/

/-- The lexemes of a slot; `last` is the column directly before it, if there is one. -/
def Slot.lexemes (last : Option Column) : Slot → List Lexeme
  | column c => [Lexeme.ofColumn c]
  | expression e => e.lexemes
  | literal v => [Lexeme.ofLiteral last v]
  | raw text => Lexeme.ofText text

theorem Body.lexemes_cons (text : String) (slot : Slot) (rest : Body) (last : Option Column) :
    (Body.cons text slot rest).lexemes last =
      Lexeme.ofText text ++ (slot.lexemes last ++ rest.lexemes slot.column?) := by
  cases slot <;> rfl

/-! ### Texts around operands -/

namespace Lexeme

/-- Whether a text can be read back as characters. -/
def isPlain (text : String) : Bool := lacks ['.', '\x7b'] text

/-- Whether no word of a text touches what stands before it. -/
def opensApart (text : String) : Bool := text.toList.head?.all fun c ↦ !isWordChar c

/-- Whether no word of a text touches what stands after it. -/
def closesApart (text : String) : Bool := text.toList.getLast?.all fun c ↦ !isWordChar c

/-- Whether a text may stand before the first operand. -/
def isHead (text : String) : Bool := isPlain text && closesApart text

/-- Whether a text may stand between two operands. -/
def isJoint (text : String) : Bool :=
  !text.toList.isEmpty && isPlain text && opensApart text && closesApart text

/-- Whether a text may stand after the last operand. -/
def isTail (text : String) : Bool := isPlain text && opensApart text

/-- Lexemes that can be read back wherever they stand. -/
def Free (ls : List Lexeme) : Prop := ∀ spot, readable spot ls = true

theorem free_nil : Free [] := fun _ ↦ rfl

/-- The spot after characters. -/
def spotAfter (spot : Spot) (cs : List Char) : Spot := cs.foldl (fun _ c ↦ after c) spot

theorem spotAfter_append (spot : Spot) (cs : List Char) (c : Char) :
    spotAfter spot (cs ++ [c]) = after c := by
  simp [spotAfter]

/-- Text is read back together with what follows it. -/
theorem readable_text {spot : Spot} {text : String} {rest : List Lexeme}
    (hplain : isPlain text = true) (hopens : spot = .column → opensApart text = true)
    (hrest : readable (spotAfter spot text.toList) rest = true) :
    readable spot (ofText text ++ rest) = true := by
  have hchars : ∀ c ∈ text.toList, c ≠ '.' ∧ c ≠ '\x7b' := by
    intro c hmem
    have hdot := not_mem_of_lacks hplain (c := '.') (by decide)
    have hbrace := not_mem_of_lacks hplain (c := '\x7b') (by decide)
    exact ⟨fun h ↦ hdot (h ▸ hmem), fun h ↦ hbrace (h ▸ hmem)⟩
  unfold ofText
  unfold opensApart at hopens
  clear hplain
  generalize text.toList = cs at *
  induction cs generalizing spot with
  | nil => exact hrest
  | cons c cs ih =>
    obtain ⟨hdot, hbrace⟩ := hchars c List.mem_cons_self
    have hword : spot = .column → isWordChar c = false := by simpa using hopens
    have hnever : after c ≠ .column := by
      unfold after
      split <;> decide
    refine readable_char.mpr ⟨hdot, hbrace, hword, ih (fun h ↦ absurd h hnever) hrest ?_⟩
    exact fun d hd ↦ hchars d (List.mem_cons_of_mem c hd)

/-- A text that closes apart leaves a reader elsewhere. -/
theorem spotAfter_of_closesApart {spot : Spot} {text : String} (h : closesApart text = true)
    (hspot : text.toList = [] → spot = .elsewhere) :
    spotAfter spot text.toList = .elsewhere := by
  unfold closesApart at h
  generalize text.toList = cs at *
  rcases List.eq_nil_or_concat cs with rfl | ⟨init, c, rfl⟩
  · exact hspot rfl
  · rw [List.concat_eq_append, List.getLast?_concat, Option.all_some, Bool.not_eq_true'] at h
    rw [List.concat_eq_append, spotAfter_append, after, h]
    rfl

/-- What follows a head is read from elsewhere. -/
theorem readable_head {text : String} {rest : List Lexeme} (h : isHead text = true)
    (hrest : readable .elsewhere rest = true) :
    readable .elsewhere (ofText text ++ rest) = true := by
  obtain ⟨hplain, hcloses⟩ := Bool.and_eq_true_iff.mp h
  refine readable_text hplain nofun ?_
  rw [spotAfter_of_closesApart hcloses fun _ ↦ rfl]
  exact hrest

/-- What follows a joint is read from elsewhere. -/
theorem free_joint {text : String} {rest : List Lexeme} (h : isJoint text = true)
    (hrest : readable .elsewhere rest = true) : Free (ofText text ++ rest) := by
  intro spot
  rw [isJoint, Bool.and_eq_true, Bool.and_eq_true, Bool.and_eq_true, Bool.not_eq_true',
    List.isEmpty_eq_false_iff] at h
  obtain ⟨⟨⟨hne, hplain⟩, hopens⟩, hcloses⟩ := h
  refine readable_text hplain (fun _ ↦ hopens) ?_
  rw [spotAfter_of_closesApart hcloses fun hnil ↦ absurd hnil hne]
  exact hrest

/-- What is free stays free behind a tail. -/
theorem free_tail {text : String} {rest : List Lexeme} (h : isTail text = true)
    (hrest : Free rest) : Free (ofText text ++ rest) := by
  intro spot
  obtain ⟨hplain, hopens⟩ := Bool.and_eq_true_iff.mp h
  exact readable_text hplain (fun _ ↦ hopens) (hrest _)

end Lexeme

open Lexeme (Free readable)

/-! ### Operands that stand apart -/

/-- The type of a column does not end the place of a literal. -/
def Column.TypeMarks (c : Column) : Prop := lacks ['\x7d'] c.type = true

/-- An operand that can be read back wherever neither a word nor a column touches it. -/
structure Operand.Apart (o : Operand) : Prop where
  readable : ∀ {last : Option Column} {rest : List Lexeme}, (∀ c ∈ last, c.TypeMarks) →
    Free rest → readable .elsewhere (o.slot.lexemes last ++ rest) = true
  typeMarks : ∀ c ∈ o.slot.column?, c.TypeMarks

/-- Operands, each with a text after it, that stand behind `text`: it joins the first of them to
what comes before, or closes what comes before when there is none. -/
inductive Operand.Joined : String → List (Operand × String) → Prop
  | last {text : String} (h : Lexeme.isTail text = true) : Joined text []
  | next {text after : String} {o : Operand} {rest : List (Operand × String)}
      (h : Lexeme.isJoint text = true) (ho : o.Apart) (hrest : Joined after rest) :
      Joined text ((o, after) :: rest)

namespace Expr

/-- The body of woven operands. -/
private theorem body_weave_cons (head after : String) (o : Operand)
    (rest : List (Operand × String)) :
    (weave head ((o, after) :: rest)).body = .cons head o.slot (weave after rest).body := rfl

/-- Joined operands can be read back wherever they stand. -/
private theorem free_weave {text : String} {pieces : List (Operand × String)}
    (h : Operand.Joined text pieces) {last : Option Column} (hlast : ∀ c ∈ last, c.TypeMarks)
    {rest : List Lexeme} (hrest : Free rest) :
    Free ((weave text pieces).body.lexemes last ++ rest) := by
  induction h generalizing last with
  | last h => exact Lexeme.free_tail h hrest
  | next h ho _ ih =>
    rw [body_weave_cons, Body.lexemes_cons, List.append_assoc, List.append_assoc]
    exact Lexeme.free_joint h (ho.readable hlast (ih ho.typeMarks))

/-- Operands woven into text that keeps them apart make an operand that stands apart. -/
theorem apart_weave {head after : String} {o : Operand} {rest : List (Operand × String)}
    (hhead : Lexeme.isHead head = true) (ho : o.Apart) (h : Operand.Joined after rest) :
    (Operand.expression (weave head ((o, after) :: rest))).Apart where
  readable _ hrest := by
    rw [Operand.slot, Slot.lexemes, lexemes, body_weave_cons, Body.lexemes_cons,
      List.append_assoc, List.append_assoc]
    exact Lexeme.readable_head hhead (ho.readable nofun (free_weave h ho.typeMarks hrest))
  typeMarks := nofun

/-- A text alone stands apart. -/
theorem apart_ofText {text : String} (h : Lexeme.isPlain text = true) :
    (Operand.expression (ofText text)).Apart where
  readable _ hrest := Lexeme.readable_text h nofun (hrest _)
  typeMarks := nofun

end Expr

/-! ### Literals and columns -/

private theorem lacks_arrayOf {type : String} (h : lacks ['\x7d'] type = true) :
    lacks ['\x7d'] ("Array(" ++ type ++ ")") = true := by
  rw [lacks_append, lacks_append, h]
  decide

/-- The type of a value on its own does not end the place of a literal. -/
private theorem lacks_plainType (v : Value) : lacks ['\x7d'] (Literal.plainType v) = true := by
  fun_induction Literal.plainType v
  case case10 ih | case11 ih => exact lacks_arrayOf ih
  all_goals decide

/-- Nor does the type that a literal takes from a column with such a type. -/
private theorem lacks_inferType {last : Option Column} (hlast : ∀ c ∈ last, c.TypeMarks)
    (v : Value) : lacks ['\x7d'] (Literal.inferType v last) = true := by
  unfold Literal.inferType
  split
  · next type himposed =>
    obtain ⟨c, hc, himposed⟩ := Option.bind_eq_some_iff.mp himposed
    obtain ⟨-, htype⟩ := Option.ite_none_right_eq_some.mp himposed
    obtain rfl := Option.some.inj htype
    split
    · exact lacks_arrayOf (hlast c hc)
    · exact hlast c hc
  · exact lacks_plainType v

theorem Operand.apart_value (v : Value) : (value v).Apart where
  readable {last rest} hlast hrest := by
    change Lexeme.readable .elsewhere (Lexeme.ofLiteral last v :: rest) = true
    by_cases hv : v = .undefined
    · subst hv
      exact Lexeme.readable_mark.mpr ⟨by decide, hrest .elsewhere⟩
    · rw [Lexeme.ofLiteral_of_ne hv]
      exact Lexeme.readable_mark.mpr ⟨lacks_inferType hlast v, hrest .elsewhere⟩
  typeMarks := nofun

/-- Whether a column belongs to a table and both have an identifier as their name. -/
structure Column.Plain (c : Column) : Prop where
  table : ∃ table, c.table = some table ∧ isWord table = true
  name : isWord c.name = true
  type : c.TypeMarks

theorem Operand.apart_column {c : Column} (h : c.Plain) : (column c).Apart where
  readable {last rest} _ hrest := by
    obtain ⟨table, htable, hword⟩ := h.table
    have hne : table ≠ "" := by
      rintro rfl
      cases hword
    have howner : c.owner = some table := by simp [Column.owner, htable, hne]
    exact Lexeme.readable_column.mpr ⟨rfl, ⟨table, howner, hword⟩, h.name, hrest .column⟩
  typeMarks c' hc := by
    obtain rfl := Option.some.inj hc
    exact h.type

/-! ### Operators -/

namespace Operand

section

variable {o p q : Operand}

theorem joined_one {text last : String} (htext : Lexeme.isJoint text = true)
    (hlast : Lexeme.isTail last = true) (ho : o.Apart) : Joined text [(o, last)] :=
  .next htext ho (.last hlast)

theorem apart_between2 {text : String} (htext : Lexeme.isJoint text = true) (ho : o.Apart)
    (hp : p.Apart) : (expression (Expr.between2 o text p)).Apart :=
  Expr.apart_weave (by decide) ho (joined_one htext (by decide) hp)

theorem apart_unlessEmpty {text instead : String} (htext : Lexeme.isJoint text = true)
    (hinstead : Lexeme.isPlain instead = true) (ho : o.Apart) (hp : p.Apart) :
    (expression (if Expr.isEmptySequence p then Expr.ofText instead
      else Expr.between2 o text p)).Apart := by
  split
  · exact Expr.apart_ofText hinstead
  · exact apart_between2 htext ho hp

theorem apart_bounded {text : String} (htext : Lexeme.isJoint text = true) (ho : o.Apart)
    (hp : p.Apart) (hq : q.Apart) :
    (expression (Expr.weave "" [(o, text), (p, " AND "), (q, "")])).Apart :=
  Expr.apart_weave (by decide) ho (.next htext hp (joined_one (by decide) (by decide) hq))

theorem apart_call2 {name : String} (hname : Lexeme.isHead (name ++ "(") = true) (ho : o.Apart)
    (hp : p.Apart) : (expression (Expr.call2 name o p)).Apart :=
  Expr.apart_weave hname ho (joined_one (by decide) (by decide) hp)

theorem apart_around {head last : String} (hhead : Lexeme.isHead head = true)
    (hlast : Lexeme.isTail last = true) (ho : o.Apart) :
    (expression (Expr.weave head [(o, last)])).Apart :=
  Expr.apart_weave hhead ho (.last hlast)

/-- Operands with a separator between them are joined. -/
private theorem joined_separated {separator last : String}
    (hseparator : Lexeme.isJoint separator = true) (hlast : Lexeme.isTail last = true)
    {os : List Operand} (ho : o.Apart) (hos : ∀ p ∈ os, p.Apart) :
    ∃ after rest, separated separator last (o :: os) = (o, after) :: rest ∧
      Joined after rest := by
  induction os generalizing o with
  | nil => exact ⟨last, [], rfl, .last hlast⟩
  | cons p os ih =>
    obtain ⟨hp, hos⟩ := List.forall_mem_cons.mp hos
    obtain ⟨after, rest, heq, hrest⟩ := ih hp hos
    refine ⟨separator, (p, after) :: rest, ?_, .next hseparator hp hrest⟩
    rw [separated, heq]
    exact nofun

/-- A combination stands apart when what it combines does. -/
theorem apart_combine {keyword : String}
    (hkeyword : Lexeme.isJoint (") " ++ keyword ++ " (") = true) {os : List Operand}
    (hos : ∀ o ∈ os, o.Apart) : (combine keyword os).Apart := by
  have hkept : ∀ o ∈ os.filter fun o ↦ !o.isDropped, o.Apart :=
    fun o hmem ↦ hos o (List.mem_of_mem_filter hmem)
  unfold combine
  split
  · exact apart_value .null
  · next o heq => exact hkept o (heq ▸ List.mem_singleton_self o)
  · next kept hnone _ =>
    rcases hcases : os.filter fun o ↦ !o.isDropped with _ | ⟨o, rest⟩
    · exact absurd hcases hnone
    · rw [hcases] at hkept
      obtain ⟨ho, hrest⟩ := List.forall_mem_cons.mp hkept
      have hlast : Lexeme.isTail ")" = true := by decide
      obtain ⟨after, pieces, heq, hpieces⟩ := joined_separated hkeyword hlast ho hrest
      rw [hcases, heq]
      exact Expr.apart_weave (by decide) ho hpieces

end

/-- What the operators build from literals and plain columns. -/
inductive Composed : Operand → Prop
  | value (v : Value) : Composed (value v)
  | column {c : Column} (h : c.Plain) : Composed (column c)
  | eq {o p : Operand} (ho : Composed o) (hp : Composed p) : Composed (expression (.eq o p))
  | ne {o p : Operand} (ho : Composed o) (hp : Composed p) : Composed (expression (.ne o p))
  | gt {o p : Operand} (ho : Composed o) (hp : Composed p) : Composed (expression (.gt o p))
  | gte {o p : Operand} (ho : Composed o) (hp : Composed p) : Composed (expression (.gte o p))
  | lt {o p : Operand} (ho : Composed o) (hp : Composed p) : Composed (expression (.lt o p))
  | lte {o p : Operand} (ho : Composed o) (hp : Composed p) : Composed (expression (.lte o p))
  | inArray {o p : Operand} (ho : Composed o) (hp : Composed p) :
      Composed (expression (.inArray o p))
  | notInArray {o p : Operand} (ho : Composed o) (hp : Composed p) :
      Composed (expression (.notInArray o p))
  | between {o p q : Operand} (ho : Composed o) (hp : Composed p) (hq : Composed q) :
      Composed (expression (.between o p q))
  | notBetween {o p q : Operand} (ho : Composed o) (hp : Composed p) (hq : Composed q) :
      Composed (expression (.notBetween o p q))
  | has {o p : Operand} (ho : Composed o) (hp : Composed p) : Composed (expression (.has o p))
  | hasAll {o p : Operand} (ho : Composed o) (hp : Composed p) : Composed (expression (.hasAll o p))
  | hasAny {o p : Operand} (ho : Composed o) (hp : Composed p) : Composed (expression (.hasAny o p))
  | isNull {o : Operand} (ho : Composed o) : Composed (expression (.isNull o))
  | isNotNull {o : Operand} (ho : Composed o) : Composed (expression (.isNotNull o))
  | not {o : Operand} (ho : Composed o) : Composed (expression (.not o))
  | all {os : List Operand} (h : ∀ o ∈ os, Composed o) : Composed (all os)
  | any {os : List Operand} (h : ∀ o ∈ os, Composed o) : Composed (any os)

/-- Composed operands stand apart. -/
theorem apart_of_composed {o : Operand} (h : o.Composed) : o.Apart := by
  induction h with
  | value v => exact apart_value v
  | column h => exact apart_column h
  | eq _ _ ho hp | ne _ _ ho hp | gt _ _ ho hp | gte _ _ ho hp | lt _ _ ho hp | lte _ _ ho hp =>
    exact apart_between2 (by decide) ho hp
  | inArray _ _ ho hp | notInArray _ _ ho hp =>
    exact apart_unlessEmpty (by decide) (by decide) ho hp
  | between _ _ _ ho hp hq | notBetween _ _ _ ho hp hq => exact apart_bounded (by decide) ho hp hq
  | has _ _ ho hp | hasAll _ _ ho hp | hasAny _ _ ho hp => exact apart_call2 (by decide) ho hp
  | isNull _ ho | isNotNull _ ho | not _ ho => exact apart_around (by decide) (by decide) ho
  | all _ h | any _ h => exact apart_combine (by decide) h

end Operand

/-! ### Signatures and SQL -/

namespace Expr

/-- A composed expression can be read back from its signature. -/
theorem readable_of_composed {e : Expr} (h : (Operand.expression e).Composed) :
    Lexeme.readable .elsewhere e.lexemes = true := by
  have hlast : ∀ c ∈ (none : Option Column), c.TypeMarks := nofun
  have happart := (Operand.apart_of_composed h).readable hlast Lexeme.free_nil
  rw [List.append_nil] at happart
  exact happart

end Expr

/-- Composed expressions that render have signatures; with the same signature they have the same SQL
and bind values under the same names, wherever their tables are written and the same number of
values is bound before them. -/
theorem Expr.render_of_walk {e e' : Expr} (he : (Operand.expression e).Composed)
    (he' : (Operand.expression e').Composed) {scope scope' : Scope} (hscope : scope.bare = false)
    (hscope' : scope'.bare = false) {b b' c c' : Bindings} (hcount : b.count = b'.count)
    {sql sql' : String} (h : (e.render scope).Done b sql c)
    (h' : (e'.render scope').Done b' sql' c') :
    ∃ w w', e.walk = .ok w ∧ e'.walk = .ok w' ∧ (w.text = w'.text → sql = sql' ∧
      ∃ bound bound', c.params = b.params ++ bound ∧ c'.params = b'.params ++ bound' ∧
        bound.map Prod.fst = bound'.map Prod.fst) := by
  obtain ⟨w, hw, -⟩ := Body.walk_of_render h
  obtain ⟨w', hw', -⟩ := Body.walk_of_render h'
  obtain ⟨hsql, vs, rfl, hvs⟩ := Body.render_of_lexemes h
  obtain ⟨hsql', vs', rfl, hvs'⟩ := Body.render_of_lexemes h'
  refine ⟨w, w', hw, hw', fun htext ↦ ?_⟩
  have hlexemes : e.lexemes = e'.lexemes := by
    refine Lexeme.eq_of_readable (readable_of_composed he) (readable_of_composed he') ?_
    unfold lexemes
    rw [← Body.text_of_walk hw, ← Body.text_of_walk hw', htext]
  unfold lexemes at hlexemes
  refine ⟨?_, Bindings.numbered b.count vs, Bindings.numbered b'.count vs', rfl, rfl, ?_⟩
  · rw [hsql, hsql', hscope, hscope', hcount, hlexemes]
  · rw [hcount]
    exact Bindings.names_numbered (by rw [hvs, hvs', hlexemes])

private def chainedColumn : Column := { name := "a", type := "String", table := some "t" }

/-- A comparison with another one on its left. -/
private def leftChained : Expr :=
  .eq (.expression (.eq (.column chainedColumn) (.value (.int 5)))) (.value (.int 6))

/-- A comparison with another one on its right, and other values. -/
private def rightChained : Expr :=
  .eq (.column chainedColumn) (.expression (.eq (.value (.int 7)) (.value (.int 8))))

private theorem plain_chainedColumn : chainedColumn.Plain where
  table := ⟨"t", rfl, by decide⟩
  name := by decide
  type := rfl

/-- Expressions that are nested differently may have the same signature. -/
theorem Expr.render_of_walk_chained :
    (leftChained.render {}).Done {} "`t`.`a` = \x7bp_1:Int32\x7d = \x7bp_2:Int32\x7d"
      (Bindings.extend {} [.int 5, .int 6]) ∧
    (rightChained.render {}).Done {} "`t`.`a` = \x7bp_1:Int32\x7d = \x7bp_2:Int32\x7d"
      (Bindings.extend {} [.int 7, .int 8]) ∧
    ∃ w w', leftChained.walk = .ok w ∧ rightChained.walk = .ok w' ∧ w.text = w'.text ∧
      ∃ bound bound', (Bindings.extend {} [.int 5, .int 6]).params = [] ++ bound ∧
        (Bindings.extend {} [.int 7, .int 8]).params = [] ++ bound' ∧
        bound.map Prod.fst = bound'.map Prod.fst := by
  have hleft : (leftChained.render {}).Done {} "`t`.`a` = \x7bp_1:Int32\x7d = \x7bp_2:Int32\x7d"
      (Bindings.extend {} [.int 5, .int 6]) := rfl
  have hright : (rightChained.render {}).Done {} "`t`.`a` = \x7bp_1:Int32\x7d = \x7bp_2:Int32\x7d"
      (Bindings.extend {} [.int 7, .int 8]) := rfl
  obtain ⟨w, w', hw, hw', hsame⟩ := render_of_walk
    (.eq (.eq (.column plain_chainedColumn) (.value (.int 5))) (.value (.int 6)))
    (.eq (.column plain_chainedColumn) (.eq (.value (.int 7)) (.value (.int 8))))
    rfl rfl rfl hleft hright
  have htext : w.text = w'.text := by
    cases hw
    cases hw'
    rfl
  obtain ⟨-, hnames⟩ := hsame htext
  exact ⟨hleft, hright, w, w', hw, hw', htext, hnames⟩

end Columnar
