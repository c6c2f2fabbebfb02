import Columnar.Proofs.Placeholders.Outlined

/-!
# Parameters are numbered in one pass

A statement with subqueries that were compiled on their own and renumbered is the one that is
written in place with a single counter, when no text given for the query has an opening brace. So
its placeholders are numbered from left to right, and each is the place of the literal with its
number.
-/

namespace Columnar

namespace Clauses

open Writing (Outlined outlined_mapM)
open Outline (AllWritten)

/-! ### Subqueries -/

/-- Named subqueries are outlined when each of them is. -/
private theorem outlined_ctes {ι : Type} {items : List ι} {name : ι → String}
    {x y : ι → Writing String} {literals : ι → List (Value × String)}
    (hname : ∀ i ∈ items, Text.Unbraced (name i))
    (h : ∀ i ∈ items, Outlined (x i) (y i) (fun s ↦ s) (literals i)) :
    Outlined (writeCtesInPlace (items.map fun i ↦ (name i, x i)))
      (writeCtesInPlace (items.map fun i ↦ (name i, y i))) (fun s ↦ s)
      (items.flatMap literals) := by
  have hitem (i : ι) (hi : i ∈ items) :
      Outlined (do return name i ++ " AS (" ++ (← x i) ++ ")")
        (do return name i ++ " AS (" ++ (← y i) ++ ")") (fun s ↦ s) (literals i) :=
    (h i hi).around (name i ++ " AS (") ")" (fun _ ↦ rfl)
      ((Text.unbraced_append _ _).mpr ⟨hname i hi, by decide⟩) (by decide)
  have hitems := outlined_mapM hitem
  unfold writeCtesInPlace
  rw [List.mapM_map, List.mapM_map]
  refine Outlined.map (hitems.listed "" "WITH " ", " (by decide) (by decide) (by decide))
    fun o ho ↦ ⟨o, ho, rfl, fun b as b' hw ↦ ?_⟩
  simpa using hw

/-- A source is outlined when its query is. -/
private theorem outlined_source {c : Clauses} {t : Table} {ι : Type} {inner : Option ι}
    {x y : ι → Writing String} {literals : ι → List (Value × String)}
    (ht : Text.Unbraced t.name)
    (h : ∀ i ∈ inner, Outlined (x i) (y i) (fun s ↦ s) (literals i)) :
    Outlined (c.writeSource t (inner.map x)) (c.writeSource t (inner.map y)) (fun s ↦ s)
      (inner.toList.flatMap literals) := by
  cases inner with
  | none =>
    refine Writing.outlined_pure ?_
    simp only [Text.unbraced_append]
    refine ⟨⟨⟨by decide, ht⟩, by decide⟩, ?_⟩
    split <;> decide
  | some i =>
    simp only [Option.toList_some, List.flatMap_singleton]
    refine (h i rfl).around "(" (") AS `" ++ t.name ++ "`") (fun sql ↦ ?_) (by decide) ?_
    · simp only [String.append_assoc]
    · simp only [Text.unbraced_append]
      exact ⟨⟨by decide, ht⟩, by decide⟩

private theorem outlined_from {c : Clauses} {t : Table} {ι : Type} {inner : Option ι}
    (scope : Scope) {x y : ι → Writing String} {literals : ι → List (Value × String)}
    (hm : c.misfits.table = none) (ht : Text.Unbraced t.name)
    (hjoins : ∀ s ∈ c.joins.flatMap Join.texts, Text.Unbraced s)
    (harrays : ∀ s ∈ c.arrayJoins.flatMap ArrayJoin.texts, Text.Unbraced s)
    (h : ∀ i ∈ inner, Outlined (x i) (y i) (fun s ↦ s) (literals i)) :
    Outlined (c.writeFromInPlace t (inner.map x) scope) (c.writeFromInPlace t (inner.map y) scope)
      (fun s ↦ s) (inner.toList.flatMap literals ++ c.joinedLiterals) := by
  have hall := ((outlined_source (c := c) ht h).append (outlined_joins scope hjoins)).append
    (outlined_arrayJoins scope harrays)
  simp only [bind_assoc, pure_bind, List.append_assoc] at hall
  unfold writeFromInPlace joinedLiterals
  rw [hm]
  exact hall

/-! ### Statements -/

/-- The outlines of the pieces that may have literals, in the order of a statement. -/
private structure PieceOutlines where
  ctes : Outline
  selection : Outline
  source : Outline
  prewhere : Outline
  condition : Outline
  groupBy : Outline
  having : Outline
  orderBy : Outline

namespace PieceOutlines

variable (os : PieceOutlines) (c : Clauses) (p : Pieces)

private def all : List Outline :=
  [os.ctes, os.selection, os.source, os.prewhere, os.condition, os.groupBy, os.having, os.orderBy]

/-- The parts of the statement, with the texts of the pieces without literals. -/
private def parts : List Outline :=
  [os.ctes, .text ("SELECT " ++ if c.distinct then "DISTINCT " else "") :: os.selection,
    .text "FROM " :: os.source, os.prewhere, os.condition, os.groupBy, os.having, os.orderBy,
    [.text c.limitText], [.text p.sample], [.text p.windows], [.text p.settings]]

/-- The outline of the statement: its parts, without those of which nothing is written. -/
private def whole : Outline := .spaced " " ((os.parts c p).filter Outline.isWritten)

private theorem literals_whole : (os.whole c p).literals = os.all.flatMap Outline.literals := by
  rw [whole, Outline.literals_spaced, Outline.literals_filter]
  simp [parts, all, Outline.literals]

private theorem unbraced_whole (hos : ∀ o ∈ os.all, o.Unbraced)
    (htails : ∀ s ∈ [c.limitText, p.sample, p.windows, p.settings], Text.Unbraced s) :
    (os.whole c p).Unbraced := by
  have hselect : Text.Unbraced ("SELECT " ++ if c.distinct then "DISTINCT " else "") := by
    split <;> decide
  refine Outline.unbraced_spaced (by decide) fun o ho ↦ ?_
  have hparts : ∀ o ∈ os.parts c p, o.Unbraced := by
    simp only [all, List.forall_mem_cons] at hos htails
    simp only [parts, List.forall_mem_cons, Outline.unbraced_cons, Token.unbraced_text]
    have hfrom : Text.Unbraced "FROM " := by decide
    simp [hos, htails, hselect, hfrom]
  exact hparts o (List.mem_of_mem_filter ho)

/-- Pieces that are written by their outlines make a statement that is. -/
private theorem written_whole {b : Bindings}
    (ctes : os.ctes.Written b p.ctes p.afterCtes)
    (selection : os.selection.Written p.afterCtes p.selection.1 p.afterSelection)
    (source : os.source.Written p.afterSelection p.source p.afterSource)
    (prewhere : os.prewhere.Written p.afterSource p.prewhere p.afterPrewhere)
    (condition : os.condition.Written p.afterPrewhere p.condition p.afterCondition)
    (groupBy : os.groupBy.Written p.afterCondition p.groupBy p.afterGroupBy)
    (having' : os.having.Written p.afterGroupBy p.having p.afterHaving)
    (orderBy : os.orderBy.Written p.afterHaving p.orderBy p.afterOrderBy) :
    (os.whole c p).Written b (c.assemble p).sql p.afterOrderBy :=
  (AllWritten.cons ctes <| .cons (selection.cons _) <| .cons (source.cons _) <| .cons prewhere <|
    .cons condition <| .cons groupBy <| .cons having' <| .cons orderBy <|
    .cons (Outline.written_text _ _) <| .cons (Outline.written_text _ _) <|
    .cons (Outline.written_text _ _) <| .cons (Outline.written_text _ _) .nil).filter.spaced " "

end PieceOutlines

/-- A statement is an outline of its pieces, whatever writes its subqueries. -/
private theorem outlined_statement {c : Clauses} {t : Table} {x x' y y' : Writing String}
    {before read : List (Value × String)} (hm : c.misfits.table = none)
    (ht : ∀ s ∈ t.texts, Text.Unbraced s) (hc : ∀ s ∈ c.texts t, Text.Unbraced s)
    (hctes : Outlined x y (fun s ↦ s) before) (hsource : Outlined x' y' (fun s ↦ s) read) :
    Outlined (c.writeWith t x x') (c.writeWith t y y') Statement.sql
      (before ++ (c.selectedLiterals ++ (read ++ c.laterLiterals))) := by
  simp only [texts, tailTexts, List.forall_mem_append, List.forall_mem_cons] at hc
  obtain ⟨hselected, -, -, hpre, hcond, hgroup, hhaving, horder, hlimit, hsample, hwindows,
    hsettings⟩ := hc
  intro b b' s hx
  obtain ⟨p, hp, rfl, rfl⟩ := done_writeWith.mp hx
  obtain ⟨done₁, o₁, hu₁, hl₁, hw₁, hany₁⟩ := hctes hp.ctes
  obtain ⟨done₂, o₂, hu₂, hl₂, hw₂, hany₂⟩ := outlined_selection _ hm ht hselected hp.selection
  obtain ⟨done₃, o₃, hu₃, hl₃, hw₃, hany₃⟩ := hsource hp.source
  obtain ⟨-, o₄, hu₄, hl₄, hw₄, hany₄⟩ := outlined_condition (by decide) _ hpre hp.prewhere
  obtain ⟨-, o₅, hu₅, hl₅, hw₅, hany₅⟩ := outlined_condition (by decide) _ hcond hp.condition
  obtain ⟨-, o₆, hu₆, hl₆, hw₆, hany₆⟩ := outlined_groupBy _ hgroup hp.groupBy
  obtain ⟨-, o₇, hu₇, hl₇, hw₇, hany₇⟩ := outlined_condition (by decide) _ hhaving hp.having
  obtain ⟨-, o₈, hu₈, hl₈, hw₈, hany₈⟩ := outlined_orderBy _ horder hp.orderBy
  let os : PieceOutlines := ⟨o₁, o₂, o₃, o₄, o₅, o₆, o₇, o₈⟩
  have htail {x : Except Failure String} {text : String}
      (h : ∀ s ∈ x.toOption.toList, Text.Unbraced s) (hx : x = .ok text) :
      Text.Unbraced text := h text (by simp [hx, Except.toOption])
  refine ⟨done_writeWith.mpr ⟨p, { hp with ctes := done₁, source := done₃ }, rfl, rfl⟩,
    os.whole c p, os.unbraced_whole c p ?_ ?_, ?_,
    os.written_whole c p hw₁ hw₂ hw₃ hw₄ hw₅ hw₆ hw₇ hw₈, fun d ↦ ?_⟩
  · simp [os, PieceOutlines.all, hu₁, hu₂, hu₃, hu₄, hu₅, hu₆, hu₇, hu₈]
  · simp [hlimit, htail hsample hp.sample, htail hwindows hp.windows, htail hsettings hp.settings]
  · rw [os.literals_whole c p]
    simp [os, PieceOutlines.all, hl₁, hl₂, hl₃, hl₄, hl₅, hl₆, hl₇, hl₈, laterLiterals]
  · obtain ⟨r₁, d₁, hd₁, hr₁⟩ := hany₁ d
    obtain ⟨r₂, d₂, hd₂, hr₂⟩ := hany₂ d₁
    obtain ⟨r₃, d₃, hd₃, hr₃⟩ := hany₃ d₂
    obtain ⟨r₄, d₄, hd₄, hr₄⟩ := hany₄ d₃
    obtain ⟨r₅, d₅, hd₅, hr₅⟩ := hany₅ d₄
    obtain ⟨r₆, d₆, hd₆, hr₆⟩ := hany₆ d₅
    obtain ⟨r₇, d₇, hd₇, hr₇⟩ := hany₇ d₆
    obtain ⟨r₈, d₈, hd₈, hr₈⟩ := hany₈ d₇
    let r : Pieces := ⟨r₁, d₁, r₂, d₂, r₃, d₃, r₄, d₄, r₅, d₅, r₆, d₆, r₇, d₇, r₈, d₈, p.sample,
      p.windows, p.settings, p.suggestions⟩
    have hr : c.PiecesWith t y y' d r :=
      ⟨hp.hints, hp.noCtes, hd₁, hd₂, hd₃, hd₄, hd₅, hd₆, hd₇, hd₈, hp.sample, hp.windows,
        hp.settings, hp.suggestions⟩
    exact ⟨_, _, done_writeWith.mpr ⟨r, hr, rfl, rfl⟩,
      os.written_whole c r hr₁ hr₂ hr₃ hr₄ hr₅ hr₆ hr₇ hr₈⟩

end Clauses

namespace Query

open Writing (Outlined)

/-- A statement of the query is also written in place, as an outline of the query's literals, and
from any other bindings the same outline is written in place. -/
def OnePass (q : Query) : Prop :=
  ∀ ⦃s : Statement⦄, q.compile.result = .ok s → ∃ b, q.writeInPlace.Done {} s b ∧
    s.params = b.params ∧ ∃ o : Outline, o.Unbraced ∧ o.literals = q.literals ∧
      o.Written {} s.sql b ∧ ∀ c, ∃ r c', q.writeInPlace.Done c r c' ∧ o.Written c r.sql c'

/-- An inlined statement is the same outline written after what was bound before. -/
private theorem OnePass.outlined {q : Query} (h : q.OnePass) :
    Outlined (Writing.inlining q.compile) (do return (← q.writeInPlace).sql) (fun s ↦ s)
      q.literals := by
  intro b b' sql hx
  obtain ⟨t, ht, hinline⟩ := Writing.done_inlining.mp hx
  obtain ⟨d, -, hparams, o, ho, hl, hwt, hany⟩ := h ht
  -- The statement is the outline written with numbers from one on. Renaming them by the number of
  -- parameters bound before writes the same outline behind these.
  have hw : o.Written b sql b' := by
    have hcount := hwt.count
    obtain ⟨hsql, vs, hvs, rfl⟩ := hwt
    rw [Bindings.params_extend_empty] at hparams
    have hlength : vs.length = o.literals.length := by
      simpa [Bindings.extend] using hcount
    have hsecond : (t.inline b).2 = b.extend vs := by
      rw [Statement.snd_inline, hparams, Bindings.values_numbered]
    have hfirst : (t.inline b).1 = o.write b.count := by
      rw [← Outline.rename_write ho hlength, ← hparams]
      exact congrArg (Statement.rename _) hsql
    rw [hinline] at hfirst hsecond
    exact ⟨hfirst, vs, hvs, hsecond⟩
  have hplace (c : Bindings) : ∃ r c',
      Writing.Done (do return (← q.writeInPlace).sql) c r c' ∧ o.Written c r c' := by
    obtain ⟨r, c', hr, hwr⟩ := hany c
    exact ⟨r.sql, c', Writing.done_bind.mpr ⟨r, c', hr, Writing.done_pure.mpr ⟨rfl, rfl⟩⟩, hwr⟩
  obtain ⟨r, c', hr, hwr⟩ := hplace b
  obtain ⟨rfl, rfl⟩ := hwr.unique hw
  exact ⟨hr, o, ho, hl, hw, hplace⟩

/-- A query without braces in its texts is written in one pass. -/
theorem onePass {q : Query} (hq : q.Unbraced) : q.OnePass := by
  induction q using induction with
  | step c ctes source hctes hsource =>
    intro s hs
    obtain ⟨t, inner, b, rfl, hm, hw⟩ := done_of_compile hs
    simp only [Unbraced, texts, textsOfCtes_eq, List.forall_mem_append] at hq
    obtain ⟨hcteTexts, hsourceTexts, hc⟩ := hq
    have ht : ∀ s ∈ t.texts, Text.Unbraced s := by
      cases inner <;> simp_all [textsOfSource]
    have hnames : ∀ e ∈ ctes, Text.Unbraced e.1 := fun e he ↦
      hcteTexts _ (List.mem_flatMap.mpr ⟨e, he, List.mem_cons_self⟩)
    have hsubqueries : ∀ e ∈ ctes, Outlined (Writing.inlining e.2.compile)
        (do return (← e.2.writeInPlace).sql) (fun s ↦ s) e.2.literals := fun e he ↦
      (hctes e he fun s hs ↦ hcteTexts s
        (List.mem_flatMap.mpr ⟨e, he, List.mem_cons_of_mem _ hs⟩)).outlined
    have hinner : ∀ q ∈ inner, Outlined (Writing.inlining q.compile)
        (do return (← q.writeInPlace).sql) (fun s ↦ s) q.literals := by
      rintro q ⟨⟩
      exact (hsource t q rfl fun s hs ↦ hsourceTexts s (List.mem_append_right _ hs)).outlined
    have hfrom := Clauses.outlined_from (c := c) { columns := t.keys } hm (ht _ List.mem_cons_self)
      (fun s hs ↦ hc s (by simp_all [Clauses.texts]))
      (fun s hs ↦ hc s (by simp_all [Clauses.texts])) hinner
    have hctes := Clauses.outlined_ctes hnames hsubqueries
    have hall := Clauses.outlined_statement hm ht hc hctes hfrom
    have hparams : s.params = b.params := by
      rw [Clauses.write_eq] at hw
      obtain ⟨p, -, rfl, rfl⟩ := Clauses.done_writeWith.mp hw
      rfl
    have hliterals : (mk c ctes (some (t, inner))).literals =
        ctes.flatMap (·.2.literals) ++ (c.selectedLiterals ++
          (inner.toList.flatMap literals ++ c.joinedLiterals ++ c.laterLiterals)) := by
      rw [literals, literalsOfCtes_eq]
      cases inner <;> simp [literalsOfSource]
    simp only [clauses, Query.ctes] at hw
    rw [Clauses.write_eq, List.map_map, Option.map_map] at hw
    obtain ⟨hdone, o, ho, hl, hwritten, hany⟩ := hall hw
    rw [writeInPlace_eq]
    exact ⟨b, hdone, hparams, o, ho, hliterals ▸ hl, hwritten, hany⟩

/-- A query that compiles, and whose texts have no opening brace, compiles in place to the same
statement. Its parameters are the serial forms of its literals under the numbers from one on, and
every opening brace of its SQL is that of a placeholder: from left to right they have these numbers
and the types of the literals. -/
theorem compile_eq_compileInPlace {q : Query} {s : Statement} (hq : q.Unbraced)
    (h : q.compile.result = .ok s) :
    q.compileInPlace.result = .ok s ∧
      ∃ vs, (q.literals.mapM fun l ↦ Literal.serialize l.1) = .ok vs ∧
        s.params = Bindings.numbered 0 vs ∧
        List.Forall₂ Outline.Opens (Outline.openings s.sql.toList) (q.literals.zipIdx 1) := by
  obtain ⟨b, hdone, hparams, o, ho, hl, ⟨hsql, vs, hvs, rfl⟩, -⟩ := onePass hq h
  refine ⟨Writing.result_run'.mpr ⟨_, hdone⟩, vs, hl ▸ hvs, ?_, ?_⟩
  · rw [hparams, Bindings.params_extend_empty]
  · rw [hsql, ← hl]
    exact Outline.opens_write ho 0

private def idAbove (table : String) (n : Int) : Operand :=
  .expression ⟨{}, .column "" { name := "id", type := "UInt64", table := some table }
    (.literal " > " (.int n) (.done ""))⟩

private def visits : Query :=
  .mk { condition := some (idAbove "visits" 7) } [] (some ({ name := "visits" }, none))

private def chained : Query :=
  .mk { condition := some (idAbove "w" 9) } [("earlier", visits)]
    (some ({ name := "w" }, some
      (.mk { condition := some (idAbove "v" 8) } [] (some ({ name := "v" }, some visits)))))

/-- A literal two subqueries deep is numbered after those of the named subqueries and before those
of the subqueries around it. -/
theorem compile_eq_compileInPlace_chained : chained.Unbraced ∧ ∃ s,
    chained.compile.result = .ok s ∧ chained.compileInPlace.result = .ok s ∧
      s.params = Bindings.numbered 0 [.int 7, .int 7, .int 8, .int 9] ∧
      List.Forall₂ Outline.Opens (Outline.openings s.sql.toList) [((.int 7, "UInt64"), 1),
        ((.int 7, "UInt64"), 2), ((.int 8, "UInt64"), 3), ((.int 9, "UInt64"), 4)] := by
  have hq : chained.Unbraced := by decide
  obtain ⟨hplace, vs, hvs, hparams, hopens⟩ := compile_eq_compileInPlace hq rfl
  obtain rfl : [.int 7, .int 7, .int 8, .int 9] = vs := Except.ok.inj hvs
  exact ⟨hq, _, rfl, hplace, hparams, hopens⟩

end Query

end Columnar
