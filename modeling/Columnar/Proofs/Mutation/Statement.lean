import Columnar.Proofs.Placeholders.Expressions
import Columnar.Proofs.Undefined.Requests
import Columnar.Proofs.Writable

/-!
# Statements of mutations

Mutations write columns without their tables. An expression is then written as its copy whose
columns have no table is written anywhere else, down to the parameters and to the failure
(`Expr.render_unowned`). So the statement of a mutation is an outline with bare columns: the
assignments in their order and the condition behind them, all numbered by one counter
(`MutationDraft.toSql_bare`).
-/

namespace Columnar

/-! ### Columns without tables -/

/-- The body with all of its columns, at any depth, taken from their tables. -/
def Body.unowned : Body → Body
  | missing => missing
  | done text => done text
  | column text c rest => column text (c.withTable none) rest.unowned
  | nested text label inner rest => nested text label inner.unowned rest.unowned
  | literal text v rest => literal text v rest.unowned
  | raw text insert rest => raw text insert rest.unowned

/-- The expression with all of its columns taken from their tables. -/
def Expr.unowned (e : Expr) : Expr := { e with body := e.body.unowned }

/-- The table of a column does not tell the type of a literal behind it. -/
theorem Literal.inferType_withTable (v : Value) (last : Option Column) :
    inferType v (last.map (·.withTable none)) = inferType v last := by
  cases last <;> rfl

theorem Body.render_unowned (columns : List String) (body : Body) (soFar : String)
    (position : Nat) (last : Option Column) :
    body.unowned.render { columns } soFar position (last.map (·.withTable none)) =
      body.render { columns, bare := true } soFar position last := by
  induction body generalizing soFar position last with
  | missing => rfl
  | done text => rfl
  | column text c rest ih => exact ih _ _ (some c)
  | nested text label inner rest ihInner ihRest =>
    have hinner := ihInner "" 0 none
    have hrest := fun sql ↦ ihRest (soFar ++ text ++ sql) (position + 1) none
    simp only [Option.map_none] at hinner hrest
    simp only [unowned, render, hinner, hrest]
  | literal text v rest ih =>
    have hrest := fun place ↦ ih (soFar ++ text ++ place) (position + 1) none
    simp only [Option.map_none] at hrest
    simp only [unowned, render, Literal.inferType_withTable, hrest]
  | raw text insert rest ih => exact ih _ _ none

/-- Without tables an expression is written as its copy without tables is written with them,
whatever was bound before: the same text, the same parameters and the same failure. -/
theorem Expr.render_unowned (columns : List String) (e : Expr) :
    e.unowned.render { columns } = e.render { columns, bare := true } :=
  e.body.render_unowned columns "" 0 none

/-! ### Outlines -/

namespace MutationDraft

/-- The assignments that are written: all of an update, in their order. -/
def assigned (d : MutationDraft) : List Expr :=
  match d.kind with
  | .delete => []
  | .update => d.assignments.map (assignment d.table)

/-- The texts of a mutation: its table's name, and those of its assignments and its condition. -/
def texts (d : MutationDraft) : List String :=
  d.table.name :: (d.assigned.flatMap (·.body.texts) ++ d.condition.toList.flatMap Operand.texts)

/-- No text of the mutation has an opening brace. -/
def Unbraced (d : MutationDraft) : Prop := ∀ s ∈ d.texts, Text.Unbraced s

instance (d : MutationDraft) : Decidable d.Unbraced :=
  inferInstanceAs (Decidable (∀ s ∈ d.texts, _))

/-- The outline of a condition with bare columns. -/
def conditionOutline : Operand → Outline
  | .expression e => e.outline Column.bare
  | _ => []

/-- The statement before its literals are numbered: what is changed and the assignments of an
update, with a comma between each two of them, and behind them the condition. All columns are
bare. -/
def outline (d : MutationDraft) : Outline :=
  .text ("ALTER TABLE `" ++ d.table.name ++ "` " ++ d.kind.verb) ::
    ((match d.kind with
      | .delete => []
      | .update => .text " " :: Outline.spaced ", " (d.assigned.map (Expr.outline Column.bare))) ++
    (.text " WHERE " :: d.condition.toList.flatMap conditionOutline))

/-- The mutation can be written: its assignments can, and so can its condition, an expression. -/
def Writable (d : MutationDraft) : Prop :=
  (∀ e ∈ d.assigned, e.body.Writable) ∧ ∀ o ∈ d.condition, o.WritableCondition

variable {d : MutationDraft} {o : Operand} {b b' : Bindings} {sql : String} {params : Params}

theorem literals_conditionOutline (o : Operand) : (conditionOutline o).literals = o.literals := by
  cases o with
  | expression e => exact Body.literals_outline _ _ _
  | value v | column c | raw text | ordering item direction => rfl

/-- The outline has the literals of the mutation. -/
theorem literals_outline (d : MutationDraft) : d.outline.literals = d.literals := by
  have hexpr (e : Expr) : (e.outline Column.bare).literals = e.literals :=
    Body.literals_outline _ _ _
  have hcondition : Outline.literals (d.condition.toList.flatMap conditionOutline) =
      d.condition.toList.flatMap Operand.literals := by
    rcases d.condition with _ | o
    · rfl
    · simpa using literals_conditionOutline o
  unfold outline literals assignedLiterals assigned
  rcases d.kind with _ | _ <;>
    simp [Outline.literals, Outline.literals_spaced, List.flatMap_map, hexpr, hcondition]

/-- The outline has no braces of its own when the texts of the mutation have none. -/
theorem unbraced_outline (h : d.Unbraced) : d.outline.Unbraced := by
  simp only [Unbraced, texts, List.forall_mem_cons, List.forall_mem_append] at h
  obtain ⟨hname, hassigned, hcondition⟩ := h
  have hexpr {e : Expr} (he : ∀ s ∈ e.body.texts, Text.Unbraced s) :
      (e.outline Column.bare).Unbraced :=
    Body.unbraced_outline (fun _ hc ↦ Column.unbraced_column hc { bare := true }) (by simp) he
  have hhead : Text.Unbraced ("ALTER TABLE `" ++ d.table.name ++ "` " ++ d.kind.verb) := by
    simp only [Text.unbraced_append]
    exact ⟨⟨⟨by decide, hname⟩, by decide⟩, by cases d.kind <;> decide⟩
  have hassignments : ∀ os ∈ d.assigned.map (Expr.outline Column.bare), os.Unbraced := by
    rintro _ ho
    obtain ⟨e, he, rfl⟩ := List.mem_map.mp ho
    exact hexpr fun s hs ↦ hassigned s (List.mem_flatMap.mpr ⟨e, he, hs⟩)
  have hwhere : Outline.Unbraced (d.condition.toList.flatMap conditionOutline) := by
    rcases hc : d.condition with _ | ⟨_ | _ | e | _ | _⟩ <;>
      simp only [Option.toList_some, Option.toList_none, List.flatMap_nil, List.flatMap_singleton,
        conditionOutline, Outline.unbraced_nil]
    rw [hc] at hcondition
    exact hexpr fun s hs ↦ hcondition s (by simp [Operand.texts, hs])
  unfold outline
  rw [Outline.unbraced_cons, Outline.unbraced_append, Outline.unbraced_cons]
  refine ⟨hhead, ?_, by simpa using (by decide : Text.Unbraced " WHERE "), hwhere⟩
  split
  · exact Outline.unbraced_nil
  · rw [Outline.unbraced_cons]
    exact ⟨by simpa using (by decide : Text.Unbraced " "),
      Outline.unbraced_spaced (by decide) hassignments⟩

/-! ### Writing -/

/-- Expressions that are rendered in a row write their outlines. -/
theorem allWritten_of_mapM {scope : Scope} {es : List Expr} {sqls : List String}
    (h : Render.Done (es.mapM (Expr.render scope)) b sqls b') :
    Outline.AllWritten (es.map (Expr.outline scope.column)) b sqls b' := by
  induction es generalizing b sqls with
  | nil =>
    obtain ⟨rfl, rfl⟩ := Render.done_pure.mp h
    exact .nil
  | cons e es ih =>
    rw [List.mapM_cons] at h
    obtain ⟨sql, b₁, he, h⟩ := Render.done_bind.mp h
    obtain ⟨rest, b₂, hes, h⟩ := Render.done_bind.mp h
    obtain ⟨rfl, rfl⟩ := Render.done_pure.mp h
    exact .cons (Expr.written_outline he) (ih hes)

theorem written_conditionOutline {columns : List String}
    (h : (renderCondition { columns, bare := true } o).Done b sql b') :
    (conditionOutline o).Written b sql b' := by
  cases o with
  | expression e => exact Expr.written_outline h
  | value v | column c | raw text | ordering item direction =>
    exact absurd h Render.not_done_throw

/-- A mutation writes its assignments one after another, and then its condition. -/
theorem done_render : (d.render o).Done b sql b' ↔ ∃ texts b₁ condition,
    Render.Done (d.assigned.mapM (Expr.render { columns := d.table.keys, bare := true }))
      b texts b₁ ∧
    (renderCondition { columns := d.table.keys, bare := true } o).Done b₁ condition b' ∧
    sql = "ALTER TABLE `" ++ d.table.name ++ "` " ++ d.kind.verb ++ (match d.kind with
      | .delete => ""
      | .update => " " ++ ", ".intercalate texts) ++ " WHERE " ++ condition := by
  obtain ⟨kind, table, condition, assignments, statement⟩ := d
  cases kind with
  | delete =>
    simp only [render, assigned, pure_bind, List.mapM_nil, Render.done_bind, Render.done_pure]
    constructor
    · rintro ⟨text, b₁, hwhere, rfl, rfl⟩
      exact ⟨[], b, text, ⟨rfl, rfl⟩, hwhere, rfl⟩
    · rintro ⟨texts, b₁, text, ⟨rfl, rfl⟩, hwhere, rfl⟩
      exact ⟨text, b', hwhere, rfl, rfl⟩
  | update =>
    have hassigned : (assignments.map (assignment table)).mapM
        (Expr.render { columns := table.keys, bare := true }) =
          assignments.mapM (renderAssignment { columns := table.keys, bare := true } table) :=
      List.mapM_map
    simp only [render, assigned, hassigned, pure_bind, Render.done_bind, Render.done_pure]
    constructor
    · rintro ⟨texts, b₁, htexts, text, b₂, hwhere, rfl, rfl⟩
      exact ⟨texts, b₁, text, htexts, hwhere, rfl⟩
    · rintro ⟨texts, b₁, text, htexts, hwhere, rfl⟩
      exact ⟨texts, b₁, htexts, text, b', hwhere, rfl, rfl⟩

/-- What a mutation writes and binds is its outline. -/
theorem written_outline (hc : d.condition = some o) (h : (d.render o).Done b sql b') :
    d.outline.Written b sql b' := by
  obtain ⟨texts, b₁, condition, hassigned, hcondition, rfl⟩ := done_render.mp h
  have hwhere : Outline.Written (.text " WHERE " :: d.condition.toList.flatMap conditionOutline)
      b₁ (" WHERE " ++ condition) b' := by
    rw [hc, Option.toList_some, List.flatMap_singleton]
    exact (written_conditionOutline hcondition).cons _
  have hall : Outline.AllWritten (d.assigned.map (Expr.outline Column.bare)) b texts b₁ :=
    allWritten_of_mapM hassigned
  unfold outline
  generalize "ALTER TABLE `" ++ d.table.name ++ "` " ++ d.kind.verb = head
  rw [String.append_assoc, String.append_assoc]
  refine Outline.Written.cons (.append ?_ hwhere) head
  rcases hk : d.kind with _ | _
  · simp only [assigned, hk, List.map_nil] at hall
    cases hall
    exact Outline.written_nil b
  · exact (hall.spaced ", ").cons " "

/-- Expressions are rendered in a row when each of them can be written. -/
theorem exists_done_mapM {scope : Scope} {es : List Expr} :
    (∃ sqls b', Render.Done (es.mapM (Expr.render scope)) b sqls b') ↔
      ∀ e ∈ es, e.body.Writable := by
  have hall : Writing.SucceedsIff (es.mapM fun e ↦ Writing.rendering (e.render scope))
      (∀ e ∈ es, e.body.Writable) :=
    Writing.succeedsIff_mapM fun e _ ↦ Writing.succeedsIff_render scope e
  rw [← Writing.rendering_mapM] at hall
  simpa only [Writing.done_rendering] using hall b

theorem exists_done_condition {scope : Scope} :
    (∃ sql b', (renderCondition scope o).Done b sql b') ↔ o.WritableCondition := by
  cases o with
  | expression e =>
    constructor
    · intro h
      exact ⟨e, rfl, Body.exists_done_render.mp h⟩
    · rintro ⟨_, ⟨⟩, he⟩
      exact Body.exists_done_render.mpr he
  | value v | column c | raw text | ordering item direction =>
    refine iff_of_false ?_ ?_
    · rintro ⟨sql, b', h⟩
      exact Render.not_done_throw h
    · rintro ⟨_, ⟨⟩, -⟩

/-- A mutation is rendered when it can be written. -/
theorem exists_done_render (hc : d.condition = some o) :
    (∃ sql b', (d.render o).Done b sql b') ↔ d.Writable := by
  simp only [done_render, Writable, hc, Option.mem_some, forall_eq']
  constructor
  · rintro ⟨sql, b', texts, b₁, condition, hassigned, hcondition, -⟩
    exact ⟨exists_done_mapM.mp ⟨texts, b₁, hassigned⟩,
      exists_done_condition.mp ⟨condition, b', hcondition⟩⟩
  · rintro ⟨hassigned, hcondition⟩
    obtain ⟨texts, b₁, hassigned⟩ := exists_done_mapM.mpr hassigned
    obtain ⟨condition, b', hcondition⟩ := exists_done_condition.mpr hcondition
    exact ⟨_, b', texts, b₁, condition, hassigned, hcondition, rfl⟩

/-- The statement of a mutation that passes its checks is what it writes from number one on. -/
theorem toSql_eq_ok (ho : d.checked = .ok o) :
    d.toSql = .ok (sql, params) ↔ ∃ b, (d.render o).Done {} sql b ∧ params = b.params := by
  unfold toSql Render.Done Render.outcome
  rw [ho]
  simp only [bind, Except.bind]
  rcases ((d.render o).run {} : Except Failure String × Bindings) with ⟨e | text, b⟩
  · refine iff_of_false (fun h ↦ by cases h) ?_
    rintro ⟨b', h, -⟩
    cases h
  · constructor
    · intro h
      cases h
      exact ⟨b, rfl, rfl⟩
    · rintro ⟨b', h, rfl⟩
      cases h
      rfl

/-- Mutations write an expression as its copy without tables is written with them, whatever was
bound before: the same text, the same parameters and the same failure. A mutation that passes its
checks has a statement exactly when it can be written. The statement is the outline with bare
columns, the assignments in their order and the condition behind them. Its parameters are the serial
forms of its literals under the numbers from one on; where no text has an opening brace, each one in
the statement is that of a placeholder, and from left to right they have these numbers and the types
of the literals. -/
theorem toSql_bare :
    (∀ (columns : List String) (e : Expr) (b : Bindings),
      (e.render { columns, bare := true }).outcome b = (e.unowned.render { columns }).outcome b) ∧
    ∀ (d : MutationDraft) (o : Operand), d.checked = .ok o →
      ((∃ statement, d.toSql = .ok statement) ↔ d.Writable) ∧
      ∀ sql params, d.toSql = .ok (sql, params) → sql = d.outline.write 0 ∧
        ∃ vs, (d.literals.mapM fun l ↦ Literal.serialize l.1) = .ok vs ∧
          params = Bindings.numbered 0 vs ∧
          (d.Unbraced →
            List.Forall₂ Outline.Opens (Outline.openings sql.toList) (d.literals.zipIdx 1)) := by
  refine ⟨fun columns e b ↦ by rw [Expr.render_unowned], fun d o ho ↦ ?_⟩
  have hc := condition_of_checked d ho
  refine ⟨?_, fun sql params h ↦ ?_⟩
  · simp only [Prod.exists, toSql_eq_ok ho]
    rw [← exists_done_render hc (b := {})]
    constructor
    · rintro ⟨sql, params, b, h, -⟩
      exact ⟨sql, b, h⟩
    · rintro ⟨sql, b, h⟩
      exact ⟨sql, b.params, b, h, rfl⟩
  · obtain ⟨b, hdone, rfl⟩ := (toSql_eq_ok ho).mp h
    obtain ⟨rfl, vs, hvs, rfl⟩ := written_outline hc hdone
    refine ⟨rfl, vs, ?_, Bindings.params_extend_empty vs, fun hu ↦ ?_⟩
    · rw [← literals_outline]
      exact hvs
    · rw [← literals_outline]
      exact Outline.opens_write (unbraced_outline hu) 0

private def ticketColumn (name type : String) : Column :=
  { name, type, table := some "tickets" }

private def tickets : Table :=
  { name := "tickets"
    columns := [("id", ticketColumn "id" "UInt64"), ("state", ticketColumn "state" "String"),
      ("tries", ticketColumn "tries" "UInt32")]
    options := { appendOnly := false } }

private def triesThen (text : String) (n : Int) (rest : Body) : Operand :=
  .expression ⟨{}, .column "" (ticketColumn "tries" "UInt32") (.literal text (.int n) rest)⟩

private def retried : MutationDraft where
  kind := .update
  table := tickets
  assignments := [("state", .value (.text "late")), ("tries", triesThen " + " 1 (.done ""))]
  condition := some (triesThen " < " 3 (.nested " AND NOT (" {}
    (.column "" (ticketColumn "id" "UInt64") (.literal " = " (.int 7) (.done ""))) (.done ")")))

/-- The literals of two assignments come before those of the condition, and no column is written
with its table. -/
theorem toSql_bare_retried : ∃ o sql params, retried.checked = .ok o ∧
    retried.toSql = .ok (sql, params) ∧ retried.Unbraced ∧
    sql = "ALTER TABLE `tickets` UPDATE `state` = \x7bp_1:String\x7d, " ++
      "`tries` = `tries` + \x7bp_2:UInt32\x7d WHERE `tries` < \x7bp_3:UInt32\x7d " ++
      "AND NOT (`id` = \x7bp_4:UInt64\x7d)" ∧
    params = Bindings.numbered 0 [.text "late", .int 1, .int 3, .int 7] ∧
    List.Forall₂ Outline.Opens (Outline.openings sql.toList)
      [((.text "late", "String"), 1), ((.int 1, "UInt32"), 2), ((.int 3, "UInt32"), 3),
        ((.int 7, "UInt64"), 4)] := by
  have hunbraced : retried.Unbraced := by decide
  obtain ⟨hsql, vs, hvs, hparams, hopens⟩ := (toSql_bare.2 retried _ rfl).2 _ _ rfl
  obtain rfl : [.text "late", .int 1, .int 3, .int 7] = vs := Except.ok.inj hvs
  exact ⟨_, _, _, rfl, rfl, hunbraced, rfl, rfl, hopens hunbraced⟩

end MutationDraft

end Columnar
