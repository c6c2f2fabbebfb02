import Columnar.Proofs.Numbering

/-!
# Pieces of a statement

A statement is put together from one piece of text for each clause, written in a fixed order with
one counter. `Clauses.PiecesWith` says what the pieces are and which parameters are bound between
them, whatever writes the subqueries and the source; `done_writeWith` says that to be written is to
have pieces. So whatever compiles has pieces (`pieces_of_compile`).
-/

namespace Columnar

private theorem intercalate_blank_cons (x : String) (ys : List String) :
    " ".intercalate (x :: ys) = x ++ String.join (ys.map (" " ++ ·)) := by
  induction ys generalizing x with
  | nil => simp
  | cons y ys ih =>
    rw [String.intercalate_cons_cons, ih, List.map_cons, String.join_cons, String.append_assoc,
      String.append_assoc]

/-- Behind a text, each of the others stands behind a blank. -/
theorem intercalate_append {xs ys : List String} (h : xs ≠ []) :
    " ".intercalate (xs ++ ys) = " ".intercalate xs ++ String.join (ys.map (" " ++ ·)) := by
  obtain ⟨x, xs, rfl⟩ := List.exists_cons_of_ne_nil h
  rw [List.cons_append, intercalate_blank_cons, intercalate_blank_cons, List.map_append,
    String.join_append, String.append_assoc]

/-- The pieces of a statement, and the bindings after each clause that may bind literals. -/
structure Pieces where
  ctes : String
  afterCtes : Bindings
  selection : String × List (String × String)
  afterSelection : Bindings
  source : String
  afterSource : Bindings
  prewhere : String
  afterPrewhere : Bindings
  condition : String
  afterCondition : Bindings
  groupBy : String
  afterGroupBy : Bindings
  having : String
  afterHaving : Bindings
  orderBy : String
  afterOrderBy : Bindings
  sample : String
  windows : String
  settings : String
  suggestions : List String

namespace Clauses

/-- The statement that is put together from pieces. -/
def assemble (c : Clauses) (p : Pieces) : Statement where
  sql := " ".intercalate ([p.ctes, "SELECT " ++ (if c.distinct then "DISTINCT " else "")
    ++ p.selection.1, "FROM " ++ p.source, p.prewhere, p.condition, p.groupBy, p.having, p.orderBy,
    c.limitText, p.sample, p.windows, p.settings].filter (· ≠ ""))
  params := p.afterOrderBy.params
  columns := p.selection.2
  suggestions := p.suggestions

/-- Writes the statement of a query with these clauses, given what writes the subqueries in front
of it and what writes its source. -/
def writeWith (c : Clauses) (t : Table) (writeCtes writeFrom : Writing String) :
    Writing Statement := do
  let scope : Scope := { columns := t.keys }
  liftM c.checkSuggestions
  liftM (Misfits.visitIfAny "name" c.misfits.ctes)
  let withText ← writeCtes
  let (selected, columns) ← c.writeSelection t scope
  let fromText ← writeFrom
  let prewhere ← writeCondition "PREWHERE" scope c.prewhere
  let condition ← writeCondition "WHERE" scope c.condition
  let groups ← c.writeGroupBy scope
  let having ← writeCondition "HAVING" scope c.having
  let order ← c.writeOrderBy scope
  let sample ← liftM c.writeSample
  let windows ← liftM c.writeWindows
  let settings ← liftM (c.writeSettings t)
  let suggestions ← liftM (c.writeSuggestions t)
  let parts := [withText, "SELECT " ++ (if c.distinct then "DISTINCT " else "") ++ selected,
    "FROM " ++ fromText, prewhere, condition, groups, having, order, c.limitText, sample,
    windows, settings]
  return { sql := " ".intercalate (parts.filter (· ≠ "")), params := (← get).params, columns,
           suggestions }

/-- The clauses have these pieces when their statement is written from the bindings `b`, given what
writes the subqueries in front of it and what writes its source. -/
structure PiecesWith (c : Clauses) (t : Table) (writeCtes writeFrom : Writing String)
    (b : Bindings) (p : Pieces) : Prop where
  hints : c.checkSuggestions = .ok ()
  noCtes : Misfits.visitIfAny "name" c.misfits.ctes = .ok ()
  ctes : writeCtes.Done b p.ctes p.afterCtes
  selection : (c.writeSelection t { columns := t.keys }).Done p.afterCtes p.selection
    p.afterSelection
  source : writeFrom.Done p.afterSelection p.source p.afterSource
  prewhere : (writeCondition "PREWHERE" { columns := t.keys } c.prewhere).Done p.afterSource
    p.prewhere p.afterPrewhere
  condition : (writeCondition "WHERE" { columns := t.keys } c.condition).Done p.afterPrewhere
    p.condition p.afterCondition
  groupBy : (c.writeGroupBy { columns := t.keys }).Done p.afterCondition p.groupBy p.afterGroupBy
  having : (writeCondition "HAVING" { columns := t.keys } c.having).Done p.afterGroupBy p.having
    p.afterHaving
  orderBy : (c.writeOrderBy { columns := t.keys }).Done p.afterHaving p.orderBy p.afterOrderBy
  sample : c.writeSample = .ok p.sample
  windows : c.writeWindows = .ok p.windows
  settings : c.writeSettings t = .ok p.settings
  suggestions : c.writeSuggestions t = .ok p.suggestions

/-- A statement is written when it has pieces, and it is put together from them. -/
theorem done_writeWith {c : Clauses} {t : Table} {writeCtes writeFrom : Writing String}
    {b b' : Bindings} {s : Statement} : (c.writeWith t writeCtes writeFrom).Done b s b' ↔
      ∃ p, c.PiecesWith t writeCtes writeFrom b p ∧ s = c.assemble p ∧ b' = p.afterOrderBy := by
  constructor
  · intro h
    obtain ⟨⟨⟩, hints, h⟩ := Writing.done_check_bind.mp h
    obtain ⟨⟨⟩, noCtes, h⟩ := Writing.done_check_bind.mp h
    obtain ⟨withText, b₁, hctes, h⟩ := Writing.done_bind.mp h
    obtain ⟨selected, b₂, hselection, h⟩ := Writing.done_bind.mp h
    obtain ⟨fromText, b₃, hsource, h⟩ := Writing.done_bind.mp h
    obtain ⟨prewhere, b₄, hprewhere, h⟩ := Writing.done_bind.mp h
    obtain ⟨condition, b₅, hcondition, h⟩ := Writing.done_bind.mp h
    obtain ⟨groups, b₆, hgroupBy, h⟩ := Writing.done_bind.mp h
    obtain ⟨having', b₇, hhaving, h⟩ := Writing.done_bind.mp h
    obtain ⟨order, b₈, horderBy, h⟩ := Writing.done_bind.mp h
    obtain ⟨sample, hsample, h⟩ := Writing.done_check_bind.mp h
    obtain ⟨windows, hwindows, h⟩ := Writing.done_check_bind.mp h
    obtain ⟨settings, hsettings, h⟩ := Writing.done_check_bind.mp h
    obtain ⟨suggestions, hsuggestions, h⟩ := Writing.done_check_bind.mp h
    obtain ⟨b₉, b₁₀, hget, hend⟩ := Writing.done_bind.mp h
    obtain ⟨hb₉, hb₁₀⟩ := Writing.done_get.mp hget
    obtain ⟨hs, hb⟩ := Writing.done_pure.mp hend
    exact ⟨⟨withText, b₁, selected, b₂, fromText, b₃, prewhere, b₄, condition, b₅, groups, b₆,
      having', b₇, order, b₈, sample, windows, settings, suggestions⟩, ⟨hints, noCtes, hctes,
      hselection, hsource, hprewhere, hcondition, hgroupBy, hhaving, horderBy, hsample, hwindows,
      hsettings, hsuggestions⟩, hb₉ ▸ hs, hb.trans hb₁₀⟩
  · rintro ⟨p, h, rfl, rfl⟩
    refine Writing.done_check_bind.mpr ⟨(), h.hints, Writing.done_check_bind.mpr ⟨(), h.noCtes, ?_⟩⟩
    refine Writing.done_bind.mpr ⟨_, _, h.ctes, Writing.done_bind.mpr ⟨_, _, h.selection, ?_⟩⟩
    refine Writing.done_bind.mpr ⟨_, _, h.source, Writing.done_bind.mpr ⟨_, _, h.prewhere, ?_⟩⟩
    refine Writing.done_bind.mpr ⟨_, _, h.condition, Writing.done_bind.mpr ⟨_, _, h.groupBy, ?_⟩⟩
    refine Writing.done_bind.mpr ⟨_, _, h.having, Writing.done_bind.mpr ⟨_, _, h.orderBy, ?_⟩⟩
    refine Writing.done_check_bind.mpr ⟨_, h.sample, Writing.done_check_bind.mpr ⟨_, h.windows, ?_⟩⟩
    refine Writing.done_check_bind.mpr ⟨_, h.settings,
      Writing.done_check_bind.mpr ⟨_, h.suggestions, ?_⟩⟩
    exact Writing.done_bind.mpr ⟨_, _, Writing.done_get.mpr ⟨rfl, rfl⟩,
      Writing.done_pure.mpr ⟨rfl, rfl⟩⟩

/-- The clauses have these pieces when their statement is written from the bindings `b`. -/
structure HasPieces (c : Clauses) (ctes : List (String × Traced Statement)) (t : Table)
    (inner : Option (Traced Statement)) (b : Bindings) (p : Pieces) : Prop where
  noCtes : Misfits.visitIfAny "name" c.misfits.ctes = .ok ()
  ctes : (writeCtes ctes).Done b p.ctes p.afterCtes
  selection : (c.writeSelection t { columns := t.keys }).Done p.afterCtes p.selection
    p.afterSelection
  source : (c.writeFrom t inner { columns := t.keys }).Done p.afterSelection p.source p.afterSource
  prewhere : (writeCondition "PREWHERE" { columns := t.keys } c.prewhere).Done p.afterSource
    p.prewhere p.afterPrewhere
  condition : (writeCondition "WHERE" { columns := t.keys } c.condition).Done p.afterPrewhere
    p.condition p.afterCondition
  groupBy : (c.writeGroupBy { columns := t.keys }).Done p.afterCondition p.groupBy p.afterGroupBy
  having : (writeCondition "HAVING" { columns := t.keys } c.having).Done p.afterGroupBy p.having
    p.afterHaving
  orderBy : (c.writeOrderBy { columns := t.keys }).Done p.afterHaving p.orderBy p.afterOrderBy
  sample : c.writeSample = .ok p.sample
  windows : c.writeWindows = .ok p.windows
  settings : c.writeSettings t = .ok p.settings
  suggestions : c.writeSuggestions t = .ok p.suggestions

/-- What is written has pieces, and is put together from them. -/
theorem pieces_of_done {c : Clauses} {ctes : List (String × Traced Statement)} {t : Table}
    {inner : Option (Traced Statement)} {b b' : Bindings} {s : Statement}
    (h : (c.write ctes t inner).Done b s b') :
    ∃ p, c.HasPieces ctes t inner b p ∧ s = c.assemble p := by
  have hwrite : c.write ctes t inner =
      c.writeWith t (writeCtes ctes) (c.writeFrom t inner { columns := t.keys }) := rfl
  obtain ⟨p, hp, hs, -⟩ := done_writeWith.mp (hwrite ▸ h)
  exact ⟨p, ⟨hp.noCtes, hp.ctes, hp.selection, hp.source, hp.prewhere, hp.condition, hp.groupBy,
    hp.having, hp.orderBy, hp.sample, hp.windows, hp.settings, hp.suggestions⟩, hs⟩

/-- A source is read only when no misfit stands in its place. -/
theorem table_of_writeFrom {c : Clauses} {t : Table} {inner : Option (Traced Statement)}
    {scope : Scope} {b b' : Bindings} {sql : String}
    (h : (c.writeFrom t inner scope).Done b sql b') : c.misfits.table = none := by
  rcases hm : c.misfits.table with _ | v
  · rfl
  · simp only [writeFrom, hm] at h
    obtain ⟨_, _, ht, -⟩ := Writing.done_bind.mp h
    exact absurd ht Writing.not_done_throw

/-- The items of a selection, whatever holds them. -/
def writeItems (c : Clauses) (t : Table) (scope : Scope) :
    Writing (List (String × String × String)) :=
  match c.misfits.selection with
  | some v => do (← liftM (v.entriesFor "items")).mapM (c.writeSelectedValue t scope)
  | none => c.selection.mapM fun e ↦ c.writeSelected t scope e.1 e.2

/-- What is selected by these items, or all columns of the table where there are none. -/
def selected (t : Table) (items : List (String × String × String)) :
    String × List (String × String) :=
  if items.isEmpty then ("*", t.columns.map fun e ↦ (e.2.name, e.2.type))
  else (", ".intercalate (items.map Prod.fst), items.map Prod.snd)

/-- A selection that does not wait for a source is written item by item. -/
theorem writeSelection_eq {c : Clauses} {t : Table} {scope : Scope}
    (hp : ¬ (c.pending.isSome || c.misfits.pending.isSome) = true) (hm : c.misfits.table = none) :
    c.writeSelection t scope = do return selected t (← c.writeItems t scope) := by
  have hall : c.writeAll t = .ok (t.columns.map fun e ↦ (e.2.name, e.2.type)) := by
    rw [writeAll, hm]
  have hend (items : List (String × String × String)) :
      (if items.isEmpty then do return ("*", ← liftM (c.writeAll t))
        else return (", ".intercalate (items.map Prod.fst), items.map Prod.snd) :
        Writing (String × List (String × String))) = pure (selected t items) := by
    rw [hall]
    cases items <;> rfl
  unfold writeSelection writeItems
  rw [if_neg hp]
  rcases c.misfits.selection with _ | v
  · simp only [hend]
  · simp only [hend, bind_assoc]

/-- A selection is written only when it does not wait for a source. -/
theorem not_pending_of_writeSelection {c : Clauses} {t : Table} {scope : Scope} {b b' : Bindings}
    {r : String × List (String × String)} (h : (c.writeSelection t scope).Done b r b') :
    ¬ (c.pending.isSome || c.misfits.pending.isSome) = true := by
  intro hp
  rw [writeSelection, if_pos hp] at h
  obtain ⟨_, _, ht, -⟩ := Writing.done_bind.mp h
  exact absurd ht Writing.not_done_throw

end Clauses

/-! ### Queries -/

/-- What holds of a query where it holds of its subqueries holds of all queries. -/
theorem Query.induction {P : Query → Prop}
    (step : ∀ c ctes source, (∀ e ∈ ctes, P e.2) → (∀ t q, source = some (t, some q) → P q) →
      P (.mk c ctes source)) : ∀ q, P q
  | .mk c ctes source => step c ctes source (fun e _ ↦ Query.induction step e.2)
      (fun _ q _ ↦ Query.induction step q)
  termination_by q => sizeOf q
  decreasing_by
    · have he := List.sizeOf_lt_of_mem ‹e ∈ ctes›
      cases e
      simp only [Query.mk.sizeOf_spec, Prod.mk.sizeOf_spec] at he ⊢
      omega
    · simp only [Query.mk.sizeOf_spec, ‹source = _›, Option.some.sizeOf_spec, Prod.mk.sizeOf_spec]
      omega

/-- The named subqueries are compiled one by one. -/
theorem compileCtes_eq (ctes : List (String × Query)) :
    compileCtes ctes = ctes.map fun e ↦ (e.1, e.2.compile) := by
  induction ctes with
  | nil => simp [compileCtes]
  | cons e ctes ih => simp [compileCtes, ih]

/-- The answer of a writing that starts without bindings. -/
theorem Writing.result_run' {α : Type} {x : Writing α} {a : α} :
    (x.run' {}).result = .ok a ↔ ∃ b, x.Done {} a b := by
  constructor
  · intro h
    obtain ⟨⟨a', b⟩, hdone, ha⟩ := Traced.result_bind_eq_ok.mp h
    obtain rfl := Except.ok.inj ha
    exact ⟨b, hdone⟩
  · rintro ⟨b, h⟩
    exact Traced.result_bind_eq_ok.mpr ⟨(a, b), h, rfl⟩

/-- The statement of a query with a source is what its clauses write. -/
theorem Query.compile_eq (c : Clauses) (ctes : List (String × Query)) (t : Table)
    (inner : Option Query) : (Query.mk c ctes (some (t, inner))).compile =
      (c.write (ctes.map fun e ↦ (e.1, e.2.compile)) t (inner.map compile)).run' {} := by
  rw [compile, compileCtes_eq]
  cases inner <;> rfl

/-- A query that compiles reads a source, and its clauses write its statement. -/
theorem Query.done_of_compile {q : Query} {s : Statement} (h : q.compile.result = .ok s) :
    ∃ t inner b, q.source = some (t, inner) ∧ q.clauses.misfits.table = none ∧
      (q.clauses.write (q.ctes.map fun e ↦ (e.1, e.2.compile)) t (inner.map compile)).Done {} s b
    := by
  obtain ⟨c, ctes, source⟩ := q
  rcases source with _ | ⟨t, inner⟩
  · rw [compile, compileSource] at h
    rcases hm : c.misfits.table with _ | v <;> rw [hm] at h
    · cases h
    · obtain ⟨b, hw⟩ := Writing.result_run'.mp h
      obtain ⟨p, hp, -⟩ := Clauses.pieces_of_done hw
      cases hm.symm.trans (Clauses.table_of_writeFrom hp.source)
  · rw [compile_eq] at h
    obtain ⟨b, hw⟩ := Writing.result_run'.mp h
    obtain ⟨p, hp, -⟩ := Clauses.pieces_of_done hw
    exact ⟨t, inner, b, rfl, Clauses.table_of_writeFrom hp.source, hw⟩

/-- A query that compiles reads a source, and its statement has pieces. -/
theorem Query.pieces_of_compile {q : Query} {s : Statement} (h : q.compile.result = .ok s) :
    ∃ t inner p, q.source = some (t, inner) ∧
      q.clauses.HasPieces (q.ctes.map fun e ↦ (e.1, e.2.compile)) t (inner.map compile) {} p ∧
      s = q.clauses.assemble p := by
  obtain ⟨t, inner, b, hsource, -, hw⟩ := done_of_compile h
  obtain ⟨p, hp, hs⟩ := Clauses.pieces_of_done hw
  exact ⟨t, inner, p, hsource, hp, hs⟩

end Columnar
