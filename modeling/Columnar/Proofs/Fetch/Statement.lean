import Columnar.Proofs.Fetch.Levels
import Columnar.Proofs.Writable

/-!
# The statement of a fetch

The statement of a fetch selects each output under its name: a column of a level as it is, and of a
relation that is aggregated an array of the tuples of its columns (`Node.AllSelectedAs`). It exists
exactly when the filters can be written, since everything else always can (`exists_statement_iff`).
-/

namespace Columnar

/-! ### Arrays of tuples -/

/-- Columns in a row, with commas between them. -/
def Columns.listed (columns : Columns) : String :=
  ", ".intercalate (columns.map fun e ↦ e.2.qualified)

/-- A list of columns is written as they are. -/
private theorem done_render_columns {ks : List String} {columns : Columns} {soFar : String}
    {position : Nat} {last : Option Column} {b b' : Bindings} {sql : String} :
    ((Expr.list (columns.map fun e ↦ .column e.2) (.value (.text ", "))).body.render
      { columns := ks } soFar position last).Done b sql b' ↔
        sql = soFar ++ columns.listed ∧ b' = b := by
  induction columns generalizing soFar position last with
  | nil => exact Render.done_pure
  | cons e columns ih =>
    cases columns with
    | nil =>
      have hone : (soFar ++ "" ++ e.2.qualified) ++ "" = soFar ++ Columns.listed [e] := by
        simp [Columns.listed]
      rw [← hone]
      exact Render.done_pure
    | cons e' columns =>
      have hmore : soFar ++ Columns.listed (e :: e' :: columns) =
          soFar ++ "" ++ e.2.qualified ++ "" ++ ", " ++ Columns.listed (e' :: columns) := by
        simp [Columns.listed, String.append_assoc]
      rw [hmore]
      exact ih

/-- What collects the tuples of an aggregated relation. -/
def Level.CollectedAs (level : Level) (sql : String) : Prop :=
  match level.filter? with
  | none => sql = "groupUniqArray(tuple(" ++ level.table.columns.listed ++ "))"
  | some o => ∃ scope b filter b', o.slot.WrittenAs scope none b filter b' ∧
    sql = "groupUniqArrayIf(tuple(" ++ level.table.columns.listed ++ "), " ++ filter ++ ")"

/-- The tuples of an aggregated relation are collected over its columns, as far as they meet the
filter. -/
private theorem collectedAs_of_done {level : Level} {ks : List String} {b b' : Bindings}
    {sql : String} (h : ((Draft.aggregate level.table level.filter?).render
      { columns := ks }).Done b sql b') : level.CollectedAs sql := by
  unfold Level.CollectedAs
  let columns : Slot := .expression
    (Expr.list (level.table.columns.map fun e ↦ .column e.2) (.value (.text ", ")))
  generalize level.filter? = filter at h ⊢
  rcases filter with _ | o
  · change ((Body.cons "groupUniqArray(tuple(" columns (.done "))")).render _ "" 0 none).Done
      b sql b' at h
    obtain ⟨listed, b₁, hlisted, hend⟩ := Body.done_render_cons.mp h
    obtain ⟨rfl, -⟩ := done_render_columns.mp hlisted
    obtain ⟨rfl, -⟩ := Render.done_pure.mp hend
    simp
  · change ((Body.cons "groupUniqArrayIf(tuple(" columns (.cons "), " o.slot (.done ")"))).render
      _ "" 0 none).Done b sql b' at h
    obtain ⟨listed, b₁, hlisted, hrest⟩ := Body.done_render_cons.mp h
    obtain ⟨rfl, -⟩ := done_render_columns.mp hlisted
    obtain ⟨filter, b₂, hfilter, hend⟩ := Body.done_render_cons.mp hrest
    obtain ⟨rfl, -⟩ := Render.done_pure.mp hend
    exact ⟨_, _, filter, _, hfilter, by simp⟩

/-! ### What is selected -/

/-- The columns of a table as they are selected under names with a stem. -/
def Table.selectedTexts (stem : String) (t : Table) : List String :=
  t.columns.map fun e ↦ e.2.qualified ++ " AS `" ++ stem ++ e.1 ++ "`"

namespace Node

mutual

/-- The texts that select the outputs of a relation and of those below it. -/
def SelectedAs : Node → List String → Prop
  | .mk level children, texts =>
    if level.aggregated then
      ∃ sql, level.CollectedAs sql ∧ texts = [sql ++ " AS `" ++ level.name ++ "`"]
    else ∃ below, AllSelectedAs children below ∧
      texts = level.table.selectedTexts level.stem ++ below

/-- The texts that select the outputs of relations, in the order of the tree. -/
def AllSelectedAs : List Node → List String → Prop
  | [], texts => texts = []
  | n :: rest, texts => ∃ own others, n.SelectedAs own ∧ AllSelectedAs rest others ∧
      texts = own ++ others

end

end Node

namespace Clauses

open Writing

variable {c : Clauses} {t : Table} {b b' : Bindings}

/-- An item that stands for itself and has no name of its own is selected under the one it is
given. -/
private theorem done_selected (hm : c.misfits = {}) {name : String} {item : Operand}
    (hitem : t.resolveSelected name item = pure item) (hname : outputName name item = name)
    {r : String × String × String}
    (h : (c.writeSelected t { columns := t.keys } name item).Done b r b') :
    ∃ sql, (item.render { columns := t.keys }).Done b sql b' ∧
      r.1 = sql ++ " AS `" ++ name ++ "`" ∧ r.2.1 = name := by
  have hresolve : c.resolve t name item = pure item := by
    rw [← hitem]
    simp only [resolve, hm]
  rw [writeSelected, hresolve] at h
  obtain ⟨same, hsame, h⟩ := done_traced_bind.mp h
  cases hsame
  obtain ⟨sql, b₁, hsql, h⟩ := done_bind.mp h
  obtain ⟨rfl, rfl⟩ := done_pure.mp h
  rw [hname]
  exact ⟨sql, done_rendering.mp hsql, rfl, rfl⟩

/-- The columns of a table are selected in their order. -/
private theorem done_outputs (hm : c.misfits = {}) {stem : String} {u : Table}
    (halias : ∀ e ∈ u.columns, e.2.aliasName = none) {items : List (String × String × String)}
    (h : ((u.outputs stem).mapM fun e ↦
      c.writeSelected t { columns := t.keys } e.1 e.2).Done b items b') :
    items.map Prod.fst = u.selectedTexts stem ∧
      items.map (fun i ↦ i.2.1) = u.keys.map (stem ++ ·) := by
  rw [Table.outputs, List.mapM_map] at h
  rw [Table.selectedTexts, Table.keys, Keyed.keys]
  generalize u.columns = columns at halias h
  induction columns generalizing b items with
  | nil =>
    obtain ⟨rfl, rfl⟩ := done_pure.mp h
    exact ⟨rfl, rfl⟩
  | cons e columns ih =>
    rw [List.mapM_cons] at h
    obtain ⟨item, b₁, hitem, h⟩ := done_bind.mp h
    obtain ⟨rest, b₂, hrest, h⟩ := done_bind.mp h
    obtain ⟨rfl, rfl⟩ := done_pure.mp h
    have hname : outputName (stem ++ e.1) (.column e.2) = stem ++ e.1 := by
      rw [outputName, halias e (by simp)]
      rfl
    obtain ⟨sql, hsql, htext, hkey⟩ := done_selected hm rfl hname hitem
    obtain ⟨rfl, -⟩ := Render.done_pure.mp hsql
    obtain ⟨htexts, hkeys⟩ := ih (fun e he ↦ halias e (by simp [he])) hrest
    have hcolumn : Scope.column { columns := t.keys } e.2 = e.2.qualified := rfl
    simp [htext, hkey, htexts, hkeys, hcolumn, String.append_assoc]

/-- Relations are selected in the order of the tree. -/
private theorem done_allOutputs (hm : c.misfits = {}) {nodes : List Node}
    (halias : ∀ u ∈ Node.tables nodes, ∀ e ∈ u.columns, e.2.aliasName = none)
    {items : List (String × String × String)}
    (h : ((Node.outputs nodes).mapM fun e ↦
      c.writeSelected t { columns := t.keys } e.1 e.2).Done b items b') :
    Node.AllSelectedAs nodes (items.map Prod.fst) ∧
      items.map (fun i ↦ i.2.1) = Node.flatNames nodes := by
  induction nodes using Node.forest_induction generalizing b items b' with
  | nil =>
    obtain ⟨rfl, rfl⟩ := done_pure.mp h
    exact ⟨rfl, rfl⟩
  | cons level children rest ihChildren ihRest =>
    simp only [Node.tables, Node.tablesOf, List.forall_mem_append, List.forall_mem_cons] at halias
    obtain ⟨⟨hown, hchildren⟩, hrest⟩ := halias
    rw [Node.outputs, List.mapM_append] at h
    obtain ⟨here, b₁, hhere, h⟩ := done_bind.mp h
    obtain ⟨others, b₂, hothers, h⟩ := done_bind.mp h
    obtain ⟨rfl, rfl⟩ := done_pure.mp h
    obtain ⟨htexts, hnames⟩ := ihRest hrest hothers
    have hnode : Node.SelectedAs (.mk level children) (here.map Prod.fst) ∧
        here.map (fun i ↦ i.2.1) = Node.flatNamesOf (.mk level children) := by
      rw [Node.outputsOf] at hhere
      rw [Node.SelectedAs, Node.flatNamesOf]
      by_cases ha : level.aggregated = true
      · simp only [if_pos ha, List.mapM_cons, List.mapM_nil, pure_bind] at hhere ⊢
        obtain ⟨item, b₃, hitem, hhere⟩ := done_bind.mp hhere
        obtain ⟨rfl, -⟩ := done_pure.mp hhere
        have hname : outputName level.name
            (.expression (Draft.aggregate level.table level.filter?)) = level.name := by
          cases level.filter? <;> rfl
        obtain ⟨sql, hsql, htext, hkey⟩ := done_selected hm rfl hname hitem
        exact ⟨⟨sql, collectedAs_of_done hsql, by simp [htext]⟩, by simp [hkey]⟩
      · simp only [if_neg ha] at hhere ⊢
        rw [List.mapM_append] at hhere
        obtain ⟨columns, b₃, hcolumns, hhere⟩ := done_bind.mp hhere
        obtain ⟨below, b₄, hbelow, hhere⟩ := done_bind.mp hhere
        obtain ⟨rfl, -⟩ := done_pure.mp hhere
        obtain ⟨hcolumns, hkeys⟩ := done_outputs hm hown hcolumns
        obtain ⟨hbelow, hflat⟩ := ihChildren hchildren hbelow
        rw [List.map_append, List.map_append, hcolumns, hkeys, hflat]
        exact ⟨⟨_, hbelow, rfl⟩, rfl⟩
    rw [List.map_append, List.map_append, hnode.2, hnames, Node.flatNames]
    exact ⟨⟨_, _, hnode.1, htexts, rfl⟩, rfl⟩

/-- What is selected by texts: all of them, or everything where there are none. -/
def selectList (texts : List String) : String :=
  if texts.isEmpty then "*" else ", ".intercalate texts

/-- A selection of outputs is written with their texts, and its columns have their names. -/
private theorem done_selection (hm : c.misfits = {}) (hp : c.pending = none) {nodes : List Node}
    (hc : c.selection = t.outputs "" ++ Node.outputs nodes)
    (halias : ∀ u ∈ t :: Node.tables nodes, ∀ e ∈ u.columns, e.2.aliasName = none)
    {r : String × List (String × String)}
    (h : (c.writeSelection t { columns := t.keys }).Done b r b') :
    r.2.map Prod.fst = t.keys ++ Node.flatNames nodes ∧
      ∃ texts, Node.AllSelectedAs nodes texts ∧
        r.1 = selectList (t.selectedTexts "" ++ texts) := by
  rw [writeSelection_eq (by simp [hm, hp]) (by rw [hm]), writeItems, hm] at h
  obtain ⟨items, b₁, hitems, hr⟩ := done_bind.mp h
  obtain ⟨rfl, -⟩ := done_pure.mp hr
  simp only [hc, List.mapM_append] at hitems
  obtain ⟨own, b₂, hown, hitems⟩ := done_bind.mp hitems
  obtain ⟨related, b₃, hrelated, hitems⟩ := done_bind.mp hitems
  obtain ⟨rfl, -⟩ := done_pure.mp hitems
  obtain ⟨htexts, hkeys⟩ := done_outputs hm (halias _ List.mem_cons_self) hown
  obtain ⟨hall, hnames⟩ := done_allOutputs hm (fun u hu ↦ halias u (List.mem_cons_of_mem _ hu))
    hrelated
  have hstem : t.keys.map ("" ++ ·) = t.keys := by simp
  rw [hstem] at hkeys
  rw [← htexts, ← hkeys, ← hnames]
  refine ⟨?_, _, hall, ?_⟩ <;> rw [selected]
  · split
    · next hempty =>
      obtain ⟨rfl, rfl⟩ := List.append_eq_nil_iff.mp (List.isEmpty_iff.mp hempty)
      have hnone : t.columns = [] := List.map_eq_nil_iff.mp htexts.symm
      rw [hnone]
      rfl
    · rw [← List.map_append]
      exact List.map_map
  · rw [selectList, ← List.map_append]
    cases own ++ related <;> rfl

/-- A statement without subqueries in front of it begins with what is selected. -/
private theorem sql_assemble {inner : Option (Traced Statement)} {p : Pieces}
    (hp : c.HasPieces [] t inner b p) (hd : c.distinct = false) :
    ∃ rest, (c.assemble p).sql = "SELECT " ++ p.selection.1 ++ " FROM " ++ rest := by
  have hctes : p.ctes = "" := (done_pure.mp hp.ctes).1
  have hkept (keyword text : String) (hk : keyword ≠ "") : keyword ++ text ≠ "" := by
    simp [hk]
  obtain ⟨more, hmore⟩ : ∃ more, (c.assemble p).sql =
      " ".intercalate (("SELECT " ++ p.selection.1) :: ("FROM " ++ p.source) :: more) := by
    refine ⟨[p.prewhere, p.condition, p.groupBy, p.having, p.orderBy, c.limitText, p.sample,
      p.windows, p.settings].filter (· ≠ ""), ?_⟩
    rw [assemble, hctes, hd]
    simp [List.filter_cons, hkept]
  have hfrom (text : String) : " " ++ ("FROM " ++ text) = " FROM " ++ text := by
    rw [← String.append_assoc]
    rfl
  refine ⟨" ".intercalate (p.source :: more), ?_⟩
  rw [hmore, String.intercalate_cons_cons]
  cases more <;> simp [String.intercalate_cons_cons, String.append_assoc, hfrom]

end Clauses

/-! ### The statement -/

/-- The statement selects the columns of a table and the outputs of relations, in the order of the
tree, each under its name. -/
def Statement.Selects (t : Table) (nodes : List Node) (s : Statement) : Prop :=
  s.columns.map Prod.fst = t.keys ++ Node.flatNames nodes ∧
    ∃ texts rest, Node.AllSelectedAs nodes texts ∧
      s.sql = "SELECT " ++ Clauses.selectList (t.selectedTexts "" ++ texts) ++ " FROM " ++ rest

namespace Fetch

/-- The statement of a fetch selects its outputs. -/
theorem selects_of_compile {source : Table × Option Query} {nodes : List Node}
    {options : FindOptions} {q : Query} (hq : query source nodes options = .ok q)
    (hflat : (source.1.keys ++ Node.flatNames nodes).Nodup)
    (halias : ∀ t ∈ source.1 :: Node.tables nodes, ∀ e ∈ t.columns, e.2.aliasName = none)
    {s : Statement} (hs : q.compile.result = .ok s) : s.Selects source.1 nodes := by
  obtain ⟨condition, rfl⟩ := query_eq_of_nodup hq hflat
  obtain ⟨t, inner, p, ht, hp, rfl⟩ := Query.pieces_of_compile hs
  obtain ⟨rfl, rfl⟩ := Prod.mk.inj (Option.some.inj ht)
  obtain ⟨hnames, texts, htexts, hselected⟩ :=
    Clauses.done_selection rfl rfl rfl halias hp.selection
  obtain ⟨rest, hsql⟩ := Clauses.sql_assemble hp rfl
  exact ⟨hnames, texts, rest, htexts, by rw [← hselected]; exact hsql⟩

end Fetch

/-! ### What can be written -/

/-- An expression that is woven can be written when its operands can stand in it. -/
private theorem Expr.writable_weave (text : String) (pieces : List (Operand × String)) :
    (weave text pieces).body.Writable ↔ ∀ p ∈ pieces, p.1.slot.Writable := by
  rw [weave, Body.writable_weave, List.forall_mem_map]

private theorem forall_mem_intersperse {P : Operand → Prop} {between : Operand}
    {operands : List Operand} (h : ∀ o ∈ operands, P o) (hbetween : P between) :
    ∀ o ∈ operands.intersperse between, P o := by
  induction operands with
  | nil => exact nofun
  | cons o rest ih =>
    obtain ⟨ho, hrest⟩ := List.forall_mem_cons.mp h
    cases rest with
    | nil => exact h
    | cons o' rest =>
      exact List.forall_mem_cons.mpr ⟨ho, List.forall_mem_cons.mpr ⟨hbetween, ih hrest⟩⟩

private theorem forall_mem_separated {P : Operand → Prop} {between last : String}
    {operands : List Operand} (h : ∀ o ∈ operands, P o) :
    ∀ p ∈ separated between last operands, P p.1 := by
  induction operands with
  | nil => exact nofun
  | cons o rest ih =>
    obtain ⟨ho, hrest⟩ := List.forall_mem_cons.mp h
    cases rest with
    | nil => exact List.forall_mem_cons.mpr ⟨ho, nofun⟩
    | cons o' rest => exact List.forall_mem_cons.mpr ⟨ho, ih hrest⟩

/-- A combination of operands that can stand in an expression can stand in one too. -/
private theorem Operand.writable_all {operands : List Operand}
    (h : ∀ o ∈ operands, o.slot.Writable) : (all operands).slot.Writable := by
  have hkept : ∀ o ∈ operands.filter fun o ↦ !o.isDropped, o.slot.Writable :=
    fun o ho ↦ h o (List.mem_of_mem_filter ho)
  unfold all combine
  split
  · exact ⟨nofun, _, rfl⟩
  · next o heq =>
    rw [heq] at hkept
    exact hkept o List.mem_cons_self
  · exact (Expr.writable_weave _ _).mpr (forall_mem_separated hkept)

/-- The condition of a declared relation compares columns, and can be written. -/
private theorem Relation.writable_joinCondition {c : Catalog} {r : Relation} {condition : Expr}
    (h : r.joinCondition? c = .ok (some condition)) : condition.body.Writable := by
  unfold joinCondition? at h
  split at h
  · cases h
  · split at h
    · cases h
    · have hpairs : ∀ o ∈ (r.fields.zip r.references).map fun p ↦
          Operand.expression (Expr.eq (.column p.1) (.column p.2)), o.slot.Writable :=
        List.forall_mem_map.mpr fun _ _ ↦ trivial
      have hall := Operand.writable_all hpairs
      simp only at h
      split at h
      · next e he =>
        cases h
        rwa [he] at hall
      · cases h

/-- The array of an aggregated relation can be written when its filter can. -/
private theorem Draft.writable_aggregate (t : Table) (filter : Option Operand) :
    (aggregate t filter).body.Writable ↔ ∀ o ∈ filter, o.slot.Writable := by
  have hcolumns : (Operand.expression (Expr.list (t.columns.map fun e ↦ .column e.2)
      (.value (.text ", ")))).slot.Writable := by
    refine (Expr.writable_weave _ _).mpr (List.forall_mem_map.mpr ?_)
    exact forall_mem_intersperse (List.forall_mem_map.mpr fun _ _ ↦ trivial) trivial
  unfold aggregate
  cases filter <;> simp [Expr.writable_weave, hcolumns]

/-- The condition of a join can be written when the filter can, unless the aggregate applies it. -/
private theorem Level.writable_on {level : Level} (h : level.condition.body.Writable) :
    level.on.body.Writable ↔ (level.aggregated = false → ∀ o ∈ level.filter?, o.slot.Writable) := by
  unfold on
  rcases level.filter? with _ | o
  · simpa using h
  · by_cases ha : level.aggregated = true
    · simpa [ha] using h
    · have hdropped : o.isDropped = true → o.slot.Writable := by
        intro hd
        unfold Operand.isDropped at hd
        split at hd
        · exact ⟨nofun, _, rfl⟩
        · exact ⟨nofun, _, rfl⟩
        · cases hd
      by_cases hd : o.isDropped = true
      · simpa [ha, hd, h] using hdropped hd
      · have hcondition : (Operand.expression level.condition).slot.Writable := h
        simp [ha, hd, Expr.writable_weave, hcondition]

theorem JoinStrategy.keyword_ne_cross (strategy : JoinStrategy) (source target : Table) :
    strategy.keyword source target ≠ "CROSS" := by
  unfold keyword
  simp only
  split <;> decide

/-- What is selected for relations and their joins can be written when their filters can. -/
private theorem Node.writable_outputs_joins (strategy : JoinStrategy) {c : Catalog} {stem : String}
    {nodes : List Node} (h : AllPlanned c stem nodes) (source t : Table) :
    ((∀ e ∈ outputs nodes, ∃ o, (t.resolveSelected e.1 e.2).result = .ok o ∧ o.Writable) ∧
      ∀ j ∈ joins strategy source nodes, ∀ e ∈ j.on, j.keyword = "CROSS" ∨ e.body.Writable) ↔
    All (fun level _ ↦ ∀ o ∈ level.filter?, o.slot.Writable) nodes := by
  induction nodes using forest_induction generalizing stem source with
  | nil => exact iff_of_true ⟨nofun, nofun⟩ trivial
  | cons level children rest ihChildren ihRest =>
    obtain ⟨⟨hlevel, hchildren⟩, hrest⟩ := h
    have hbelow := ihChildren hchildren level.table
    obtain ⟨relation, hcondition, -⟩ := hlevel.declared
    have hon := Level.writable_on (Relation.writable_joinCondition hcondition)
    have hjoin : (∀ e ∈ (level.join strategy source).on,
        (level.join strategy source).keyword = "CROSS" ∨ e.body.Writable) ↔
          level.on.body.Writable := by
      simp [Level.join, JoinStrategy.keyword_ne_cross]
    -- Each filter is written once: in the array of an aggregated relation, otherwise in the join.
    rw [All, Every, outputs, outputsOf, joins, joinsOf, ← ihRest hrest source]
    simp only [List.forall_mem_append, List.forall_mem_cons, hjoin, hon]
    by_cases ha : level.aggregated = true
    · obtain rfl := hlevel.leaf ha
      have haggregate : (∃ o, (t.resolveSelected level.name (.expression
          (Draft.aggregate level.table level.filter?))).result = .ok o ∧ o.Writable) ↔
            ∀ o ∈ level.filter?, o.slot.Writable := by
        rw [← Draft.writable_aggregate level.table]
        constructor
        · rintro ⟨o, ⟨⟩, hw⟩
          exact hw
        · exact fun hw ↦ ⟨_, rfl, hw⟩
      simp only [ha, if_true, List.forall_mem_cons, haggregate]
      simp [All, and_assoc]
    · have hcolumns : ∀ e ∈ level.table.outputs level.stem,
          ∃ o, (t.resolveSelected e.1 e.2).result = .ok o ∧ o.Writable := by
        refine List.forall_mem_map.mpr fun e _ ↦ ⟨_, rfl, trivial⟩
      rw [← hbelow]
      simp only [ha, Bool.false_eq_true, if_false, List.forall_mem_append, forall_const]
      constructor
      · rintro ⟨⟨⟨-, hselected⟩, hothers⟩, ⟨hfilter, hjoined⟩, hlater⟩
        exact ⟨⟨hfilter, hselected, hjoined⟩, hothers, hlater⟩
      · rintro ⟨⟨hfilter, hselected, hjoined⟩, hothers, hlater⟩
        exact ⟨⟨⟨hcolumns, hselected⟩, hothers⟩, ⟨hfilter, hjoined⟩, hlater⟩

/-- The filters of all relations can be written where they stand in expressions. -/
def Node.FiltersWritable : List Node → Prop :=
  All fun level _ ↦ ∀ o ∈ level.filter?, o.slot.Writable

namespace Fetch

/-- The query of a fetch compiles exactly when the query that its source stands for does and its
filters can be written: those of the relations as parts of expressions, that of the source as a
condition. -/
theorem exists_statement_iff {c : Catalog} {source : Table × Option Query} {nodes : List Node}
    {options : FindOptions} {q : Query} (hplan : Node.AllPlanned c "" nodes)
    (hq : query source nodes options = .ok q)
    (hflat : (source.1.keys ++ Node.flatNames nodes).Nodup) :
    (∃ s, q.compile.result = .ok s) ↔
      (∀ inner ∈ source.2, ∃ s, inner.compile.result = .ok s) ∧
        Node.FiltersWritable nodes ∧ ∀ o ∈ q.clauses.condition, o.WritableCondition := by
  obtain ⟨condition, rfl⟩ := query_eq_of_nodup hq hflat
  obtain ⟨t, inner⟩ := source
  have hcolumns : ∀ e ∈ t.outputs "",
      ∃ o, (t.resolveSelected e.1 e.2).result = .ok o ∧ o.Writable :=
    List.forall_mem_map.mpr fun e _ ↦ ⟨_, rfl, trivial⟩
  have hgroup (d : Draft) : ∀ o ∈ (clauses t d options condition).groupBy, o.Writable := by
    intro o ho
    unfold clauses at ho
    split at ho
    · obtain ⟨e, -, he⟩ := List.mem_filterMap.mp ho
      split at he <;> cases he
      exact trivial
    · cases ho
  rw [Query.exists_compile_iff rfl rfl, Node.FiltersWritable,
    ← Node.writable_outputs_joins options.strategy hplan t t]
  constructor
  · rintro ⟨-, hinner, hw⟩
    exact ⟨hinner, ⟨(List.forall_mem_append.mp hw.selection).2, hw.joins⟩, hw.condition⟩
  · rintro ⟨hinner, ⟨hselection, hjoins⟩, hcondition⟩
    exact ⟨nofun, hinner, {
      selection := List.forall_mem_append.mpr ⟨hcolumns, hselection⟩
      joins := hjoins
      arrayJoins := nofun
      prewhere := nofun
      condition := hcondition
      groupBy := hgroup _
      having := nofun
      orderBy := nofun }⟩

end Fetch

end Columnar
