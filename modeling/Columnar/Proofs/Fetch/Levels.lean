import Columnar.Proofs.Fetch.Outputs
import Columnar.Proofs.Keys.Splitting
import Mathlib.Data.List.Nodup

/-!
# Levels of a fetch

The levels of a fetch, its source and its relations, share the names of one statement. Outputs are
named after the path to a level: a relation that is aggregated has one name, its own, and any other
one has names that begin with its stem (`claims_of_mem`), so that what is to be kept apart can be
told level by level (`outputs_separate`). Tables are named as they were declared, so that levels are
kept apart as far as their tables are (`identifiers_separate`).
-/

namespace Columnar

namespace Node

/-! ### Numbers of outputs -/

mutual

/-- How many outputs a relation and those below it ask for: one for each column, or one alone where
the relation is aggregated. -/
def widthOf : Node → Nat
  | .mk level children =>
    if level.aggregated then 1 else level.table.columns.length + width children

/-- How many outputs relations ask for. -/
def width : List Node → Nat
  | [] => 0
  | n :: rest => n.widthOf + width rest

end

theorem length_outputs (nodes : List Node) : (outputs nodes).length = width nodes := by
  induction nodes using forest_induction with
  | nil => rfl
  | cons level children rest ihChildren ihRest =>
    rw [outputs, outputsOf, width, widthOf, List.length_append, ihRest]
    split
    · rfl
    · rw [List.length_append, ihChildren, Table.outputs, List.length_map]

/-! ### Names under stems -/

/-- What the names of a relation begin with, or the only one that it has. -/
def head (n : Node) : String := if n.level.aggregated then n.level.name else n.level.stem

/-- A name is one that the relation or those below it may have. -/
def Claims (n : Node) (name : String) : Prop :=
  if n.level.aggregated then n.level.name = name else n.level.stem.toList <+: name.toList

instance (n : Node) (name : String) : Decidable (n.Claims name) := by
  unfold Claims
  infer_instance

/-- Names below a level begin with its stem. -/
private theorem stem_prefix_of_mem {c : Catalog} {stem name : String} {nodes : List Node}
    (h : AllPlanned c stem nodes) (hname : name ∈ flatNames nodes) :
    stem.toList <+: name.toList := by
  induction nodes using forest_induction generalizing stem with
  | nil => cases hname
  | cons level children rest ihChildren ihRest =>
    obtain ⟨⟨hlevel, hchildren⟩, hrest⟩ := h
    rw [flatNames, flatNamesOf, List.mem_append] at hname
    rcases hname with hname | hname
    · have hstem : stem.toList <+: level.stem.toList := by
        rw [hlevel.ownStem, Plan.childStem]
        split
        · next hempty => simp [hempty]
        · simp
      split at hname
      · next ha =>
        rw [hlevel.isAggregated, Bool.and_eq_true, decide_eq_true_eq] at ha
        simp [ha.2]
      · rcases List.mem_append.mp hname with hname | hname
        · obtain ⟨key, -, rfl⟩ := List.mem_map.mp hname
          exact hstem.trans (by simp)
        · exact hstem.trans (ihChildren hchildren hname)
    · exact ihRest hrest hname

/-- A relation claims the names that it has in a flat row. -/
theorem claims_of_mem {c : Catalog} {stem name : String} {n : Node} (h : n.PlannedAt c stem)
    (hname : name ∈ n.flatNamesOf) : n.Claims name := by
  obtain ⟨level, children⟩ := n
  rw [flatNamesOf] at hname
  unfold Claims
  split at hname
  · next ha => exact (if_pos ha).mpr (List.mem_singleton.mp hname).symm
  · next ha =>
    refine (if_neg ha).mpr ?_
    rcases List.mem_append.mp hname with hname | hname
    · obtain ⟨key, -, rfl⟩ := List.mem_map.mp hname
      exact String.toList_append ▸ List.prefix_append _ _
    · exact stem_prefix_of_mem h.2 hname

/-- Of two relations that claim a name, one claims what the names of the other begin with. -/
theorem claims_head_of_claims {m n : Node} {name : String} (hm : m.Claims name)
    (hn : n.Claims name) : m.Claims n.head ∨ n.Claims m.head := by
  by_cases ha : m.level.aggregated = true <;> by_cases hb : n.level.aggregated = true <;>
    simp only [Claims, head, ha, hb, if_true] at hm hn ⊢
  · exact .inl (hm.trans hn.symm)
  · exact .inr (hm ▸ hn)
  · exact .inl (hn ▸ hm)
  · exact List.prefix_or_prefix_of_prefix hm hn

private theorem exists_of_mem_flatNames {name : String} {nodes : List Node}
    (h : name ∈ flatNames nodes) : ∃ n ∈ nodes, name ∈ n.flatNamesOf := by
  induction nodes with
  | nil => cases h
  | cons n rest ih =>
    rw [flatNames, List.mem_append] at h
    rcases h with h | h
    · exact ⟨n, List.mem_cons_self, h⟩
    · obtain ⟨m, hm, hname⟩ := ih h
      exact ⟨m, List.mem_cons_of_mem _ hm, hname⟩

/-! ### Levels that are kept apart -/

/-- The names at a level are kept apart: the keys of its table are distinct, no relation claims the
name of one of its columns, and no relation claims what the names of another one begin with. -/
structure SeparateAt (stem : String) (t : Table) (nodes : List Node) : Prop where
  keys : t.keys.Nodup
  own : ∀ key ∈ t.keys, ∀ n ∈ nodes, ¬ n.Claims (stem ++ key)
  siblings : nodes.Pairwise fun m n ↦ ¬ m.Claims n.head ∧ ¬ n.Claims m.head

/-- The names of a fetch are kept apart at its root and at each relation that is not aggregated. -/
def Separate (t : Table) (nodes : List Node) : Prop :=
  SeparateAt "" t nodes ∧ All (fun level children ↦
    level.aggregated = false → SeparateAt level.stem level.table children) nodes

/-- The names of the columns of a level and of the relations below it are distinct when those at
each level are kept apart. -/
private theorem nodup_of_separateAt {c : Catalog} {stem : String} {t : Table} {nodes : List Node}
    (hplan : AllPlanned c stem nodes) (h : SeparateAt stem t nodes)
    (hbelow : All (fun level children ↦
      level.aggregated = false → SeparateAt level.stem level.table children) nodes) :
    (t.keys.map (stem ++ ·) ++ flatNames nodes).Nodup := by
  induction nodes using forest_induction generalizing stem t with
  | nil =>
    rw [flatNames, List.append_nil]
    exact List.Nodup.map (fun _ _ ↦ (String.append_right_inj stem).mp) h.keys
  | cons level children rest ihChildren ihRest =>
    obtain ⟨hnode, hrest⟩ := hplan
    obtain ⟨⟨hlevel, hchildren⟩, hothers⟩ := hbelow
    have hfirst : (flatNamesOf (.mk level children)).Nodup := by
      rw [flatNamesOf]
      split
      · exact List.nodup_singleton _
      · next ha => exact ihChildren hnode.2 (hlevel (Bool.eq_false_iff.mpr ha)) hchildren
    have hlater := ihRest hrest ⟨h.keys, fun key hkey n hn ↦ h.own key hkey n (by simp [hn]),
      (List.pairwise_cons.mp h.siblings).2⟩ hothers
    -- A name of the first relation that comes again is claimed by it and by a column or by another
    -- relation, and of two relations one then claims what the names of the other begin with.
    have hapart : ∀ a ∈ flatNamesOf (.mk level children),
        ∀ b ∈ t.keys.map (stem ++ ·) ++ flatNames rest, a ≠ b := by
      rintro name hname _ hother rfl
      have hclaims := claims_of_mem hnode hname
      rcases List.mem_append.mp hother with hother | hother
      · obtain ⟨key, hkey, rfl⟩ := List.mem_map.mp hother
        exact h.own key hkey _ (by simp) hclaims
      · obtain ⟨n, hn, hname⟩ := exists_of_mem_flatNames hother
        obtain ⟨hnot, hnot'⟩ := (List.pairwise_cons.mp h.siblings).1 n hn
        have hclaims' := claims_of_mem (allPlanned_iff.mp hrest n hn) hname
        exact (claims_head_of_claims hclaims hclaims').elim hnot hnot'
    refine (List.perm_append_comm_assoc _ _ _).nodup_iff.mpr ?_
    exact List.nodup_append.mpr ⟨hfirst, hlater, hapart⟩

end Node

/-! ### Outputs of a fetch -/

namespace Fetch

/-- A fetch has an output for each column of its source and of each relation that is not aggregated,
and one for each that is, exactly when these have distinct names; each output then selects what it
was asked for. So it is wherever the names at each level are kept apart. -/
theorem outputs_separate {c : Catalog} {id : TableId} {requests : List (String × Choice)}
    {nodes : List Node} (hplan : (Plan.root c id requests).result = .ok nodes)
    {options : FindOptions} {q : Query}
    (hq : query (c.entry id).source nodes options = .ok q) :
    (q.clauses.selection.length = (c.table id).columns.length + Node.width nodes ↔
      ((c.table id).keys ++ Node.flatNames nodes).Nodup) ∧
    (((c.table id).keys ++ Node.flatNames nodes).Nodup →
      q.clauses.selection = (c.table id).outputs "" ++ Node.outputs nodes) ∧
    (Node.Separate (c.table id) nodes → ((c.table id).keys ++ Node.flatNames nodes).Nodup) := by
  refine ⟨?_, fun hflat ↦ ?_, fun hs ↦ ?_⟩
  · have hwidth : ((c.table id).outputs "" ++ Node.outputs nodes).length =
        (c.table id).columns.length + Node.width nodes := by
      rw [List.length_append, Node.length_outputs, Table.outputs, List.length_map]
    obtain ⟨condition, rfl⟩ := query_eq hq
    rw [← keys_outputs, ← hwidth]
    exact Keyed.length_ofList_eq_iff _
  · obtain ⟨condition, rfl⟩ := query_eq_of_nodup hq hflat
    rfl
  · have hnames := Node.nodup_of_separateAt (Plan.planned_of_root hplan) hs.1 hs.2
    simpa only [String.empty_append, List.map_id'] using hnames

end Fetch

/-! ### Tables of a fetch -/

namespace Node

mutual

/-- The tables of a relation and of those below it. -/
def tablesOf : Node → List Table
  | .mk level children => level.table :: tables children

/-- The tables of relations, in the order of the tree. -/
def tables : List Node → List Table
  | [] => []
  | n :: rest => n.tablesOf ++ tables rest

end

/-- Each relation is joined by the name of its table. -/
theorem tables_joins (strategy : JoinStrategy) {nodes : List Node} (h : AggregatesLeaves nodes)
    (source : Table) :
    (joins strategy source nodes).map (·.table) = (tables nodes).map (·.name) := by
  induction nodes using forest_induction generalizing source with
  | nil => rfl
  | cons level children rest ihChildren ihRest =>
    obtain ⟨⟨hlevel, hchildren⟩, hrest⟩ := h
    have hbelow : (if level.aggregated then [] else joins strategy level.table children).map
        (·.table) = (tables children).map (·.name) := by
      split
      · next ha => rw [(hlevel ha).2, tables, List.map_nil, List.map_nil]
      · exact ihChildren hchildren level.table
    rw [joins, joinsOf, tables, tablesOf, List.map_append, List.map_append, List.map_cons,
      List.map_cons, hbelow, ihRest hrest]
    rfl

end Node

/-- The columns of a table belong to it, and its name can be told from them: it has no backquote. -/
structure Table.OwnsColumns (t : Table) : Prop where
  owner : ∀ e ∈ t.columns, e.2.owner = some t.name
  unquoted : '`' ∉ t.name.toList

/-- A column that is written like another one belongs to a table with the same name. -/
theorem Column.owner_eq_of_qualified {a b : Column} {t u : String} (ha : a.owner = some t)
    (hb : b.owner = some u) (ht : '`' ∉ t.toList) (hu : '`' ∉ u.toList)
    (h : a.qualified = b.qualified) : t = u := by
  have hsplit {c : Column} {s : String} (hc : c.owner = some s) :
      c.qualified.toList = '`' :: (s.toList ++ '`' :: ('.' :: c.bare.toList)) := by
    simp [qualified, hc]
  have hcons : t.toList ++ '`' :: ('.' :: a.bare.toList) =
      u.toList ++ '`' :: ('.' :: b.bare.toList) := by
    rw [← List.cons_inj_right '`', ← hsplit ha, ← hsplit hb, h]
  exact String.toList_inj.mp (Splitting.eq_of_first ht hu hcons).1

/-- A column is declared for its table. -/
private theorem table_of_columnOf {table key : String} {spec : ColumnSpec} {column : Column}
    (h : Table.columnOf table key spec = .ok column) : column.table = some table := by
  cases spec with
  | column c =>
    rw [← Except.ok.inj h]
    split
    · next hc => exact hc
    · rfl
  | type t =>
    cases h
    rfl
  | other kind => cases h

private theorem table_of_columnsOf {table : String} {specs : List (String × ColumnSpec)}
    {columns : Columns} (h : Table.columnsOf table specs = .ok columns) :
    ∀ e ∈ columns, e.2.table = some table := by
  induction specs generalizing columns with
  | nil =>
    cases h
    exact nofun
  | cons spec specs ih =>
    obtain ⟨column, hcolumn, h⟩ := Succeeding.bind_eq_ok.mp h
    obtain ⟨others, hothers, h⟩ := Succeeding.bind_eq_ok.mp h
    cases h
    exact List.forall_mem_cons.mpr ⟨table_of_columnOf hcolumn, ih hothers⟩

/-- A table owns the columns that it is declared with, when it has a name without backquotes. -/
theorem Table.ownsColumns_of_declare {name : String} {specs : List (String × ColumnSpec)}
    {options : List (String × Value)} {t : Table} (h : declare name specs options = .ok t)
    (hname : name ≠ "") (hquote : '`' ∉ name.toList) : t.OwnsColumns := by
  obtain ⟨columns, hcolumns, h⟩ := Succeeding.bind_eq_ok.mp h
  obtain ⟨read, -, h⟩ := Succeeding.bind_eq_ok.mp h
  cases h
  refine ⟨fun e he ↦ ?_, hquote⟩
  rw [Column.owner, table_of_columnsOf hcolumns e he]
  simp [hname]

/-- The names under which the tables of a statement stand behind FROM and JOIN. -/
def Query.identifiers (q : Query) : List String :=
  (q.table?.map (·.name)).toList ++ q.clauses.joins.map (·.table)

/-- The names of the tables in the statement of a fetch are those of its levels. Where these are
distinct no two levels whose tables own their columns have one that is written the same. -/
theorem Fetch.identifiers_separate {c : Catalog} {id : TableId}
    {requests : List (String × Choice)} {nodes : List Node}
    (hplan : (Plan.root c id requests).result = .ok nodes) {options : FindOptions} {q : Query}
    (hq : query (c.entry id).source nodes options = .ok q) :
    (q.identifiers.Nodup ↔ ((c.table id :: Node.tables nodes).map (·.name)).Nodup) ∧
    (((c.table id :: Node.tables nodes).map (·.name)).Nodup →
      (∀ t ∈ c.table id :: Node.tables nodes, t.OwnsColumns) →
      (c.table id :: Node.tables nodes).Pairwise fun t u ↦
        ∀ a ∈ t.columns, ∀ b ∈ u.columns, a.2.qualified ≠ b.2.qualified) := by
  have hidentifiers : q.identifiers = (c.table id :: Node.tables nodes).map (·.name) := by
    obtain ⟨condition, rfl⟩ := query_eq hq
    have hjoins := Node.tables_joins options.strategy (Plan.aggregatesLeaves_of_root hplan)
      (c.entry id).source.1
    exact congrArg ((c.table id).name :: ·) hjoins
  refine ⟨by rw [hidentifiers], fun hnodup howns ↦ ?_⟩
  refine (List.pairwise_map.mp hnodup).imp_of_mem fun {t u} ht hu hne a ha b hb heq ↦ hne ?_
  exact Column.owner_eq_of_qualified ((howns t ht).owner a ha) ((howns u hu).owner b hb)
    (howns t ht).unquoted (howns u hu).unquoted heq

/-! ### Books with authors -/

private def stored (table name : String) : Column := { name, type := "UInt64", table := some table }

private def stack (name : String) (columns : List String) : Table :=
  { name, columns := columns.map fun key ↦ (key, stored name key) }

private def refers (kind : RelationKind) (target : TableId) (field reference : Column) : Relation :=
  { kind, target, fields := [field], references := [reference] }

/-- Books refer to their author by the column of the given name. -/
private def library (writer : String) : Catalog :=
  { entries := #[
      { table := stack "books" ["id", writer],
        relations := [("author", refers .one 1 (stored "books" writer) (stored "authors" "id")),
          ("marks", refers .many 2 (stored "books" "id") (stored "marks" "book"))] },
      { table := stack "authors" ["id", "name"],
        relations := [("prizes", refers .many 3 (stored "authors" "id") (stored "prizes" "to"))] },
      { table := stack "marks" ["book", "value"] },
      { table := stack "prizes" ["to", "year"] }] }

private def withPrizes : List (String × Choice) :=
  [("author", .fields [("with", .tree [("prizes", .plain (.bool true))])]),
    ("marks", .plain (.bool true))]

/-- The plan of a book's author with all prizes and of the book's marks. -/
private def prizesAndMarks (writer : String) : List Node :=
  [.mk { name := "author", kind := .one, table := stack "authors" ["id", "name"]
         condition := Expr.eq (.column (stored "books" writer)) (.column (stored "authors" "id"))
         options := { related := some [("prizes", .plain (.bool true))] }
         stem := "author_", aggregated := false }
      [.mk { name := "prizes", kind := .many, table := stack "prizes" ["to", "year"]
             condition := Expr.eq (.column (stored "authors" "id")) (.column (stored "prizes" "to"))
             options := {}, stem := "author__prizes_", aggregated := false } []],
    .mk { name := "marks", kind := .many, table := stack "marks" ["book", "value"]
          condition := Expr.eq (.column (stored "books" "id")) (.column (stored "marks" "book"))
          options := {}, stem := "marks_", aggregated := true } []]

/-- Every column has an output when books refer to their author as the writer. -/
theorem Fetch.outputs_separate_writer :
    (Plan.root (library "writer") 0 withPrizes).result = .ok (prizesAndMarks "writer") ∧
    ∃ q, query ((library "writer").entry 0).source (prizesAndMarks "writer") {} = .ok q ∧
      q.clauses.selection.length = 7 ∧ Keyed.keys q.clauses.selection = ["id", "writer",
        "author_id", "author_name", "author__prizes_to", "author__prizes_year", "marks"] := by
  have hplan : (Plan.root (library "writer") 0 withPrizes).result =
    .ok (prizesAndMarks "writer") := rfl
  obtain ⟨q, hq⟩ : ∃ q, query ((library "writer").entry 0).source (prizesAndMarks "writer") {} =
    .ok q := ⟨_, rfl⟩
  have hs : Node.Separate ((library "writer").table 0) (prizesAndMarks "writer") := by
    refine ⟨⟨by decide, by decide, by decide⟩, ⟨fun _ ↦ ?_, ⟨fun _ ↦ ?_, trivial⟩, trivial⟩,
      ⟨nofun, trivial⟩, trivial⟩
    · exact ⟨by decide, by decide, by decide⟩
    · exact ⟨by decide, by decide, by decide⟩
  obtain ⟨hlength, hselection, hnames⟩ := outputs_separate hplan hq
  exact ⟨hplan, q, hq, hlength.mpr (hnames hs), hselection (hnames hs) ▸ rfl⟩

/-- The column by which books refer to their author is lost when it is named like the author's
identity. -/
theorem Fetch.not_outputs_separate_authorId :
    (Plan.root (library "author_id") 0 withPrizes).result = .ok (prizesAndMarks "author_id") ∧
    ∃ q, query ((library "author_id").entry 0).source (prizesAndMarks "author_id") {} = .ok q ∧
      q.clauses.selection.length = 6 ∧
      ((library "author_id").table 0).columns.length + Node.width (prizesAndMarks "author_id") = 7 ∧
      Keyed.find? "author_id" q.clauses.selection = some (.column (stored "authors" "id")) :=
  ⟨rfl, _, rfl, rfl, rfl, rfl⟩

private theorem ownsColumns_stack {name : String} (columns : List String) (hname : name ≠ "")
    (hquote : '`' ∉ name.toList) : (stack name columns).OwnsColumns where
  owner := by
    intro e he
    obtain ⟨key, -, rfl⟩ := List.mem_map.mp he
    simp [stored, stack, Column.owner, hname]
  unquoted := hquote

/-- Books, authors, prizes and marks are told apart by their tables. -/
theorem Fetch.identifiers_separate_writer :
    (Plan.root (library "writer") 0 withPrizes).result = .ok (prizesAndMarks "writer") ∧
    ∃ q, query ((library "writer").entry 0).source (prizesAndMarks "writer") {} = .ok q ∧
      q.identifiers.Nodup ∧ ((library "writer").table 0 :: Node.tables
        (prizesAndMarks "writer")).Pairwise fun t u ↦
          ∀ a ∈ t.columns, ∀ b ∈ u.columns, a.2.qualified ≠ b.2.qualified := by
  have hplan : (Plan.root (library "writer") 0 withPrizes).result =
    .ok (prizesAndMarks "writer") := rfl
  obtain ⟨q, hq⟩ : ∃ q, query ((library "writer").entry 0).source (prizesAndMarks "writer") {} =
    .ok q := ⟨_, rfl⟩
  have howns : ∀ t ∈ (library "writer").table 0 :: Node.tables (prizesAndMarks "writer"),
      t.OwnsColumns := by
    change ∀ t ∈ [stack "books" _, stack "authors" _, stack "prizes" _, stack "marks" _], _
    simp only [List.forall_mem_cons]
    exact ⟨ownsColumns_stack _ (by decide) (by decide), ownsColumns_stack _ (by decide) (by decide),
      ownsColumns_stack _ (by decide) (by decide), ownsColumns_stack _ (by decide) (by decide),
      nofun⟩
  have hnames : (((library "writer").table 0 :: Node.tables (prizesAndMarks "writer")).map
    (·.name)).Nodup := by decide
  obtain ⟨hidentifiers, hcolumns⟩ := identifiers_separate hplan hq
  exact ⟨hplan, q, hq, hidentifiers.mpr hnames, hcolumns hnames howns⟩

/-! ### People with their managers -/

private def staff : Catalog :=
  { entries := #[
      { table := stack "people" ["id", "boss"],
        relations :=
          [("manager", refers .one 0 (stored "people" "boss") (stored "people" "id"))] }] }

/-- People and their managers are not told apart: what is selected for a manager is the column of
the person. -/
theorem Fetch.not_identifiers_separate_manager : ∃ nodes q,
    (Plan.root staff 0 [("manager", .plain (.bool true))]).result = .ok nodes ∧
    query (staff.entry 0).source nodes {} = .ok q ∧ q.identifiers = ["people", "people"] ∧
    Keyed.find? "manager_id" q.clauses.selection = Keyed.find? "id" q.clauses.selection :=
  ⟨_, _, rfl, rfl, rfl, rfl⟩

end Columnar
