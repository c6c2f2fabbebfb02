import Columnar.Proofs.Fetch.Levels
import Columnar.Proofs.Fetch.Resolved
import Columnar.Schema.Community

/-!
# Scopes of joins

Each relation of a fetch is joined on a condition over columns of tables that stand before it: of
its own table and of the one above it, which is the source or was joined earlier
(`Fetch.query_scoped`). What a condition mentions are the columns in its slots, at any depth. The
joins of a level come before those of the levels below it, and a scope only grows, so the induction
over the tree needs no more than that the table above is in scope (`Node.inScope_joined`).
-/

namespace Columnar

/-! ### Columns that are mentioned -/

/-- The columns in the slots of a body, at any depth. -/
def Body.columns : Body → List Column
  | missing => []
  | done _ => []
  | column _ c rest => c :: rest.columns
  | nested _ _ inner rest => inner.columns ++ rest.columns
  | literal _ _ rest => rest.columns
  | raw _ _ rest => rest.columns

/-- The columns that an operand mentions. -/
def Operand.columns : Operand → List Column
  | column c => [c]
  | expression e => e.body.columns
  | _ => []

namespace Body

theorem columns_cons (text : String) (o : Operand) (rest : Body) :
    (cons text o.slot rest).columns = o.columns ++ rest.columns := by
  cases o <;> rfl

theorem columns_weave (head : String) (pieces : List (Operand × String)) :
    (Expr.weave head pieces).body.columns = pieces.flatMap fun p ↦ p.1.columns := by
  induction pieces generalizing head with
  | nil => rfl
  | cons p pieces ih =>
    show (cons head p.1.slot (Expr.weave p.2 pieces).body).columns = _
    rw [columns_cons, ih, List.flatMap_cons]

end Body

theorem map_fst_separated (separator last : String) (os : List Operand) :
    (separated separator last os).map Prod.fst = os := by
  induction os with
  | nil => rfl
  | cons o os ih =>
    cases os with
    | nil => rfl
    | cons next os => rw [separated, List.map_cons, ih]; exact List.cons_ne_nil next os

/-- A combination mentions what its operands do. -/
theorem Operand.columns_combine (keyword : String) (os : List Operand) :
    (combine keyword os).columns ⊆ os.flatMap columns := by
  have hkept : os.filter (fun o ↦ !o.isDropped) ⊆ os :=
    fun _ ho ↦ List.mem_of_mem_filter ho
  unfold combine
  split
  · exact List.nil_subset _
  · next o hone =>
    rw [hone] at hkept
    intro c hc
    exact List.mem_flatMap.mpr ⟨o, hkept (List.mem_singleton_self o), hc⟩
  · next kept _ _ =>
    intro c hc
    change c ∈ (Expr.weave _ _).body.columns at hc
    rw [Body.columns_weave] at hc
    obtain ⟨p, hp, hc⟩ := List.mem_flatMap.mp hc
    have hmem : p.1 ∈ (separated _ _ _).map Prod.fst := List.mem_map_of_mem hp
    rw [map_fst_separated] at hmem
    exact List.mem_flatMap.mpr ⟨p.1, hkept hmem, hc⟩

/-- A relation is joined on its fields and references. -/
theorem Relation.columns_joinCondition {c : Catalog} {r : Relation} {e : Expr}
    (h : r.joinCondition? c = .ok (some e)) : e.body.columns ⊆ r.fields ++ r.references := by
  unfold joinCondition? at h
  split at h
  · cases h
  · split at h
    · cases h
    · simp only at h
      split at h
      · next condition hall =>
        cases h
        intro col hcol
        have hsub := Operand.columns_combine "AND" ((r.fields.zip r.references).map fun p ↦
          Operand.expression (Expr.eq (.column p.1) (.column p.2)))
        change Operand.columns (Operand.all _) ⊆ _ at hsub
        rw [hall] at hsub
        obtain ⟨o, ho, hcol⟩ := List.mem_flatMap.mp (hsub hcol)
        obtain ⟨p, hp, rfl⟩ := List.mem_map.mp ho
        have hpair : col = p.1 ∨ col = p.2 := by
          simpa [Operand.columns, Expr.eq, Expr.between2, Body.columns_weave] using hcol
        obtain ⟨hfield, hreference⟩ := List.of_mem_zip hp
        rcases hpair with rfl | rfl
        · exact List.mem_append_left _ hfield
        · exact List.mem_append_right _ hreference
      · cases h

/-! ### Tables in scope -/

/-- A column of a table. -/
def Table.Owns (t : Table) (c : Column) : Prop := c ∈ t.columns.map Prod.snd

instance (t : Table) (c : Column) : Decidable (t.Owns c) :=
  inferInstanceAs (Decidable (c ∈ t.columns.map Prod.snd))

/-- Joins of tables that come one after another: each has a condition, and mentions columns of its
table and of those in scope, which are then joined by its own. -/
def Join.AllInScope (scope : List Table) : List (Table × Join) → Prop
  | [] => True
  | (t, j) :: rest => (∃ e, j.on = some e ∧ ∀ c ∈ e.body.columns, ∃ s ∈ t :: scope, s.Owns c) ∧
      AllInScope (t :: scope) rest

namespace Join

variable {scope wider : List Table} {xs ys : List (Table × Join)}

/-- More tables in scope do no harm. -/
theorem AllInScope.mono (h : AllInScope scope xs) (hsub : scope ⊆ wider) :
    AllInScope wider xs := by
  induction xs generalizing scope wider with
  | nil => exact trivial
  | cons x xs ih =>
    obtain ⟨⟨e, he, howned⟩, hxs⟩ := h
    have hwider : x.1 :: scope ⊆ x.1 :: wider := List.cons_subset_cons _ hsub
    refine ⟨⟨e, he, fun c hc ↦ ?_⟩, ih hxs hwider⟩
    obtain ⟨s, hs, hc⟩ := howned c hc
    exact ⟨s, hwider hs, hc⟩

/-- Joins that are in scope from the start stay so behind others. -/
theorem AllInScope.append (hxs : AllInScope scope xs) (hys : AllInScope scope ys) :
    AllInScope scope (xs ++ ys) := by
  induction xs generalizing scope with
  | nil => exact hys
  | cons x xs ih => exact ⟨hxs.1, ih hxs.2 (hys.mono (List.subset_cons_self _ _))⟩

end Join

/-! ### Relations over their own columns -/

/-- A relation of a table between columns of the table and columns of the target. -/
structure Relation.Owned (c : Catalog) (id : TableId) (r : Relation) : Prop where
  fields : ∀ field ∈ r.fields, (c.table id).Owns field
  references : ∀ reference ∈ r.references, (c.table r.target).Owns reference

namespace Node

mutual

/-- A requested relation of a table, declared between columns of both sides and filtered by columns
of the target, and so are those below it. -/
def OwnedAt (c : Catalog) (id : TableId) : Node → Prop
  | .mk level children => ∀ relation ∈ Keyed.find? level.name (c.entry id).relations,
      relation.Owned c id ∧
        (∀ o ∈ level.filter?, ∀ col ∈ o.columns, (c.table relation.target).Owns col) ∧
        AllOwned c relation.target children

/-- Requested relations of a table over their own columns. -/
def AllOwned (c : Catalog) (id : TableId) : List Node → Prop
  | [] => True
  | n :: rest => n.OwnedAt c id ∧ AllOwned c id rest

end

/-- The condition of a join mentions columns of the two tables that it relates. -/
theorem owns_of_mem_on {c : Catalog} {id : TableId} {path : List String}
    {request : String × Choice} {relation : Relation} {level : Level}
    (hlevel : level.Resolves c id path request relation) (howned : relation.Owned c id)
    (hfilter : ∀ o ∈ level.filter?, ∀ col ∈ o.columns, (c.table relation.target).Owns col)
    {col : Column} (hcol : col ∈ level.on.body.columns) :
    (c.table id).Owns col ∨ level.table.Owns col := by
  rw [hlevel.table]
  have hcondition (hcol : col ∈ level.condition.body.columns) :
      (c.table id).Owns col ∨ (c.table relation.target).Owns col :=
    (List.mem_append.mp (Relation.columns_joinCondition hlevel.condition hcol)).imp
      (howned.fields col) (howned.references col)
  unfold Level.on at hcol
  split at hcol
  · next o ho =>
    split at hcol
    · exact hcondition hcol
    · rw [Body.columns_weave] at hcol
      obtain ⟨p, hp, hcol⟩ := List.mem_flatMap.mp hcol
      simp only [List.mem_cons, List.not_mem_nil, or_false] at hp
      rcases hp with rfl | rfl
      · exact hcondition hcol
      · exact .inr (hfilter o ho col hcol)
  · exact hcondition hcol

/-- The joins of the relations of a table that is in scope are in scope. -/
theorem inScope_joined (strategy : JoinStrategy) {c : Catalog} {id : TableId} {path : List String}
    {requests : List (String × Choice)} {nodes : List Node}
    (hresolve : AllResolve c id path nodes requests) (howned : AllOwned c id nodes)
    {scope : List Table} (hscope : c.table id ∈ scope) :
    Join.AllInScope scope ((joined (c.table id) nodes).map fun j ↦
      (j.2.table, j.2.join strategy j.1)) := by
  induction nodes using forest_induction generalizing id path requests scope with
  | nil => exact trivial
  | cons level children rest ihChildren ihRest =>
    obtain ⟨request, others, -, ⟨relation, hlevel, hbelow⟩, hrest⟩ := hresolve
    obtain ⟨hown, hothers⟩ := howned
    have hdeclared : relation ∈ Keyed.find? level.name (c.entry id).relations := by
      have h := hlevel.declared
      unfold Plan.relation? at h
      split at h
      · rwa [hlevel.name]
      · cases h
    obtain ⟨hfields, hfilter, hchildren⟩ := hown relation hdeclared
    rw [joined, joinedOf, List.map_append, List.map_cons]
    refine .append ⟨⟨level.on, rfl, fun col hcol ↦ ?_⟩, ?_⟩ (ihRest hrest hothers hscope)
    · rcases owns_of_mem_on hlevel hfields hfilter hcol with hcol | hcol
      · exact ⟨_, List.mem_cons_of_mem _ hscope, hcol⟩
      · exact ⟨_, List.mem_cons_self, hcol⟩
    · split
      · exact trivial
      · next hnot =>
        rw [if_neg hnot] at hbelow
        have htable := hlevel.table
        have hmem : c.table relation.target ∈ level.table :: scope := htable ▸ List.mem_cons_self
        have hinner := ihChildren hbelow hchildren hmem
        rwa [← htable] at hinner

theorem tables_eq_map {nodes : List Node} (h : AggregatesLeaves nodes) (source : Table) :
    tables nodes = (joined source nodes).map fun j ↦ j.2.table := by
  induction nodes using forest_induction generalizing source with
  | nil => rfl
  | cons level children rest ihChildren ihRest =>
    obtain ⟨⟨hlevel, hchildren⟩, hrest⟩ := h
    rw [tables, tablesOf, joined, joinedOf, List.map_append, List.map_cons, ← ihRest hrest]
    split
    · next haggregated => rw [(hlevel haggregated).2, tables, List.map_nil]
    · rw [← ihChildren hchildren]

end Node

/-! ### The query -/

/-- A plain column. -/
def Operand.isColumn : Operand → Bool
  | column _ => true
  | _ => false

theorem Fetch.selectedColumns_eq (s : Selection) :
    selectedColumns s = (s.map Prod.snd).filter Operand.isColumn := by
  induction s with
  | nil => rfl
  | cons e s ih =>
    obtain ⟨name, o⟩ := e
    rw [selectedColumns, List.filterMap_cons, List.map_cons, List.filter_cons, ← ih]
    cases o <;> rfl

/-- A fetch joins each relation of its plan once, on a condition over columns of the source, of its
own table and of tables joined before it, provided that the relations are declared between columns
of both sides and filtered by columns of the target. Where a relation is aggregated the query is
grouped by the plain columns that it selects, in order, and not at all otherwise. -/
theorem Fetch.query_scoped {c : Catalog} {id : TableId} {requests : List (String × Choice)}
    {nodes : List Node} (hplan : (Plan.root c id requests).result = .ok nodes)
    (howned : Node.AllOwned c id nodes) {options : FindOptions} {q : Query}
    (hq : query (c.entry id).source nodes options = .ok q) :
    q.clauses.joins.map (·.table) = (Node.tables nodes).map (·.name) ∧
      Join.AllInScope [c.table id] ((Node.tables nodes).zip q.clauses.joins) ∧
      q.clauses.groupBy = if Node.anyAggregates nodes
        then (q.clauses.selection.map Prod.snd).filter Operand.isColumn else [] := by
  obtain ⟨condition, rfl⟩ := query_eq hq
  have hleaves := Plan.aggregatesLeaves_of_root hplan
  have hresolve := (Plan.resolved_of_root hplan).1
  refine ⟨Node.tables_joins options.strategy hleaves _, ?_, ?_⟩
  · show Join.AllInScope _ ((Node.tables nodes).zip
      (Node.joins options.strategy (c.table id) nodes))
    rw [Node.tables_eq_map hleaves (c.table id), Node.joins_eq_map, List.zip_map']
    exact Node.inScope_joined options.strategy hresolve howned (List.mem_singleton_self _)
  · show (if _ then _ else _) = _
    rw [selectedColumns_eq]
    rfl

/-! ### Users with a profile and posts -/

private def columnOf (t : Table) (key : String) : Operand :=
  .column ((Keyed.find? key t.columns).getD default)

private def gold : Operand :=
  .expression (Expr.eq (columnOf Community.badges "label") (.value (.text "gold")))

/-- The profile with its gold badges, and the posts. -/
private def goldAndPosts : List (String × Choice) :=
  [("profile", .fields [("with", .tree [("badges", .fields [("where", .filter (.fixed gold))])])]),
    ("posts", .plain (.bool true))]

private def profileAndPosts : List Node :=
  [.mk { name := "profile", kind := .one, table := Community.profiles, stem := "profile_"
         condition := Expr.eq (columnOf Community.users "id")
           (columnOf Community.profiles "user_id")
         options := { related := some [("badges", .fields [("where", .filter (.fixed gold))])] }
         aggregated := false }
      [.mk { name := "badges", kind := .many, table := Community.badges, stem := "profile__badges_"
             condition := Expr.eq (columnOf Community.profiles "id")
               (columnOf Community.badges "profile_id")
             options := { filter := .fixed gold }, aggregated := false } []],
    .mk { name := "posts", kind := .many, table := Community.posts, stem := "posts_"
          condition := Expr.eq (columnOf Community.users "id") (columnOf Community.posts "user_id")
          options := {}, aggregated := true } []]

/-- Of three joins each mentions columns of users, of its own table or of an earlier one, and the
query is grouped by the columns that are selected. -/
theorem Fetch.query_scoped_users : ∃ q,
    query (Community.catalog.entry 0).source profileAndPosts {} = .ok q ∧
      q.clauses.joins.map (·.table) = ["profiles", "badges", "posts"] ∧
      Join.AllInScope [Community.users] ((Node.tables profileAndPosts).zip q.clauses.joins) ∧
      q.clauses.groupBy = (q.clauses.selection.map Prod.snd).filter Operand.isColumn := by
  have hplan : (Plan.root Community.catalog 0 goldAndPosts).result = .ok profileAndPosts := rfl
  have howned : Node.AllOwned Community.catalog 0 profileAndPosts := by
    refine ⟨?_, ?_, trivial⟩
    · rintro relation ⟨⟩
      refine ⟨⟨by decide, by decide⟩, nofun, ?_, trivial⟩
      rintro relation ⟨⟩
      refine ⟨⟨by decide, by decide⟩, ?_, trivial⟩
      rintro o ⟨⟩
      decide
    · rintro relation ⟨⟩
      exact ⟨⟨by decide, by decide⟩, nofun, trivial⟩
  obtain ⟨q, hq⟩ : ∃ q, query (Community.catalog.entry 0).source profileAndPosts {} = .ok q :=
    ⟨_, rfl⟩
  exact ⟨q, hq, query_scoped hplan howned hq⟩

end Columnar
