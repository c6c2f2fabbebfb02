import Columnar.Proofs.Fetch.Entity
import Columnar.Proofs.Succeeding

/-!
# Plans of relations

What a planned tree of relations looks like whatever was requested (`planned_of_root`): each level
has the table and the condition of a declared relation, the stem that its path gives it, and an
array of tuples exactly where it leads from the root to many rows, and then nothing below it. A stem
consists of the names on the path (`allStemmed_of_root`).
-/

namespace Columnar

/-- The level is that of a declared relation below levels with a stem, with these relations below
it. -/
structure Level.Planned (c : Catalog) (stem : String) (level : Level) (children : List Node) :
    Prop where
  declared : ∃ relation : Relation, relation.joinCondition? c = .ok (some level.condition) ∧
    level.kind = relation.kind ∧ level.table = c.table relation.target
  ownStem : level.stem = Plan.childStem stem level.name
  isAggregated : level.aggregated = (level.kind == .many && stem = "")
  leaf : level.aggregated = true → children = []

namespace Node

mutual

/-- A relation is planned below a stem, and so are those below it. -/
def PlannedAt (c : Catalog) (stem : String) : Node → Prop
  | .mk level children => level.Planned c stem children ∧ AllPlanned c level.stem children

/-- All relations are planned below a stem. -/
def AllPlanned (c : Catalog) (stem : String) : List Node → Prop
  | [] => True
  | n :: rest => n.PlannedAt c stem ∧ AllPlanned c stem rest

end

theorem allPlanned_iff {c : Catalog} {stem : String} {nodes : List Node} :
    AllPlanned c stem nodes ↔ ∀ n ∈ nodes, n.PlannedAt c stem := by
  induction nodes with
  | nil => simp [AllPlanned]
  | cons n rest ih => simp [AllPlanned, ih]

/-- Planned relations are so at each level of a tree, below some stem. -/
theorem AllPlanned.all {c : Catalog} {stem : String} {nodes : List Node}
    (h : AllPlanned c stem nodes) :
    All (fun level children ↦ ∃ stem, level.Planned c stem children) nodes := by
  induction nodes using forest_induction generalizing stem with
  | nil => exact trivial
  | cons level children rest ihChildren ihRest =>
    obtain ⟨⟨hlevel, hchildren⟩, hrest⟩ := h
    exact ⟨⟨⟨stem, hlevel⟩, ihChildren hchildren⟩, ihRest hrest⟩

end Node

namespace Plan

/-- What is planned for one request: a relation with what `below` plans under it, or with nothing
under it, which it has where it is aggregated. -/
private theorem planned_of_entry {c : Catalog}
    {below : TableId → String → List (String × Choice) → Traced (List Node)}
    (hbelow : ∀ id stem, (below id stem []).result = .ok []) {id : TableId} {stem : String}
    {request : String × Choice} {n : Node}
    (h : (entry c below id stem request).result = .ok (some n)) :
    ∃ level children, n = .mk level children ∧ level.Planned c stem children ∧
      (children = [] ∨ ∃ id requests, (below id level.stem requests).result = .ok children) := by
  unfold entry at h
  simp only at h
  split at h
  · cases h
  · split at h
    · next relation _ =>
      obtain ⟨condition, hcondition, h⟩ := Traced.result_bind_eq_ok.mp h
      split at h
      · next condition =>
        obtain ⟨options, -, h⟩ := Traced.result_bind_eq_ok.mp h
        split at h
        · obtain ⟨_, hthrow, -⟩ := Traced.result_bind_eq_ok.mp h
          cases hthrow
        · split at h
          · obtain ⟨_, -, h⟩ := Traced.result_bind_eq_ok.mp h
            obtain ⟨children, hchildren, h⟩ := Traced.result_bind_eq_ok.mp h
            cases hchildren
            cases h
            exact ⟨_, _, rfl, ⟨⟨relation, hcondition, rfl, rfl⟩, rfl, rfl, fun _ ↦ rfl⟩, .inl rfl⟩
          · next hnot =>
            obtain ⟨children, hchildren, h⟩ := Traced.result_bind_eq_ok.mp h
            cases h
            refine ⟨_, _, rfl, ⟨⟨relation, hcondition, rfl, rfl⟩, rfl, rfl, ?_⟩,
              .inr ⟨_, _, hchildren⟩⟩
            intro haggregated
            change (relation.kind == .many && decide (stem = "")) = true at haggregated
            rw [haggregated, Bool.true_and] at hnot
            rcases hr : options.related.getD [] with _ | ⟨r, rs⟩ <;> rw [hr] at hnot hchildren
            · rw [hbelow] at hchildren
              exact (Except.ok.inj hchildren).symm
            · exact absurd rfl hnot
      · obtain ⟨_, -, h⟩ := Traced.result_bind_eq_ok.mp h
        cases h
    · obtain ⟨_, -, h⟩ := Traced.result_bind_eq_ok.mp h
      cases h

private theorem planned_of_nodes {c : Catalog} {depth : Nat} {id : TableId}
    {stem : String} {requests : List (String × Choice)} {ns : List Node}
    (h : (nodes c depth id stem requests).result = .ok ns) : Node.AllPlanned c stem ns := by
  induction depth generalizing id stem requests ns with
  | zero =>
    unfold nodes at h
    split at h
    · cases h
      exact trivial
    · cases h
  | succ depth ih =>
    obtain ⟨planned, hplanned, hns⟩ := Traced.result_bind_eq_ok.mp h
    cases hns
    rw [Traced.result_mapM] at hplanned
    refine Node.allPlanned_iff.mpr fun n hn ↦ ?_
    obtain ⟨n?, hmem, rfl⟩ := List.mem_filterMap.mp hn
    obtain ⟨request, -, hentry⟩ :=
      Succeeding.exists_of_forall₂ (Succeeding.forall₂_of_mapM hplanned).flip hmem
    have hbelow (id : TableId) (stem : String) : (nodes c depth id stem []).result = .ok [] := by
      rw [nodes_nil, Traced.result_pure]
    obtain ⟨level, children, rfl, hlevel, hchildren⟩ := planned_of_entry hbelow hentry
    refine ⟨hlevel, ?_⟩
    rcases hchildren with rfl | ⟨id, requests, hchildren⟩
    · exact trivial
    · exact ih hchildren

/-- The relations of a plan are planned, those at its root without a stem. -/
theorem planned_of_root {c : Catalog} {id : TableId} {requests : List (String × Choice)}
    {ns : List Node} (h : (root c id requests).result = .ok ns) : Node.AllPlanned c "" ns :=
  planned_of_nodes h

/-- A plan aggregates relations to many rows without relations below, and no others. -/
theorem aggregatesLeaves_of_root {c : Catalog} {id : TableId} {requests : List (String × Choice)}
    {ns : List Node} (h : (root c id requests).result = .ok ns) : Node.AggregatesLeaves ns := by
  refine (planned_of_root h).all.imp ?_
  rintro level children ⟨stem, hlevel⟩ haggregated
  refine ⟨?_, hlevel.leaf haggregated⟩
  rw [hlevel.isAggregated, Bool.and_eq_true, beq_iff_eq] at haggregated
  exact haggregated.1

end Plan

/-! ### Stems -/

namespace Node

mutual

/-- The stem of a relation at the end of a path consists of the names on it, with two underscores
between them and one behind the last, and so do the stems of the relations below. -/
def Stemmed (path : List String) : Node → Prop
  | .mk level children => level.stem = "__".intercalate (path ++ [level.name]) ++ "_" ∧
      AllStemmed (path ++ [level.name]) children

/-- The stems of relations below a path, and of those below them, consist of the names on their
paths. -/
def AllStemmed (path : List String) : List Node → Prop
  | [] => True
  | n :: rest => n.Stemmed path ∧ AllStemmed path rest

end

end Node

/-- The stem at the end of a path. -/
private def stemOf : List String → String
  | [] => ""
  | name :: path => "__".intercalate (name :: path) ++ "_"

private theorem childStem_stemOf (path : List String) (name : String) :
    Plan.childStem (stemOf path) name = "__".intercalate (path ++ [name]) ++ "_" := by
  cases path with
  | nil => simp [stemOf, Plan.childStem]
  | cons first path =>
    have hstem : stemOf (first :: path) ≠ "" := by simp [stemOf]
    rw [Plan.childStem, if_neg hstem, stemOf, String.intercalate_append_of_ne_nil
      (List.cons_ne_nil _ _) (List.cons_ne_nil _ _), String.intercalate_singleton]
    simp only [String.append_assoc]
    rfl

/-- Planned relations have the stems of their paths. -/
private theorem Node.allStemmed_of_planned {c : Catalog} {path : List String} {nodes : List Node}
    (h : AllPlanned c (stemOf path) nodes) : AllStemmed path nodes := by
  induction nodes using forest_induction generalizing path with
  | nil => exact trivial
  | cons level children rest ihChildren ihRest =>
    obtain ⟨⟨hlevel, hchildren⟩, hrest⟩ := h
    have hstem := hlevel.ownStem.trans (childStem_stemOf path level.name)
    refine ⟨⟨hstem, ihChildren ?_⟩, ihRest hrest⟩
    have hpath : stemOf (path ++ [level.name]) = level.stem := by
      rw [hstem]
      cases path <;> rfl
    rwa [hpath]

/-- The relations of a plan have the stems of their paths from the root. -/
theorem Plan.allStemmed_of_root {c : Catalog} {id : TableId} {requests : List (String × Choice)}
    {ns : List Node} (h : (root c id requests).result = .ok ns) : Node.AllStemmed [] ns :=
  Node.allStemmed_of_planned (planned_of_root h)

end Columnar
