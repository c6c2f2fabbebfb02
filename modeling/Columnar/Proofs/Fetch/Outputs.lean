import Columnar.Fetch.Select
import Columnar.Proofs.Fetch.Planned
import Mathlib.Data.List.Induction
import Mathlib.Data.List.Perm.Subperm

/-!
# What a fetch selects and joins

The query of a fetch is known from its source and its plan (`clauses_of_query`): the outputs of the
levels are set one by one in the order of the tree, and each relation is joined by its table. An
output is lost where another one has its name, so none is lost exactly when the names are distinct
(`Keyed.length_ofList_eq_iff`).
-/

namespace Columnar

/-! ### Keyed lists from entries -/

namespace Keyed

variable {α : Type}

/-- Entries that follow others are set in what the others make. -/
theorem ofList_append (xs ys : List (String × α)) :
    ofList (xs ++ ys) = ys.foldl (fun entries p ↦ set p.1 p.2 entries) (ofList xs) :=
  List.foldl_append

private theorem ofList_snoc (xs : List (String × α)) (e : String × α) :
    ofList (xs ++ [e]) = set e.1 e.2 (ofList xs) := ofList_append xs [e]

/-- What is set one by one has the keys it was given, each of them once. -/
theorem keys_ofList (es : List (String × α)) :
    (keys (ofList es)).Nodup ∧ ∀ key, key ∈ keys (ofList es) ↔ key ∈ keys es := by
  induction es using List.reverseRecOn with
  | nil => exact ⟨.nil, fun _ ↦ .rfl⟩
  | append_singleton es e ih =>
    refine ⟨ofList_snoc es e ▸ nodup_keys_set ih.1, fun key ↦ ?_⟩
    have hkeys : keys (es ++ [e]) = keys es ++ [e.1] := List.map_append
    rw [ofList_snoc, keys_set, hkeys, List.mem_append, ← ih.2 key, List.mem_singleton]
    split
    · next hmem => exact ⟨.inl, fun h ↦ h.elim id fun he ↦ he ▸ hmem⟩
    · rw [List.mem_append, List.mem_singleton]

/-- Entries with distinct keys are kept as they are. -/
theorem ofList_eq_self {es : List (String × α)} (h : (keys es).Nodup) : ofList es = es := by
  induction es using List.reverseRecOn with
  | nil => rfl
  | append_singleton es e ih =>
    have hkeys : keys (es ++ [e]) = keys es ++ [e.1] := List.map_append
    rw [hkeys] at h
    obtain ⟨hes, -, hapart⟩ := List.nodup_append.mp h
    have hnew : e.1 ∉ keys es := fun hmem ↦ hapart _ hmem _ (List.mem_singleton_self _) rfl
    rw [ofList_snoc, ih hes, set_new hnew]

/-- No entry is lost exactly when the keys are distinct. -/
theorem length_ofList_eq_iff (es : List (String × α)) :
    (ofList es).length = es.length ↔ (keys es).Nodup := by
  constructor
  · intro h
    obtain ⟨hnodup, hmem⟩ := keys_ofList es
    have hperm : (keys (ofList es)).Perm (keys es) := by
      refine (hnodup.subperm fun key ↦ (hmem key).mp).perm_of_length_le ?_
      rw [keys, keys, List.length_map, List.length_map]
      exact Nat.le_of_eq h.symm
    exact hperm.nodup_iff.mp hnodup
  · intro h
    rw [ofList_eq_self h]

end Keyed

/-! ### Outputs and joins of a plan -/

/-- The columns of a table under names with a stem. -/
def Table.outputs (stem : String) (t : Table) : Selection :=
  t.columns.map fun e ↦ (stem ++ e.1, .column e.2)

/-- The filter of a relation for its table, none where there is none. -/
def Level.filter? (level : Level) : Option Operand :=
  (level.options.filter.resolve level.table).toOption.join

/-- The condition on which a relation is joined: its own, and the filter unless the aggregate
applies it or it drops out. -/
def Level.on (level : Level) : Expr :=
  match level.filter? with
  | some o =>
    if level.aggregated || o.isDropped then level.condition
    else Expr.weave "(" [(.expression level.condition, ") AND ("), (o, ")")]
  | none => level.condition

/-- The join of a relation to a table above it. -/
def Level.join (strategy : JoinStrategy) (source : Table) (level : Level) : Join :=
  { keyword := strategy.keyword source level.table, table := level.table.name, on := some level.on }

namespace Node

mutual

/-- What is selected for a relation and those below it. -/
def outputsOf : Node → Selection
  | .mk level children =>
    if level.aggregated then
      [(level.name, .expression (Draft.aggregate level.table level.filter?))]
    else level.table.outputs level.stem ++ outputs children

/-- What is selected for relations, in the order of the tree. -/
def outputs : List Node → Selection
  | [] => []
  | n :: rest => n.outputsOf ++ outputs rest

end

mutual

/-- The joins of a relation of a table and of those below it. -/
def joinsOf (strategy : JoinStrategy) (source : Table) : Node → List Join
  | .mk level children => level.join strategy source ::
      if level.aggregated then [] else joins strategy level.table children

/-- The joins of relations of a table, in the order of the tree. -/
def joins (strategy : JoinStrategy) (source : Table) : List Node → List Join
  | [] => []
  | n :: rest => n.joinsOf strategy source ++ joins strategy source rest

end

mutual

/-- Whether a relation is aggregated, or one below it. -/
def aggregates : Node → Bool
  | .mk level children => level.aggregated || anyAggregates children

/-- Whether one of the relations is aggregated. -/
def anyAggregates : List Node → Bool
  | [] => false
  | n :: rest => n.aggregates || anyAggregates rest

end

/-- The filters of all relations can be resolved for their tables. -/
def FiltersResolve : List Node → Prop :=
  All fun level _ ↦ ∃ o, level.options.filter.resolve level.table = .ok o

/-- The outputs have the names that the relations have in a flat row. -/
theorem keys_outputs (nodes : List Node) : Keyed.keys (outputs nodes) = flatNames nodes := by
  induction nodes using forest_induction with
  | nil => rfl
  | cons level children rest ihChildren ihRest =>
    have hown : Keyed.keys (level.table.outputs level.stem) =
        level.table.keys.map (level.stem ++ ·) := by
      simp only [Keyed.keys, Table.outputs, Table.keys, List.map_map]
      rfl
    rw [outputs, outputsOf, flatNames, flatNamesOf]
    split <;> simp_all [Keyed.keys]

end Node

/-! ### The draft -/

namespace Draft

theorem addColumns_eq (stem : String) (t : Table) {d : Draft} {es : Selection}
    (h : d.selection = Keyed.ofList es) :
    d.addColumns stem t = { d with selection := Keyed.ofList (es ++ t.outputs stem) } := by
  rw [addColumns, Keyed.ofList_append, ← h, Table.outputs, List.foldl_map]

/-- The condition of a join is an expression, whatever the filter is. -/
private theorem joinCondition_condition (level : Level) :
    Query.joinCondition (condition level level.filter?) = .ok (some level.on) := by
  unfold Level.on condition
  rcases level.filter? with _ | o
  · rfl
  · by_cases ha : level.aggregated = true
    · simp [ha, Query.joinCondition]
    · have hkept : (Operand.expression level.condition).isDropped = false := rfl
      rcases ho : o.isDropped <;>
        simp [ha, ho, hkept, Operand.all, Operand.combine, separated, Query.joinCondition]

/-- One relation adds its join, and its array where it is aggregated. -/
private theorem addLevel_eq {strategy : JoinStrategy} {source : Table} {level : Level}
    {d d' : Draft} {es : Selection} (hd : d.selection = Keyed.ofList es)
    (h : d.addLevel strategy source level = .ok d') :
    d' = { selection := Keyed.ofList (es ++ if level.aggregated then
             [(level.name, .expression (aggregate level.table level.filter?))] else [])
           joins := d.joins ++ [level.join strategy source]
           aggregates := d.aggregates || level.aggregated } := by
  obtain ⟨filter, hfilter, h⟩ := Succeeding.bind_eq_ok.mp h
  have hf : filter = level.filter? := by
    rw [Level.filter?, hfilter]
    rfl
  subst hf
  rw [joinCondition_condition] at h
  cases h
  rw [hd]
  by_cases ha : level.aggregated = true
  · simp only [if_pos ha, Keyed.ofList_append]
    rfl
  · simp only [if_neg ha, List.append_nil]
    rfl

/-- Relations add their outputs and joins in the order of the tree. -/
theorem addAll_eq {strategy : JoinStrategy} {nodes : List Node} {source : Table}
    {d d' : Draft} {es : Selection} (hd : d.selection = Keyed.ofList es)
    (h : addAll strategy source nodes d = .ok d') :
    d' = { selection := Keyed.ofList (es ++ Node.outputs nodes)
           joins := d.joins ++ Node.joins strategy source nodes
           aggregates := d.aggregates || Node.anyAggregates nodes } := by
  induction nodes using Node.forest_induction generalizing source d d' es with
  | nil =>
    cases h
    simp [Node.outputs, Node.joins, Node.anyAggregates, ← hd]
  | cons level children rest ihChildren ihRest =>
    obtain ⟨d₂, hnode, hrest⟩ := Succeeding.bind_eq_ok.mp h
    obtain ⟨d₁, hlevel, hbelow⟩ := Succeeding.bind_eq_ok.mp hnode
    obtain rfl := addLevel_eq hd hlevel
    rw [Node.outputs, Node.outputsOf, Node.joins, Node.joinsOf, Node.anyAggregates, Node.aggregates]
    by_cases ha : level.aggregated = true
    · rw [if_pos ha] at hbelow
      cases hbelow
      rw [ihRest rfl hrest]
      simp [ha]
    · rw [if_neg ha] at hbelow
      rw [addColumns_eq _ _ rfl] at hbelow
      obtain rfl := ihChildren rfl hbelow
      rw [ihRest rfl hrest]
      simp [ha, Bool.or_assoc]

/-- Relations whose filters can be resolved can be added. -/
private theorem exists_addAll (strategy : JoinStrategy) {nodes : List Node}
    (h : Node.FiltersResolve nodes)
    (source : Table) (d : Draft) : ∃ d', addAll strategy source nodes d = .ok d' := by
  induction nodes using Node.forest_induction generalizing source d with
  | nil => exact ⟨d, rfl⟩
  | cons level children rest ihChildren ihRest =>
    obtain ⟨⟨⟨filter, hfilter⟩, hchildren⟩, hrest⟩ := h
    obtain ⟨d₁, hlevel⟩ : ∃ d₁, d.addLevel strategy source level = .ok d₁ := by
      have hf : filter = level.filter? := by
        rw [Level.filter?, hfilter]
        rfl
      rw [addLevel, hfilter, hf]
      simp only [bind, Except.bind, joinCondition_condition]
      exact ⟨_, rfl⟩
    obtain ⟨d₂, hnode⟩ : ∃ d₂, (Node.mk level children).addTo strategy source d = .ok d₂ := by
      rw [Node.addTo, hlevel]
      by_cases ha : level.aggregated = true
      · exact ⟨d₁, by simp only [bind, Except.bind, ha]; rfl⟩
      · obtain ⟨d₂, hbelow⟩ := ihChildren hchildren level.table
          (d₁.addColumns level.stem level.table)
        exact ⟨d₂, by simp only [bind, Except.bind, if_neg ha]; exact hbelow⟩
    obtain ⟨d', hd'⟩ := ihRest hrest source d₂
    exact ⟨d', by rw [addAll, hnode]; exact hd'⟩

end Draft

/-! ### The query -/

/-- A condition that is set for a table changes nothing else. -/
private theorem Query.filter_operand_eq {q q' : Query} {t : Table} {o : Operand}
    (hm : q.clauses.misfits.table = none) (ht : q.table? = some t)
    (h : q.filter (.operand o) = .ok q') :
    ∃ condition, q' = q.modify fun c ↦ { c with condition } := by
  simp only [filter, hm, ht] at h
  split at h
  · next hspec => cases hspec
  · cases h
    exact ⟨q.clauses.condition, by cases q; rfl⟩
  · obtain ⟨conditions, -, h⟩ := Succeeding.bind_eq_ok.mp h
    cases h
    exact ⟨_, rfl⟩
  · cases h
    exact ⟨_, rfl⟩
  · cases h

namespace Fetch

/-- The clauses that a draft makes for a source, with the options of a fetch and the condition that
its filter gives. -/
def clauses (source : Table) (d : Draft) (options : FindOptions) (condition : Option Operand) :
    Clauses where
  selection := d.selection
  final := source.options.defaultFinal
  joins := d.joins
  condition
  groupBy := if d.aggregates then selectedColumns d.selection else []
  settings := if d.joins.isEmpty then [] else [("join_use_nulls", .int 1)]
  limit := (FindOptions.counted options.limit).elim .null .int
  offset := (FindOptions.counted options.offset).elim .null .int

/-- The query of a fetch has the clauses of its draft. -/
private theorem query_eq_of_draft {source : Table × Option Query} {nodes : List Node}
    {options : FindOptions} {q : Query} (h : query source nodes options = .ok q) :
    ∃ d, addAll options.strategy source.1 nodes (({} : Draft).addColumns "" source.1) = .ok d ∧
      ∃ condition, q = .mk { clauses source.1 d options condition with
        selection := Keyed.ofList d.selection } [] (some source) := by
  obtain ⟨d, hd, h⟩ := Succeeding.bind_eq_ok.mp h
  refine ⟨d, hd, ?_⟩
  obtain ⟨selection, joins, aggregates⟩ := d
  obtain ⟨q₁, hq₁, h⟩ := Succeeding.bind_eq_ok.mp h
  cases hq₁
  obtain ⟨q₂, hq₂, h⟩ := Succeeding.bind_eq_ok.mp h
  cases hq₂
  obtain ⟨filter, -, h⟩ := Succeeding.bind_eq_ok.mp h
  cases filter with
  | none =>
    cases h
    refine ⟨none, ?_⟩
    unfold clauses
    rcases joins with _ | ⟨j, joins⟩ <;> cases aggregates <;>
      cases FindOptions.counted options.limit <;> cases FindOptions.counted options.offset <;> rfl
  | some o =>
    obtain ⟨q₃, hq₃, h⟩ := Succeeding.bind_eq_ok.mp h
    cases h
    cases joins <;> cases aggregates <;> obtain ⟨condition, rfl⟩ :=
      Query.filter_operand_eq (t := source.1) rfl rfl hq₃
    all_goals
      refine ⟨condition, ?_⟩
      unfold clauses
      cases FindOptions.counted options.limit <;> cases FindOptions.counted options.offset <;> rfl

/-- The query of a fetch selects the columns of the source and the outputs of the relations, joins
each relation by its table, and groups by all columns when a relation is aggregated. -/
theorem query_eq {source : Table × Option Query} {nodes : List Node} {options : FindOptions}
    {q : Query} (h : query source nodes options = .ok q) :
    ∃ condition, q = .mk (clauses source.1
      { selection := Keyed.ofList (source.1.outputs "" ++ Node.outputs nodes)
        joins := Node.joins options.strategy source.1 nodes
        aggregates := Node.anyAggregates nodes } options condition) [] (some source) := by
  obtain ⟨d, hd, h⟩ := query_eq_of_draft h
  have hnone : ({} : Draft).selection = Keyed.ofList [] := rfl
  rw [Draft.addColumns_eq "" source.1 hnone] at hd
  obtain rfl := Draft.addAll_eq rfl hd
  dsimp only at h
  rwa [Keyed.ofList_eq_self (Keyed.keys_ofList _).1] at h

/-- The query of a fetch exists when its filters can be resolved, that of the source to an
expression or to nothing, which is then its condition. -/
theorem exists_query {source : Table × Option Query} {nodes : List Node} {options : FindOptions}
    {condition : Option Expr}
    (h : Node.FiltersResolve nodes)
    (hcondition : options.filter.resolve source.1 = .ok (condition.map .expression)) :
    ∃ q, query source nodes options = .ok q ∧
      q.clauses.condition = condition.map .expression := by
  obtain ⟨d, hd⟩ := Draft.exists_addAll options.strategy h source.1
    (({} : Draft).addColumns "" source.1)
  rw [query, hd, hcondition]
  obtain ⟨selection, joins, aggregates⟩ := d
  cases condition <;> cases joins <;> cases aggregates <;>
    cases FindOptions.counted options.limit <;> cases FindOptions.counted options.offset <;>
    exact ⟨_, rfl, rfl⟩

/-- The outputs have the names of the columns of the source, and those of the relations. -/
theorem keys_outputs (t : Table) (nodes : List Node) :
    Keyed.keys (t.outputs "" ++ Node.outputs nodes) = t.keys ++ Node.flatNames nodes := by
  rw [← Node.keys_outputs, Keyed.keys, List.map_append]
  simp [Table.outputs, Table.keys, Keyed.keys]

/-- Outputs with distinct names are all selected. -/
theorem query_eq_of_nodup {source : Table × Option Query} {nodes : List Node}
    {options : FindOptions} {q : Query} (h : query source nodes options = .ok q)
    (hflat : (source.1.keys ++ Node.flatNames nodes).Nodup) :
    ∃ condition, q = .mk (clauses source.1
      { selection := source.1.outputs "" ++ Node.outputs nodes
        joins := Node.joins options.strategy source.1 nodes
        aggregates := Node.anyAggregates nodes } options condition) [] (some source) := by
  obtain ⟨condition, hq⟩ := query_eq h
  rw [Keyed.ofList_eq_self (keys_outputs source.1 nodes ▸ hflat)] at hq
  exact ⟨condition, hq⟩

end Fetch

end Columnar
