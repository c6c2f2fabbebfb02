import Columnar.Fetch.Plan
import Columnar.Query.Build

/-!
# The query of a fetch

One query fetches the rows of a table and of all planned relations. The columns of each level
are selected under names that begin with the level's stem; an aggregated relation is one array of
tuples under its own name, and then rows are grouped by all other columns.
-/

namespace Columnar

/-- What a plan adds to a query. -/
structure Draft where
  selection : Selection := []
  joins : List Join := []
  aggregates : Bool := false
  deriving Inhabited

namespace Draft

/-- Selects the columns of a table under names with a stem. -/
def addColumns (stem : String) (t : Table) (d : Draft) : Draft :=
  let add (s : Selection) (e : String × Column) : Selection :=
    Keyed.set (stem ++ e.1) (.column e.2) s
  { d with selection := t.columns.foldl add d.selection }

/-- The array of tuples of an aggregated relation, of those rows that meet the filter. -/
def aggregate (t : Table) (filter : Option Operand) : Expr :=
  let columns := Expr.list (t.columns.map fun e ↦ .column e.2) (.value (.text ", "))
  match filter with
  | none => Expr.weave "groupUniqArray(tuple(" [(.expression columns, "))")]
  | some o => Expr.weave "groupUniqArrayIf(tuple(" [(.expression columns, "), "), (o, ")")]

/-- The condition of a relation's join: the filter belongs to it unless it is applied by the
aggregate. -/
def condition (level : Level) (filter : Option Operand) : Operand :=
  match filter with
  | some o =>
    if level.aggregated then .expression level.condition
    else .all [.expression level.condition, o]
  | none => .expression level.condition

/-- Adds one relation without those below it. -/
def addLevel (strategy : JoinStrategy) (source : Table) (level : Level) (d : Draft) :
    Except Failure Draft := do
  let filter ← level.options.filter.resolve level.table
  let on ← Query.joinCondition (condition level filter)
  let keyword := strategy.keyword source level.table
  let join : Join := { keyword, table := level.table.name, on }
  let selection :=
    if level.aggregated then
      Keyed.set level.name (.expression (aggregate level.table filter)) d.selection
    else d.selection
  return { selection, joins := d.joins ++ [join], aggregates := d.aggregates || level.aggregated }

end Draft

mutual

/-- Adds a relation and those below it to a draft. -/
def Node.addTo (strategy : JoinStrategy) (source : Table) :
    Node → Draft → Except Failure Draft
  | .mk level children, d => do
    let d ← d.addLevel strategy source level
    if level.aggregated then return d
    else addAll strategy level.table children (d.addColumns level.stem level.table)

/-- Adds relations of one table, in order. -/
def addAll (strategy : JoinStrategy) (source : Table) :
    List Node → Draft → Except Failure Draft
  | [], d => .ok d
  | n :: rest, d => do addAll strategy source rest (← n.addTo strategy source d)

end

namespace Fetch

/-- The columns among selected items. -/
def selectedColumns (s : Selection) : List Operand :=
  s.filterMap fun e ↦
    match e.2 with
    | .column c => some (.column c)
    | _ => none

/-- The query that fetches a table and the planned relations. -/
def query (source : Table × Option Query) (nodes : List Node) (options : FindOptions) :
    Except Failure Query := do
  let d ← addAll options.strategy source.1 nodes (({} : Draft).addColumns "" source.1)
  let q ← Query.empty.fromSource source
  let q := q.modify fun c ↦ { c with joins := d.joins }
  let q ← q.select (.fields d.selection)
  let q := if d.aggregates then q.groupBy (selectedColumns d.selection) else q
  let q := if d.joins.isEmpty then q else q.settings [("join_use_nulls", .int 1)]
  let q ← match ← options.filter.resolve source.1 with
    | some o => q.filter (.operand o)
    | none => pure q
  let q := match FindOptions.counted options.limit with
    | some n => q.limit (.int n)
    | none => q
  return match FindOptions.counted options.offset with
    | some n => q.offset (.int n)
    | none => q

end Fetch

end Columnar
