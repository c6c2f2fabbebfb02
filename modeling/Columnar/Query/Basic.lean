import Columnar.Query.Misfits
import Columnar.Table

/-!
# Queries

A query holds the clauses of a SELECT, named subqueries in front of it and the source it reads:
a table, or another query under a table's name. Builders never change a query but answer a new
one. A selection may wait as a function of the columns until the source is known.
-/

namespace Columnar

/-- One joined table; a cross join has no condition. -/
structure Join where
  keyword : String
  table : String
  on : Option Expr := none
  deriving Repr, Inhabited

/-- One array expanded to a row per item. -/
structure ArrayJoin where
  item : Operand
  aliasName : Option String := none
  deriving Repr, Inhabited

/-- One item of an ordering. -/
structure OrderItem where
  item : Operand
  direction : Direction := .asc
  deriving Repr, Inhabited

/-- A fraction of the rows, and where it begins. -/
structure Sample where
  ratio : Value
  offset : Value := .null
  deriving Repr, Inhabited

/-- What is selected, under its names. -/
abbrev Selection := List (String × Operand)

/-- The clauses of a query. An empty selection stands for all columns, a null limit or offset
for none. -/
structure Clauses where
  selection : Selection := []
  pending : Option (Columns → Except Failure Selection) := none
  distinct : Bool := false
  final : Bool := false
  joins : List Join := []
  arrayJoins : List ArrayJoin := []
  prewhere : Option Operand := none
  condition : Option Operand := none
  groupBy : List Operand := []
  having : Option Operand := none
  orderBy : List OrderItem := []
  limit : Value := .null
  offset : Value := .null
  sample : Option Sample := none
  settings : List (String × Value) := []
  windows : List (String × String) := []
  suggestions : List String := []
  /-- What stands in place of clauses. -/
  misfits : Misfits := {}
  deriving Inhabited

/-- A query: its clauses, the named subqueries in front of it, and its source. A source with a
query is a derived table. -/
inductive Query where
  | mk (clauses : Clauses) (ctes : List (String × Query)) (source : Option (Table × Option Query))

namespace Query

/-- A query without any clause. -/
def empty : Query := mk {} [] none

instance : Inhabited Query := ⟨empty⟩

/-- The clauses. -/
def clauses : Query → Clauses
  | mk c _ _ => c

/-- The named subqueries. -/
def ctes : Query → List (String × Query)
  | mk _ ctes _ => ctes

/-- The source. -/
def source : Query → Option (Table × Option Query)
  | mk _ _ source => source

/-- The table that is read. -/
def table? (q : Query) : Option Table := q.source.map Prod.fst

/-- Whether the query reads another query. -/
def readsQuery (q : Query) : Bool := q.source.any fun s ↦ s.2.isSome

/-- The same query with other clauses. -/
def withClauses (q : Query) (c : Clauses) : Query := mk c q.ctes q.source

/-- The same query with another source. -/
def withSource (q : Query) (source : Option (Table × Option Query)) : Query :=
  mk q.clauses q.ctes source

/-- The clauses of a query with other clauses. -/
@[simp] theorem clauses_withClauses (q : Query) (c : Clauses) : (q.withClauses c).clauses = c := rfl

/-- The columns of the source, asked for as an attribute of it. -/
def columns (q : Query) : Except Failure Columns :=
  match q.clauses.misfits.table, q.table? with
  | some v, _ => .error (v.lacks "c")
  | none, some t => .ok t.columns
  | none, none => .error (Value.null.lacks "c")

/-- The keywords of the joins. -/
def joinKeywords (q : Query) : Except Failure (List String) := do
  Misfits.visit "type" q.clauses.misfits.joins
  return q.clauses.joins.map (·.keyword)

/-- Whether merged rows are read, as it was given. -/
def finalValue (q : Query) : Value := q.clauses.misfits.final.getD (.bool q.clauses.final)

/-- The hints, as they were given. -/
def suggestionsValue (q : Query) : Value :=
  q.clauses.misfits.suggestions.getD (.list (q.clauses.suggestions.map .text))

/-- The type of a selected item, `String` when it declares none. -/
def selectedType : Operand → String
  | .column c => c.type
  | .expression e => (e.label.type.filter (· ≠ "")).getD "String"
  | _ => "String"

/-- Whether a selected item may be null: only columns may. -/
def selectedNullable : Operand → Bool
  | .column c => c.nullable
  | _ => false

/-- The columns of a derived table: one for each selected item, or those of the source when all
columns are selected. -/
def derivedColumns (q : Query) (aliasName : String) : Columns :=
  if !q.clauses.selection.isEmpty then
    q.clauses.selection.map fun e ↦
      (e.1, { name := e.1, type := selectedType e.2, table := some aliasName,
              nullable := selectedNullable e.2 })
  else
    match q.table? with
    | some t => t.columns.map fun e ↦
      (e.1, { name := e.1, type := e.2.type, table := some aliasName, nullable := e.2.nullable })
    | none => []

/-- Whether a query's columns can be named: a selection must be a mapping from names, and without
one the source must have columns. -/
def checkDerivable (q : Query) : Except Failure Unit :=
  match q.clauses.misfits.selection, q.clauses.misfits.table with
  | some (.map _), _ => .error (.invalid [⟨["name"], .stringType⟩])
  | some v, _ => .error (v.lacks "items")
  | none, some v => if q.clauses.selection.isEmpty then .error (v.lacks "columns") else .ok ()
  | none, none => .ok ()

/-- The table that a query reads as under a name. -/
def derivedTable (q : Query) (aliasName : String) : Except Failure Table := do
  q.checkDerivable
  return { name := aliasName, columns := q.derivedColumns aliasName }

end Query

end Columnar
