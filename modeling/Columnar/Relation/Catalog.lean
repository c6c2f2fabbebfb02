import Columnar.Expr.Operators
import Columnar.Query.Basic

/-!
# Catalogs of tables and relations

Declared tables are numbered, and relations refer to them by number, so that tables may be
related in cycles. A relation joins columns of its table with columns of the target, pair by
pair.
-/

namespace Columnar

/-- The number of a declared table. -/
abbrev TableId := Nat

/-- Whether a relation leads to one row or to many. -/
inductive RelationKind where
  | one | many
  deriving DecidableEq, Repr, Inhabited

/-- The name of a kind of relation. -/
def RelationKind.name : RelationKind → String
  | one => "one"
  | many => "many"

/-- The kind of relation with a name. -/
def RelationKind.ofName? : String → Option RelationKind
  | "one" => some .one
  | "many" => some .many
  | _ => none

/-- A kind of relation is found by its name. -/
theorem RelationKind.ofName?_name (k : RelationKind) : ofName? k.name = some k := by
  cases k <;> rfl

/-- A relation to a target table: columns of the declaring table and the columns of the target
they must equal. -/
structure Relation where
  kind : RelationKind
  target : TableId
  fields : List Column := []
  references : List Column := []
  deriving Repr, Inhabited

/-- A declared table, derived or not, with its relations under their names. -/
structure TableEntry where
  table : Table
  inner : Option Query := none
  relations : List (String × Relation) := []
  deriving Inhabited

/-- The declared tables, by number. -/
structure Catalog where
  entries : Array TableEntry := #[]
  deriving Inhabited

/-- What a table has under a name: one thing, or all of its columns under their keys. -/
inductive Property where
  | operand (o : Operand)
  | columns (columns : Columns)
  deriving Repr

/-- What a set of columns has under a name: a column, or itself under the reserved name. -/
def Columns.property (columns : Columns) (name : String) : Except Failure Property :=
  if name = "_columns" then .ok (.columns columns)
  else return .operand (.column (← columns.byName name))

namespace TableEntry

/-- The table as the source of a query. -/
def source (e : TableEntry) : Table × Option Query := (e.table, e.inner)

/-- What a table has under a name: its own properties before its columns, and nothing of its own
under a name that begins with an underscore. -/
def property (e : TableEntry) (name : String) : Except Failure Property :=
  let value (v : Value) : Except Failure Property := .ok (.operand (.value v))
  let unknown : Except Failure Property := .error (.noTableAttribute e.table.name name)
  match name with
  | "name" => value (.text e.table.name)
  | "columns" => .ok (.columns e.table.columns)
  | "relations" => if e.relations.isEmpty then value (.map []) else unknown
  | "subquery" => if e.inner.isNone then value .null else unknown
  | "is_subquery" => value (.bool e.inner.isSome)
  | "is_distributed" => value (.bool e.table.isDistributed)
  | "primary_key_keys" => do value (.list ((← e.table.primaryKeys).map .text))
  | name =>
    if "_".toList.isPrefixOf name.toList then .error (.noAttribute "Table" name)
    else
      match Keyed.find? name e.table.columns with
      | some c => .ok (.operand (.column c))
      | none => unknown

/-- The relation with a name. -/
def relation (e : TableEntry) (name : String) : Except Failure Relation :=
  match Keyed.find? name e.relations with
  | some r => .ok r
  | none => .error (.noRelation e.table.name name (Keyed.keys e.relations))

end TableEntry

namespace Catalog

/-- The entry of a number; a number that was never given names an empty table. -/
def entry (c : Catalog) (id : TableId) : TableEntry := c.entries.getD id default

/-- The table with a number. -/
def table (c : Catalog) (id : TableId) : Table := (c.entry id).table

/-- Declares a table; its number, and the catalog that has it. -/
def declare (c : Catalog) (table : Table) (inner : Option Query := none) : TableId × Catalog :=
  (c.entries.size, ⟨c.entries.push { table, inner }⟩)

/-- Replaces the relations of a table. -/
def setRelations (c : Catalog) (id : TableId) (relations : List (String × Relation)) : Catalog :=
  ⟨c.entries.modify id fun e ↦ { e with relations }⟩

/-- A newly declared table is found under its number. -/
theorem entry_declare (c : Catalog) (table : Table) (inner : Option Query) :
    (c.declare table inner).2.entry (c.declare table inner).1 = { table, inner } := by
  simp [entry, declare]

/-- Declaring a table changes no other one. -/
theorem entry_declare_of_lt {c : Catalog} {table : Table} {inner : Option Query} {id : TableId}
    (h : id < c.entries.size) : (c.declare table inner).2.entry id = c.entry id := by
  simp [entry, declare, Array.getD, h, Nat.lt_succ_of_lt h, Array.getElem_push_lt]

end Catalog

/-- What is given as a relation. -/
inductive RelationSpec where
  | relation (r : Relation)
  | other (kind : Kind)
  deriving Repr

namespace Relation

/-- A relation of a kind to a table, with the columns of both sides as far as they are given; a
relation to one row requires them. -/
def declare (kind : RelationKind) (target : TableId) (fields references : Option (List Column)) :
    Except Failure Relation :=
  let missing := (if fields.isNone then ["fields"] else [])
    ++ (if references.isNone then ["references"] else [])
  if kind = .one && !missing.isEmpty then .error (.missingColumns kind.name missing)
  else .ok { kind, target, fields := fields.getD [], references := references.getD [] }

/-- The relations given for a table, unless one of them is something else. -/
def ofSpecs (table : String) :
    List (String × RelationSpec) → Except Failure (List (String × Relation))
  | [] => .ok []
  | (name, .relation r) :: rest => do return (name, r) :: (← ofSpecs table rest)
  | (name, .other kind) :: _ => .error (.notARelation name table kind)

/-- The condition under which rows are related: each field equals its reference. A relation
without columns has none. -/
def joinCondition? (c : Catalog) (r : Relation) : Except Failure (Option Expr) :=
  if r.fields.isEmpty || r.references.isEmpty then .ok none
  else if r.fields.length ≠ r.references.length then
    .error (.unevenRelation (c.table r.target).name r.fields.length r.references.length)
  else
    let pairs := (r.fields.zip r.references).map fun p ↦
      Operand.expression (Expr.eq (.column p.1) (.column p.2))
    match Operand.all pairs with
    | .expression e => .ok (some e)
    | _ => .ok none

end Relation

end Columnar
