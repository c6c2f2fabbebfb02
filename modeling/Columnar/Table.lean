import Columnar.Checked
import Columnar.Expr.Basic
import Columnar.Keyed

/-!
# Tables

A table has a name, columns under keys that may differ from the stored names, and options that
influence statements. `declare` makes one from columns or type names, `TableOptions.read` checks
its options.
-/

namespace Columnar

/-- Columns under their keys, in order of declaration. -/
abbrev Columns := List (String × Column)

/-- Options of a table. -/
structure TableOptions where
  /-- The primary key, by keys or stored names; the first column when empty. -/
  primaryKey : List String := []
  /-- The physical order of rows. -/
  orderBy : List String := []
  /-- The cluster the table is declared on. -/
  cluster : Option String := none
  /-- The columns rows are distributed by. -/
  shardKey : List String := []
  /-- Names of declared projections. -/
  projections : List String := []
  /-- Whether every read asks for merged rows. -/
  defaultFinal : Bool := false
  /-- Whether rows are never changed or removed. -/
  appendOnly : Bool := true
  deriving DecidableEq, Repr, Inhabited

/-- A table. -/
structure Table where
  name : String
  columns : Columns := []
  options : TableOptions := {}
  deriving DecidableEq, Repr, Inhabited

namespace Columns

/-- The column under a key, as an attribute of the columns. -/
def byName (columns : Columns) (key : String) : Except Failure Column :=
  match Keyed.find? key columns with
  | some c => .ok c
  | none => .error (.noColumnAttribute key)

/-- The column under a key, as an item of the columns. -/
def byKey (columns : Columns) (key : String) : Except Failure Column :=
  match Keyed.find? key columns with
  | some c => .ok c
  | none => .error (.noKey (.text key))

end Columns

namespace TableOptions

private def wrapped (v : Value) : Value :=
  match v with
  | .text s => .tuple [.text s]
  | v => v

/-- Reads options from named values; a single text stands for a list of one where a list is
meant, and names that are no option are left out. -/
def read (fields : List (String × Value)) : Except Failure TableOptions :=
  let names (key : String) : Checked (List String) :=
    match Keyed.find? key fields with
    | some v => Read.texts key (wrapped v)
    | none => pure []
  let flag (key : String) (default : Bool) : Checked Bool :=
    match Keyed.find? key fields with
    | some v => Checked.field key (Read.bool v)
    | none => pure default
  let cluster : Checked (Option String) :=
    match Keyed.find? "on_cluster" fields with
    | some v => Checked.field "on_cluster" (Read.optional Read.text v)
    | none => pure none
  Checked.toExcept <| mk <$> names "primary_key" <*> names "order_by" <*> cluster
    <*> names "shard_key" <*> names "projections" <*> flag "default_final" false
    <*> flag "append_only" true

end TableOptions

/-- How a column of a new table is given: as a column, by its type, or by something else. -/
inductive ColumnSpec where
  | column (c : Column)
  | type (t : String)
  | other (kind : Kind)
  deriving Repr

namespace Column

/-- Reads a column from named values; names that are no field are left out. -/
def read (fields : List (String × Value)) : Except Failure Column :=
  let required (key : String) : Checked String :=
    match Keyed.find? key fields with
    | some v => Checked.field key (Read.text v)
    | none => Checked.bad [⟨[key], .missing⟩]
  let option (key : String) : Checked (Option String) :=
    match Keyed.find? key fields with
    | some v => Checked.field key (Read.optional Read.text v)
    | none => pure none
  let nullable : Checked Bool :=
    match Keyed.find? "nullable" fields with
    | some v => Checked.field "nullable" (Read.bool v)
    | none => pure false
  Checked.toExcept <| mk <$> required "name" <*> required "type" <*> option "table_name"
    <*> nullable <*> option "alias"

end Column

namespace Table

/-- The column declared by a specification under a key. -/
def columnOf (table key : String) : ColumnSpec → Except Failure Column
  | .column c => .ok (if c.table = some table then c else c.withTable (some table))
  | .type t =>
    .ok { name := key, type := t, table := some table,
          nullable := "Nullable(".toList.isPrefixOf t.toList }
  | .other kind => .error (.notAColumn key table kind)

/-- The columns declared by specifications. -/
def columnsOf (table : String) : List (String × ColumnSpec) → Except Failure Columns
  | [] => .ok []
  | (key, spec) :: rest => do
    let c ← columnOf table key spec
    return (key, c) :: (← columnsOf table rest)

/-- Declares a table. -/
def declare (name : String) (specs : List (String × ColumnSpec))
    (options : List (String × Value)) : Except Failure Table := do
  let columns ← columnsOf name specs
  return { name, columns, options := ← TableOptions.read options }

/-- The keys of the columns. -/
def keys (t : Table) : List String := Keyed.keys t.columns

/-- The column with a key, or else with a stored name. -/
def column? (t : Table) (key : String) : Option Column :=
  (Keyed.find? key t.columns).or ((t.columns.find? fun e ↦ e.2.name = key).map Prod.snd)

/-- Whether the table is declared on a cluster or distributed. -/
def isDistributed (t : Table) : Bool :=
  t.options.cluster.any (· ≠ "") || !t.options.shardKey.isEmpty

/-- The key of a primary key entry, which may be a stored name. -/
def keyOf (t : Table) (entry : String) : Except Failure String :=
  if Keyed.contains entry t.columns then .ok entry
  else
    match t.columns.find? fun e ↦ e.2.name = entry with
    | some e => .ok e.1
    | none => .error (.noSuchPrimaryKey entry t.name)

/-- The keys of the given entries. -/
def keysOf (t : Table) : List String → Except Failure (List String)
  | [] => .ok []
  | entry :: rest => do return (← t.keyOf entry) :: (← t.keysOf rest)

/-- The keys of the primary key's columns: the first column when none is declared. -/
def primaryKeys (t : Table) : Except Failure (List String) := do
  let keys ← t.keysOf t.options.primaryKey
  return if keys.isEmpty then t.keys.take 1 else keys

/-- The table as messages show it. -/
def inspect (t : Table) : String := "Table(" ++ t.name ++ ": " ++ ", ".intercalate t.keys ++ ")"

/-- A primary key that names no column fails, any other gives a key for each entry. -/
theorem length_of_keysOf {t : Table} {entries keys : List String}
    (h : t.keysOf entries = .ok keys) : keys.length = entries.length := by
  induction entries generalizing keys with
  | nil =>
    simp only [keysOf, Except.ok.injEq] at h
    simp [← h]
  | cons e rest ih =>
    simp only [keysOf, bind, Except.bind, pure, Except.pure] at h
    split at h
    · cases h
    · split at h
      · cases h
      · rename_i hk
        cases h
        simp [ih hk]

end Table

end Columnar
