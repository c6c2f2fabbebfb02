import Columnar.Error

/-!
# Columns

A column is its stored name, the type of its values, the table that owns it and the name under
which it is selected. Columns are the leaves of expressions and are written in backquotes.
-/

namespace Columnar

/-- A column of a table, or a free one. -/
structure Column where
  name : String
  type : String
  table : Option String := none
  nullable : Bool := false
  aliasName : Option String := none
  deriving DecidableEq, Repr, Inhabited

namespace Column

/-- The name of the owning table, when there is one and it is not empty. -/
def owner (c : Column) : Option String := c.table.filter (· ≠ "")

/-- The column's name in backquotes. -/
def bare (c : Column) : String := "`" ++ c.name ++ "`"

/-- The column's name in backquotes, after its table's. -/
def qualified (c : Column) : String :=
  match c.owner with
  | some table => "`" ++ table ++ "`." ++ c.bare
  | none => c.bare

/-- The column in a structural signature: table and name without quotes. -/
def signature (c : Column) : String :=
  match c.owner with
  | some table => table ++ "." ++ c.name
  | none => c.name

/-- The same column under another table. -/
def withTable (c : Column) (table : Option String) : Column := { c with table }

/-- The same column selected under another name. -/
def withAlias (c : Column) (aliasName : Option String) : Column := { c with aliasName }

/-- The column as messages show it. -/
def inspect (c : Column) : String := "Column(" ++ c.signature ++ ": " ++ c.type ++ ")"

/-- A change of the selected name does not change the written column. -/
@[simp] theorem qualified_withAlias (c : Column) (aliasName : Option String) :
    (c.withAlias aliasName).qualified = c.qualified := rfl

end Column

end Columnar
