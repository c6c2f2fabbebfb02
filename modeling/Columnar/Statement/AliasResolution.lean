import Columnar.Query.Basic
import Columnar.Text.Lower
import Columnar.Traced

/-!
# Resolution of selected names

A name that selects neither a column nor an expression stands for a column of the table. It is
looked up as it is, with underscores turned into capitals, with capitals turned into
underscores, and at last without regard to letter case.
-/

namespace Columnar

/-- A way to find the column that a selected name stands for. -/
inductive AliasStrategy where
  | direct | camelCase | snakeCase | caseInsensitive
  deriving DecidableEq, Repr

namespace AliasStrategy

/-- The strategies in the order in which they are tried. -/
def all : List AliasStrategy := [direct, camelCase, snakeCase, caseInsensitive]

/-- The name of a strategy in logs. -/
def name : AliasStrategy → String
  | direct => "direct"
  | camelCase => "camel_case"
  | snakeCase => "snake_case"
  | caseInsensitive => "case_insensitive"

/-- Characters with each underscore before a lower-case ASCII letter dropped and that letter made
a capital. -/
def camel : List Char → List Char
  | [] => []
  | [c] => [c]
  | c :: d :: rest =>
    if c == '_' && 'a' ≤ d && d ≤ 'z' then Char.ofNat (d.toNat - 32) :: camel rest
    else c :: camel (d :: rest)

/-- Characters with an underscore put in front of each ASCII capital. -/
def underscored (cs : List Char) : List Char :=
  cs.flatMap fun c ↦ if 'A' ≤ c && c ≤ 'Z' then ['_', c] else [c]

/-- The name in the style of capitals. -/
def toCamelCase (name : String) : String := String.ofList (camel name.toList)

/-- The name in the style of underscores. -/
def toSnakeCase (name : String) : String :=
  Text.lower (String.ofList (underscored name.toList))

/-- The column under a converted name, if the conversion changed it. -/
def converted (t : Table) (requested converted : String) : Option Column :=
  if converted = requested then none else t.column? converted

/-- The column a strategy finds. -/
def find? (t : Table) (aliasName : String) : AliasStrategy → Option Column
  | direct => t.column? aliasName
  | camelCase => converted t aliasName (toCamelCase aliasName)
  | snakeCase => converted t aliasName (toSnakeCase aliasName)
  | caseInsensitive =>
    let lowered := Text.lower aliasName
    (t.columns.find? fun e ↦ Text.lower e.1 == lowered || Text.lower e.2.name == lowered).map
      Prod.snd

end AliasStrategy

namespace Table

/-- The first strategy that finds a column, and that column. -/
def resolve? (t : Table) (aliasName : String) : Option (AliasStrategy × Column) :=
  AliasStrategy.all.findSome? fun s ↦ (s.find? t aliasName).map (s, ·)

/-- The column that a selected name stands for; a column that is found is logged. -/
def resolveAlias (t : Table) (aliasName : String) : Traced (Option Column) :=
  match t.resolve? aliasName with
  | some (s, c) => do
    Traced.record .debug
      ("Resolved select alias " ++ Text.quote aliasName ++ " with the " ++ s.name ++ " strategy")
    return some c
  | none => return none

/-- What is selected under a name: a column or an expression as it is, for anything else the
column that the name stands for. -/
def resolveSelected (t : Table) (aliasName : String) (item : Operand) : Traced Operand := do
  match item with
  | .column c => return .column c
  | .expression e => return .expression e
  | o =>
    match ← t.resolveAlias aliasName with
    | some c => return .column c
    | none =>
      let got := match o with
        | .value .null | .value .undefined => none
        | o => some o.kind
      throw (.unknownField aliasName got t.name (t.columns.map fun e ↦ (e.1, e.2.name)))

end Table

end Columnar
