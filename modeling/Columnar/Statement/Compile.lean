import Columnar.Statement.AliasResolution
import Columnar.Statement.Inline
import Columnar.Statement.Setting

/-!
# Compiling queries

A query becomes one statement. Its clauses are written in a fixed order, empty ones left out, and
the literals of all of them are numbered by one counter. Subqueries are compiled on their own and
inlined where they stand. A misfit in place of a clause fails where that clause would be written,
unless it can be read as what the clause should hold.
-/

namespace Columnar

/-- Writing a clause: what is written or a failure, the parameters bound until then and the
records logged. -/
abbrev Writing := StateT Bindings Traced

namespace Writing

/-- Renders part of a clause. -/
def rendering {α : Type} (r : Render α) : Writing α := fun b ↦
  match r.run b with
  | (.ok a, b) => pure (a, b)
  | (.error e, _) => throw e

/-- Compiles a subquery and writes it where it stands. -/
def inlining (s : Traced Statement) : Writing String := do
  let statement ← liftM s
  modifyGet statement.inline

end Writing

namespace Clauses

/-- The subqueries in front of the statement. -/
def writeCtes (ctes : List (String × Traced Statement)) : Writing String := do
  let texts ← ctes.mapM fun e ↦ do
    return e.1 ++ " AS (" ++ (← Writing.inlining e.2) ++ ")"
  return if texts.isEmpty then "" else "WITH " ++ ", ".intercalate texts

/-- The name under which an item is selected: its own, or the one given for it. -/
def outputName (aliasName : String) (item : Operand) : String :=
  let own := match item with
    | .column c => c.aliasName
    | .expression e => e.label.aliasName
    | _ => none
  (own.filter (· ≠ "")).getD aliasName

/-- The type of a selected item, `String` when it has none. -/
def outputType (item : Operand) : String :=
  let own := match item with
    | .column c => some c.type
    | .expression e => e.label.type
    | _ => none
  (own.filter (· ≠ "")).getD "String"

/-- What is selected under a name; without a table it must be selected by itself. -/
def resolve (c : Clauses) (t : Table) (aliasName : String) (item : Operand) : Traced Operand :=
  match c.misfits.table, item with
  | none, item => t.resolveSelected aliasName item
  | some _, .column column => return .column column
  | some _, .expression e => return .expression e
  | some v, _ => throw (v.lacks "get_column")

/-- One selected item: its text, and the name and type of its column. -/
def writeSelected (c : Clauses) (t : Table) (scope : Scope) (aliasName : String)
    (item : Operand) : Writing (String × String × String) := do
  let item ← liftM (c.resolve t aliasName item)
  let name := outputName aliasName item
  let sql ← Writing.rendering (item.render scope)
  return (sql ++ " AS `" ++ name ++ "`", name, outputType item)

/-- One selected value under a name that need not be text. -/
def writeSelectedValue (c : Clauses) (t : Table) (scope : Scope) (e : Value × Value) :
    Writing (String × String × String) :=
  match e.1, c.misfits.table with
  | .text aliasName, _ => c.writeSelected t scope aliasName (.value e.2)
  | _, some v => throw (v.lacks "get_column")
  | key, none => throw (.nameNotText key.kind)

/-- All columns of the table. -/
def writeAll (c : Clauses) (t : Table) : Except Failure (List (String × String)) :=
  match c.misfits.table with
  | some v => .error (v.lacks "columns")
  | none => .ok (t.columns.map fun e ↦ (e.2.name, e.2.type))

/-- The selected items, and the names and types of the columns. -/
def writeSelection (c : Clauses) (t : Table) (scope : Scope) :
    Writing (String × List (String × String)) := do
  if c.pending.isSome || c.misfits.pending.isSome then throw .pendingSelection
  let items ← match c.misfits.selection with
    | some v => do (← liftM (v.entriesFor "items")).mapM (c.writeSelectedValue t scope)
    | none => c.selection.mapM fun e ↦ c.writeSelected t scope e.1 e.2
  if items.isEmpty then return ("*", ← liftM (c.writeAll t))
  return (", ".intercalate (items.map Prod.fst), items.map Prod.snd)

/-- A condition or null where an expression is asked to do something. -/
def asExpr (method : String) : Operand → Except Failure Expr
  | .expression e => .ok e
  | o => .error (.noAttribute o.kind.native method)

/-- One join. -/
def writeJoin (scope : Scope) (j : Join) : Writing String := do
  let head := " " ++ j.keyword ++ " JOIN `" ++ j.table ++ "`"
  match j.on with
  | none => return head
  | some on =>
    if j.keyword = "CROSS" then return head
    else return head ++ " ON " ++ (← Writing.rendering (on.render scope))

/-- One expanded array. -/
def writeArrayJoin (scope : Scope) (a : ArrayJoin) : Writing String := do
  let sql ← Writing.rendering (a.item.render scope)
  return match a.aliasName.filter (· ≠ "") with
    | some aliasName => sql ++ " AS `" ++ aliasName ++ "`"
    | none => sql

/-- The source, the joins and the expanded arrays. -/
def writeFrom (c : Clauses) (t : Table) (inner : Option (Traced Statement)) (scope : Scope) :
    Writing String := do
  if let some v := c.misfits.table then throw (v.lacks "is_subquery")
  let source ← match inner with
    | some s => do pure ("(" ++ (← Writing.inlining s) ++ ") AS `" ++ t.name ++ "`")
    | none => pure ("`" ++ t.name ++ "`" ++ (if c.final then " FINAL" else ""))
  liftM (Misfits.visit "type" c.misfits.joins)
  let joins ← c.joins.mapM (writeJoin scope)
  liftM (Misfits.visitIfAny "expression" c.misfits.arrayJoins)
  let arrays ← c.arrayJoins.mapM (writeArrayJoin scope)
  let arrayText := if arrays.isEmpty then "" else " ARRAY JOIN " ++ ", ".intercalate arrays
  return source ++ String.join joins ++ arrayText

/-- A condition after its keyword. -/
def writeCondition (keyword : String) (scope : Scope) : Option Operand → Writing String
  | none => return ""
  | some o => do
    let e ← liftM (asExpr "render" o)
    return keyword ++ " " ++ (← Writing.rendering (e.render scope))

/-- The items of a grouping. -/
def writeGroupBy (c : Clauses) (scope : Scope) : Writing String := do
  if let some v := c.misfits.groupBy then throw (.notIterable v.kind)
  if c.groupBy.isEmpty then return ""
  let items ← c.groupBy.mapM fun o ↦ Writing.rendering (o.render scope)
  return "GROUP BY " ++ ", ".intercalate items

/-- Whether the text of an ordering ends in a direction of its own. -/
def hasDirection (sql : String) : Bool :=
  Text.endsInKeyword " ASC" sql || Text.endsInKeyword " DESC" sql

/-- One item of an ordering with its direction, unless its text ends in one already. -/
def directed (sql : String) (direction : Direction) : String :=
  if hasDirection sql then sql else sql ++ " " ++ direction.keyword

/-- The items of an ordering. -/
def writeOrderBy (c : Clauses) (scope : Scope) : Writing String := do
  liftM (Misfits.visitIfAny "expression" c.misfits.orderBy)
  if c.orderBy.isEmpty then return ""
  let items ← c.orderBy.mapM fun o ↦ do
    return directed (← Writing.rendering (o.item.render scope)) o.direction
  return "ORDER BY " ++ ", ".intercalate items

/-- The number of rows and how many are skipped; without a limit none are. -/
def limitText (c : Clauses) : String :=
  match c.limit, c.offset with
  | .null, _ => ""
  | n, .null => "LIMIT " ++ n.display
  | n, k => "LIMIT " ++ n.display ++ " OFFSET " ++ k.display

/-- The fraction of the rows that is read. -/
def sampleText (c : Clauses) : String :=
  match c.sample with
  | none => ""
  | some ⟨ratio, .null⟩ => "SAMPLE " ++ ratio.display
  | some ⟨ratio, offset⟩ => "SAMPLE " ++ ratio.display ++ " OFFSET " ++ offset.display

/-- The fraction of the rows, which a misfit does not tell. -/
def writeSample (c : Clauses) : Except Failure String :=
  match c.misfits.sample with
  | some v => .error (v.lacks "offset")
  | none => .ok c.sampleText

/-- The named windows in the order of their names. -/
def windowText (c : Clauses) : String :=
  if c.windows.isEmpty then ""
  else "WINDOW " ++ ", ".intercalate
    ((Setting.sorted c.windows).map fun w ↦ w.1 ++ " AS (" ++ w.2 ++ ")")

/-- The named windows, also where names are no text. -/
def writeWindows (c : Clauses) : Except Failure String :=
  match c.misfits.windows with
  | none => .ok c.windowText
  | some v =>
    if v.isTruthy then do
      let entries ← v.sortedEntries
      return "WINDOW " ++ ", ".intercalate
        (entries.map fun w ↦ w.1.display ++ " AS (" ++ w.2.display ++ ")")
    else .ok ""

/-- Whether the query itself says if projections are read. -/
def setsProjections (c : Clauses) : Bool :=
  match c.misfits.settings with
  | none => Keyed.contains Setting.projections c.settings
  | some v =>
    match v.toEntries with
    | .ok entries => (Value.find? Setting.projections entries).isSome
    | .error _ => false

/-- Whether the table's projections are switched on without being asked for. -/
def addsProjections (c : Clauses) (t : Table) : Bool :=
  !t.options.projections.isEmpty && !c.setsProjections

/-- The settings of the statement: those given, and the projections of the table. -/
def allSettings (c : Clauses) (t : Table) : List (String × Value) :=
  if c.addsProjections t then c.settings ++ [(Setting.projections, .int 1)] else c.settings

/-- The settings in the order of their names. -/
def settingsText (c : Clauses) (t : Table) : String :=
  if (c.allSettings t).isEmpty then ""
  else "SETTINGS " ++ ", ".intercalate
    ((Setting.sorted (c.allSettings t)).map fun s ↦ s.1 ++ " = " ++ Setting.format s.2)

/-- The settings, also where names are no text. -/
def writeSettings (c : Clauses) (t : Table) : Except Failure String :=
  match c.misfits.settings with
  | none => .ok (c.settingsText t)
  | some v => do
    let given ← v.toEntries
    let added := if c.addsProjections t then [(.text Setting.projections, .int 1)] else []
    let entries ← Value.sortEntries (given ++ added)
    return "SETTINGS " ++ ", ".intercalate
      (entries.map fun s ↦ s.1.display ++ " = " ++ Setting.format s.2)

/-- The hint for projections that are switched on. -/
def projectionHints (c : Clauses) (t : Table) : List String :=
  if c.addsProjections t then
    ["Table `" ++ t.name ++ "` declares projections ("
      ++ ", ".intercalate t.options.projections ++ "); enabled '" ++ Setting.projections
      ++ " = 1' so ClickHouse can read from a matching projection."]
  else []

/-- The hints of the query, and one for projections that are switched on. -/
def allSuggestions (c : Clauses) (t : Table) : List String :=
  c.suggestions ++ c.projectionHints t

/-- Hints must come one by one. -/
def checkSuggestions (c : Clauses) : Except Failure Unit :=
  match c.misfits.suggestions with
  | none => .ok ()
  | some v => v.items.map fun _ ↦ ()

/-- All hints, which must be texts. -/
def writeSuggestions (c : Clauses) (t : Table) : Except Failure (List String) :=
  match c.misfits.suggestions with
  | none => .ok (c.allSuggestions t)
  | some v => do
    let own ← (Read.texts "suggestions" (.list (← v.items))).toExcept
    return own ++ c.projectionHints t

/-- Writes the statement of a query with these clauses, given its subqueries. -/
def write (c : Clauses) (ctes : List (String × Traced Statement)) (t : Table)
    (inner : Option (Traced Statement)) : Writing Statement := do
  let scope : Scope := { columns := t.keys }
  liftM c.checkSuggestions
  liftM (Misfits.visitIfAny "name" c.misfits.ctes)
  let withText ← writeCtes ctes
  let (selected, columns) ← c.writeSelection t scope
  let fromText ← c.writeFrom t inner scope
  let prewhere ← writeCondition "PREWHERE" scope c.prewhere
  let condition ← writeCondition "WHERE" scope c.condition
  let groups ← c.writeGroupBy scope
  let having ← writeCondition "HAVING" scope c.having
  let order ← c.writeOrderBy scope
  let sample ← liftM c.writeSample
  let windows ← liftM c.writeWindows
  let settings ← liftM (c.writeSettings t)
  let suggestions ← liftM (c.writeSuggestions t)
  let parts := [withText, "SELECT " ++ (if c.distinct then "DISTINCT " else "") ++ selected,
    "FROM " ++ fromText, prewhere, condition, groups, having, order, c.limitText, sample,
    windows, settings]
  return { sql := " ".intercalate (parts.filter (· ≠ "")), params := (← get).params, columns,
           suggestions }

end Clauses

mutual

/-- The statement of a query. -/
def Query.compile : Query → Traced Statement
  | .mk c ctes source =>
    match compileSource source, c.misfits.table with
    | none, none => throw .noSource
    | none, some _ => (c.write (compileCtes ctes) default none).run' {}
    | some (t, inner), _ => (c.write (compileCtes ctes) t inner).run' {}

/-- The statements of named subqueries. -/
def compileCtes : List (String × Query) → List (String × Traced Statement)
  | [] => []
  | (name, q) :: rest => (name, q.compile) :: compileCtes rest

/-- A source with the statement of its query. -/
def compileSource :
    Option (Table × Option Query) → Option (Table × Option (Traced Statement))
  | none => none
  | some (t, none) => some (t, none)
  | some (t, some q) => some (t, some q.compile)

end

end Columnar
