import Columnar.Expr.Operators
import Columnar.Query.Basic
import Columnar.Query.JoinKeyword

/-!
# Building queries

One function for each clause. A function that is given something its clause cannot hold fails
and says what it was given; what only a statement can show to be wrong is kept as it is.
-/

namespace Columnar

/-- What a selection is given as. -/
inductive SelectionSpec where
  /-- Names and what they select. -/
  | fields (entries : Selection)
  /-- A function of the columns of the source. -/
  | byColumns (f : Columns → Except Failure Selection)
  /-- Something else. -/
  | other (v : Value)

/-- What a condition is given as. -/
inductive ConditionSpec where
  /-- Names of columns and the values they must equal. -/
  | fields (entries : List (String × Operand))
  /-- Anything else. -/
  | operand (o : Operand)

namespace Query

/-- Changes the clauses. -/
def modify (q : Query) (f : Clauses → Clauses) : Query := q.withClauses (f q.clauses)

/-- Sets the names and what they select. -/
def setSelection (s : Selection) (c : Clauses) : Clauses :=
  { c with selection := Keyed.ofList s, misfits.selection := none }

/-- Sets the entries of a selection that are plain values; names that are no text do not fit. -/
def setSelectedValues (entries : List (Value × Value)) (c : Clauses) : Clauses :=
  match Value.textEntries? entries with
  | some named => setSelection (named.map fun e ↦ (e.1, .value e.2)) c
  | none => { c with selection := [], misfits.selection := some (.map entries) }

/-- Makes a selection wait for the source, or none. -/
def setPending (f : Option (Columns → Except Failure Selection)) (c : Clauses) : Clauses :=
  { c with pending := f, misfits.pending := none }

/-- Sets the selection: names and operands, or a function of the columns, which waits until the
query has a source. Null changes nothing. -/
def select (spec : SelectionSpec) (q : Query) : Except Failure Query :=
  let chosen (s : Selection) : Query := q.modify fun c ↦ setPending none (setSelection s c)
  match spec with
  | .fields entries => .ok (chosen entries)
  | .byColumns f =>
    match q.clauses.misfits.table, q.table? with
    | some v, _ => .error (v.lacks "c")
    | none, none => .ok (q.modify (setPending (some f)))
    | none, some t => return chosen (← f t.columns)
  | .other .null => .ok q
  | .other (.map entries) =>
    .ok (q.modify fun c ↦ setPending none (setSelectedValues entries c))
  | .other v => .error (.notASelection v.kind)

/-- Sets whether merged rows are read. -/
def setFinal (final : Bool) (c : Clauses) : Clauses := { c with final, misfits.final := none }

/-- Replaces the source and nothing else; a waiting selection goes on waiting. -/
def setSource (source : Table × Option Query) (q : Query) : Query :=
  (q.modify fun c ↦ { c with misfits.table := none }).withSource (some source)

/-- Sets the source and whether it is read merged; a waiting selection is made now. -/
def readSource (source : Table × Option Query) (final : Bool) (q : Query) : Except Failure Query :=
  match q.clauses.misfits.pending, q.clauses.pending with
  | some v, _ => .error (.notCallable v.kind)
  | none, none => .ok ((q.modify (setFinal final)).setSource source)
  | none, some f => do
    let s ← f source.1.columns
    return (q.modify fun c ↦ setFinal final (setPending none (setSelection s c))).setSource source

/-- Reads a declared table or derived table; the table decides whether rows are merged. -/
def fromSource (source : Table × Option Query) (q : Query) : Except Failure Query :=
  q.readSource source source.1.options.defaultFinal

/-- Reads another query under a name. -/
def fromQuery (q inner : Query) (aliasName : String) : Except Failure Query := do
  q.readSource (← inner.derivedTable aliasName, some inner) false

/-- Anything that is neither table nor query is no source. -/
def fromValue (v : Value) : Except Failure Query := .error (.notASource v.kind)

/-- Keeps only distinct rows. -/
def distinct (q : Query) : Query := q.modify fun c ↦ { c with distinct := true }

/-- Reads merged rows; a derived table has none. -/
def final (q : Query) : Except Failure Query :=
  match q.clauses.misfits.table with
  | some v => .error (v.lacks "is_subquery")
  | none => if q.readsQuery then .error .finalSubquery else .ok (q.modify (setFinal true))

/-- Adds a named subquery. -/
def withCte (q : Query) (name : String) (inner : Query) : Except Failure Query := do
  Misfits.extensible q.clauses.misfits.ctes
  return mk q.clauses (q.ctes ++ [(name, inner)]) q.source

/-- The condition of a join: an expression, none for null. A mapping stands for an expression
without body, of which only name and type are read. -/
def joinCondition : Operand → Except Failure (Option Expr)
  | .value .null => .ok none
  | .expression e => .ok (some e)
  | .value (.map entries) =>
    let field (key : String) : Checked (Option String) :=
      match Value.find? key entries with
      | some v =>
        match Read.optional Read.text v with
        | .ok s => pure s
        | .error issue => Checked.bad [⟨["on", key], issue⟩]
      | none => pure none
    Checked.toExcept ((fun aliasName type ↦ some { label := { aliasName, type }, body := .missing })
      <$> field "alias" <*> field "type")
  | _ => .error (.invalid [⟨["on"], .modelType⟩])

/-- Adds a join as it is given. -/
def addJoin (j : Join) (q : Query) : Except Failure Query := do
  Misfits.extensible q.clauses.misfits.joins
  return q.modify fun c ↦ { c with joins := c.joins ++ [j] }

/-- Adds a join of the named kind. A cross join takes no condition, every other one needs it. -/
def join (kind table : String) (on : Operand) (q : Query) : Except Failure Query :=
  match JoinKeyword.ofText? kind with
  | none => .error (.unsupportedJoin kind)
  | some keyword =>
    if keyword = "CROSS" then
      if on.isNull then q.addJoin { keyword, table } else .error .crossCondition
    else if on.isNull then .error (.noJoinCondition keyword)
    else do q.addJoin { keyword, table, on := ← joinCondition on }

/-- Expands arrays. -/
def arrayJoin (items : List ArrayJoin) (q : Query) : Except Failure Query := do
  Misfits.extensible q.clauses.misfits.arrayJoins
  return q.modify fun c ↦ { c with arrayJoins := c.arrayJoins ++ items }

/-- Expands one array and selects its items under a name, which must be text or null. -/
def arrayJoinAs (item : Operand) (aliasName : Value) (q : Query) : Except Failure Query := do
  let aliasName ← (Checked.field "alias" (Read.optional Read.text aliasName)).toExcept
  q.arrayJoin [{ item, aliasName }]

/-- A clause that null leaves out. -/
def unlessNull (o : Operand) : Option Operand := if o.isNull then none else some o

/-- Sets the condition tested before other columns are read. -/
def prewhere (o : Operand) (q : Query) : Query :=
  q.modify fun c ↦ { c with prewhere := unlessNull o }

/-- Sets the condition on groups. -/
def having (o : Operand) (q : Query) : Query := q.modify fun c ↦ { c with having := unlessNull o }

/-- The comparisons of columns with values that a mapping stands for. -/
def comparisons (t : Table) : List (Value × Operand) → Except Failure (List Operand)
  | [] => .ok []
  | (key, o) :: rest =>
    let column? := match key with
      | .text k => t.column? k
      | _ => none
    match column? with
    | none => .error (.noSuchColumn key.display t.name)
    | some c => do return .expression (Expr.eq (.column c) o) :: (← comparisons t rest)

/-- Sets the condition: an expression, or columns and the values they must equal. Null changes
nothing. -/
def filter (spec : ConditionSpec) (q : Query) : Except Failure Query :=
  let set (o : Operand) : Query := q.modify fun c ↦ { c with condition := unlessNull o }
  let equalities (entries : List (Value × Operand)) : Except Failure Query :=
    match q.clauses.misfits.table, q.table? with
    | some v, _ =>
      if entries.isEmpty then .ok (set (.value .null)) else .error (v.lacks "get_column")
    | none, none => .error .filterBeforeTable
    | none, some t => do return set (.all (← comparisons t entries))
  match spec with
  | .fields entries => equalities ((Keyed.ofList entries).map fun e ↦ (.text e.1, e.2))
  | .operand (.value .null) => .ok q
  | .operand (.value (.map entries)) => equalities (entries.map fun e ↦ (e.1, .value e.2))
  | .operand (.expression e) => .ok (set (.expression e))
  | .operand o => .error (.notACondition o.kind)

/-- Groups rows. -/
def groupBy (items : List Operand) (q : Query) : Query :=
  q.modify fun c ↦ { c with groupBy := items, misfits.groupBy := none }

/-- The hint for an order that the table does not keep. -/
def orderHints (q : Query) (item : Operand) : Except Failure (List String) :=
  match item with
  | .column c =>
    match q.clauses.misfits.table, q.table? with
    | some v, _ => .error (v.lacks "options")
    | none, none => .ok []
    | none, some t =>
      .ok <| if !t.options.orderBy.isEmpty && !t.options.orderBy.contains c.name then
        [s!"Ordering by {c.name} not in physical ORDER BY; may be inefficient."]
      else []
  | _ => .ok []

/-- Adds hints. -/
def addSuggestions (hints : List String) (q : Query) : Except Failure Query :=
  match q.clauses.misfits.suggestions with
  | none => .ok (q.modify fun c ↦ { c with suggestions := c.suggestions ++ hints })
  | some v =>
    if hints.isEmpty then .ok q
    else do
      let all := (← v.extensible) ++ hints.map .text
      return q.modify fun c ↦ { c with misfits.suggestions := some (.list all) }

/-- Adds an item of the ordering, and a hint when the table does not keep that order. -/
def addOrder (o : OrderItem) (q : Query) : Except Failure Query := do
  let q ← q.addSuggestions (← q.orderHints o.item)
  Misfits.extensible q.clauses.misfits.orderBy
  return q.modify fun c ↦ { c with orderBy := c.orderBy ++ [o] }

/-- Orders by a column or an expression in a direction, or by an ordering that has its own. -/
def orderBy (item : Operand) (direction : Value) (q : Query) : Except Failure Query :=
  let directed : Except Failure Query :=
    match direction with
    | .text s =>
      match Direction.ofKeyword? s with
      | some d => q.addOrder ⟨item, d⟩
      | none => .error (.badDirection direction)
    | _ => .error (.badDirection direction)
  match item with
  | .ordering inner d => q.addOrder ⟨inner, d⟩
  | .column _ | .expression _ => directed
  | o => .error (.notOrderable o.kind)

/-- Limits the number of rows. -/
def limit (v : Value) (q : Query) : Query := q.modify fun c ↦ { c with limit := v }

/-- Skips rows. -/
def offset (v : Value) (q : Query) : Query := q.modify fun c ↦ { c with offset := v }

/-- Reads a fraction of the rows. -/
def sample (ratio offset : Value) (q : Query) : Except Failure Query := do
  let start : Checked Value :=
    match offset with
    | .null => pure .null
    | v => Read.number "offset" v
  let s ← Checked.toExcept (Sample.mk <$> Read.number "ratio" ratio <*> start)
  return q.modify fun c ↦ { c with sample := some s, misfits.sample := none }

/-- Replaces the settings. -/
def settings (entries : List (String × Value)) (q : Query) : Query :=
  q.modify fun c ↦ { c with settings := Keyed.ofList entries, misfits.settings := none }

/-- Declares a named window. -/
def window (name definition : String) (q : Query) : Except Failure Query :=
  match q.clauses.misfits.windows with
  | none => .ok (q.modify fun c ↦ { c with windows := Keyed.set name definition c.windows })
  | some (.map entries) =>
    let entries := Value.setEntry (.text name) (.text definition) entries
    .ok (q.modify fun c ↦ { c with misfits.windows := some (.map entries) })
  | some v => .error (.notAMapping v.kind)

end Query

end Columnar
