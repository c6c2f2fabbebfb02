import Columnar.Expr.Signature
import Columnar.Statement.Compile

/-!
# Fingerprints

The fingerprint of a query is a key that depends on its structure only, and the values of its
literals in the order in which a statement numbers them. Subqueries enter with their compiled
text and parameters, all other clauses with the signatures of their expressions.
-/

namespace Columnar

/-- A structural key and the literals of a query. -/
structure Fingerprint where
  key : String
  values : List Value
  deriving Repr, Inhabited

namespace Fingerprint

/-- A key without literals. -/
def ofText (key : String) : Fingerprint := ⟨key, []⟩

/-- One fingerprint after another. -/
def append (a b : Fingerprint) : Fingerprint := ⟨a.key ++ b.key, a.values ++ b.values⟩

instance : Append Fingerprint := ⟨append⟩

/-- Fingerprints one after another. -/
def concat : List Fingerprint → Fingerprint
  | [] => ofText ""
  | f :: rest => f ++ concat rest

/-- The literals of fingerprints in a row. -/
theorem values_append (a b : Fingerprint) : (a ++ b).values = a.values ++ b.values := rfl

/-- A clause, or nothing when it has no items. -/
def clause (head : String) (items : List Fingerprint) : Fingerprint :=
  if items.isEmpty then ofText "" else ofText head ++ concat items

/-- The part of an expression. -/
def ofExpr (e : Expr) : Except Failure Fingerprint := do
  let w ← e.walk
  return ⟨w.text, w.seen.map Prod.fst⟩

/-- The part of an item of a clause. -/
def ofItem : Operand → Except Failure Fingerprint
  | .column c => .ok (ofText ("COL:" ++ c.signature))
  | .expression e => do return ofText "EXPR:" ++ (← ofExpr e)
  | o => .ok (ofText ("RAW:" ++ o.inspect))

/-- The part of a subquery, between two texts. -/
def ofStatement (before after : String) (s : Statement) : Fingerprint :=
  ⟨before ++ s.sql ++ after, s.params.map Prod.snd⟩

/-- The output name and type of a selected item, where they are not empty. -/
def labels (item : Operand) : String :=
  let own : Option (Option String × Option String) := match item with
    | .column c => some (c.aliasName, some c.type)
    | .expression e => some (e.label.aliasName, e.label.type)
    | _ => none
  let part (head : String) (s : Option String) : String :=
    match s.filter (· ≠ "") with
    | some s => head ++ s
    | none => ""
  match own with
  | some (aliasName, type) => part "AS:" aliasName ++ part "TYPE:" type
  | none => ""

/-- The part of one selected item. -/
def ofSelected (e : String × Operand) : Except Failure Fingerprint := do
  return ofText (e.1 ++ "=") ++ (← ofItem e.2) ++ ofText (labels e.2 ++ ";")

/-- The part of a join. -/
def ofJoin (j : Join) : Except Failure Fingerprint := do
  let on ← match j.on with
    | some e => do pure (ofText "ON:" ++ (← ofExpr e))
    | none => pure (ofText "")
  return ofText (j.keyword ++ ":" ++ j.table) ++ on ++ ofText ";"

/-- The part of an expanded array. -/
def ofArrayJoin (a : ArrayJoin) : Except Failure Fingerprint := do
  let aliasName := match a.aliasName.filter (· ≠ "") with
    | some aliasName => "AS:" ++ aliasName
    | none => ""
  return (← ofItem a.item) ++ ofText (aliasName ++ ";")

/-- The part of a condition. -/
def ofCondition (head : String) : Option Operand → Except Failure Fingerprint
  | none => .ok (ofText "")
  | some o => do return ofText head ++ (← ofExpr (← Clauses.asExpr "walk" o))

/-- The part of an item of an ordering. -/
def ofOrder (o : OrderItem) : Except Failure Fingerprint := do
  return (← ofItem o.item) ++ ofText (":" ++ o.direction.keyword ++ ";")

/-- The part of a grouped item. -/
def ofGrouped (o : Operand) : Except Failure Fingerprint := do
  return (← ofItem o) ++ ofText ";"

/-- The part of the limit and the offset. -/
def pageText (c : Clauses) : String :=
  (if c.limit.isNull then "" else "|LIMIT:" ++ c.limit.display)
    ++ (if c.offset.isNull then "" else "|OFFSET:" ++ c.offset.display)

/-- The part of the sample. -/
def sampleText (c : Clauses) : Except Failure String :=
  match c.misfits.sample, c.sample with
  | some v, _ => .error (v.lacks "ratio")
  | none, some s => .ok ("|SAMPLE:" ++ s.ratio.display ++ ":" ++ s.offset.display)
  | none, none => .ok ""

/-- The part of named entries: nothing when there are none, otherwise all of them, sorted. -/
def entriesText (head : String) (entries : List (String × String)) : String :=
  if entries.isEmpty then ""
  else head ++ String.join ((Setting.sorted entries).map fun e ↦ e.1 ++ "=" ++ e.2 ++ ";")

/-- The part of entries that stand in place of named ones, each written by a function. -/
def misfitText (head : String) (write : Value → String) (v : Value) : Except Failure String :=
  if v.isTruthy then do
    let entries ← v.sortedEntries
    return head ++ String.join (entries.map fun e ↦ e.1.display ++ "=" ++ write e.2 ++ ";")
  else .ok ""

/-- The part of the settings. -/
def settingsText (c : Clauses) : Except Failure String :=
  match c.misfits.settings with
  | none => .ok (entriesText "|SETTINGS:" (Keyed.mapValues Setting.format c.settings))
  | some v => misfitText "|SETTINGS:" Setting.format v

/-- The part of the windows. -/
def windowsText (c : Clauses) : Except Failure String :=
  match c.misfits.windows with
  | none => .ok (entriesText "|WINDOWS:" c.windows)
  | some v => misfitText "|WINDOWS:" Value.display v

/-- The part of the limit, the offset, the sample, the settings and the windows. -/
def tail (c : Clauses) : Except Failure String := do
  return pageText c ++ (← sampleText c) ++ (← settingsText c) ++ (← windowsText c)

/-- The part of one selected value under a name that need not be text. -/
def ofSelectedValue (e : Value × Value) : Fingerprint :=
  ofText (e.1.display ++ "=RAW:" ++ e.2.inspect ++ ";")

/-- The parts of the selected items. -/
def selectedItems (c : Clauses) : Except Failure (List Fingerprint) :=
  match c.misfits.selection with
  | none => c.selection.mapM ofSelected
  | some v => do return (← v.entriesFor "items").map ofSelectedValue

/-- The part of the selection. -/
def ofSelection (c : Clauses) : Except Failure Fingerprint :=
  if c.pending.isSome || c.misfits.pending.isSome then .ok (ofText "|SEL:DEFERRED")
  else do
    let head := if c.distinct then "|SEL:DISTINCT:" else "|SEL:"
    let items ← selectedItems c
    return if items.isEmpty then ofText (head ++ "*") else ofText head ++ concat items

/-- The part of the source. -/
def ofSource (c : Clauses) : Option (Table × Option Query) → Traced Fingerprint
  | none =>
    match c.misfits.table with
    | some v => throw (v.lacks "is_subquery")
    | none => return ofText ""
  | some (t, some q) => do
    return ofStatement "|FROM:SUB(" (")AS:" ++ t.name) (← q.compile)
  | some (t, none) =>
    return ofText ("|FROM:" ++ t.name ++ (if c.final then ":FINAL" else "")
      ++ (if t.options.projections.isEmpty then ""
        else ":PROJECTIONS:" ++ ",".intercalate t.options.projections))

end Fingerprint

/-- The fingerprint of a query. -/
def Query.fingerprint (q : Query) : Traced Fingerprint := do
  let c := q.clauses
  let m := c.misfits
  liftM (Misfits.visitIfAny "query" m.ctes)
  let ctes ← q.ctes.mapM fun e ↦ do
    return Fingerprint.ofStatement ("(" ++ e.1 ++ ":") ")" (← e.2.compile)
  let selection ← liftM (Fingerprint.ofSelection c)
  let source ← Fingerprint.ofSource c q.source
  liftM (Misfits.visitIfAny "type" m.joins)
  let joins ← liftM (c.joins.mapM Fingerprint.ofJoin)
  liftM (Misfits.visitIfAny "expression" m.arrayJoins)
  let arrays ← liftM (c.arrayJoins.mapM Fingerprint.ofArrayJoin)
  let prewhere ← liftM (Fingerprint.ofCondition "|PREWHERE:" c.prewhere)
  let condition ← liftM (Fingerprint.ofCondition "|WHERE:" c.condition)
  if let some v := m.groupBy then throw (.notIterable v.kind)
  let groups ← liftM (c.groupBy.mapM Fingerprint.ofGrouped)
  let having ← liftM (Fingerprint.ofCondition "|HAVING:" c.having)
  liftM (Misfits.visitIfAny "expression" m.orderBy)
  let order ← liftM (c.orderBy.mapM Fingerprint.ofOrder)
  let tail ← liftM (Fingerprint.tail c)
  return Fingerprint.concat [.ofText "SELECT", .clause "|CTES:" ctes, selection, source,
    .clause "|JOINS:" joins, .clause "|AJOINS:" arrays, prewhere, condition,
    .clause "|GROUP:" groups, having, .clause "|ORDER:" order, .ofText tail]

end Columnar
