import Columnar.Query.Build

/-!
# Overriding clauses

Clauses can be replaced by plain values under their names. Nothing is checked but the names: a
value that a clause cannot hold stands in its place as a misfit.
-/

namespace Columnar.Query

/-- The names of all clauses. -/
def clauseNames : List String :=
  ["table", "ctes", "selection", "selection_callback", "distinct_rows", "use_final", "joins",
    "array_joins", "prewhere_expression", "where_expression", "group_by_items",
    "having_expression", "order_by_items", "limit_value", "offset_value", "sample_value",
    "settings_map", "window_map", "suggestions"]

/-- A value in place of a clause that holds a list of things that are no values: only the empty
list fits. -/
def asList : Value → Option Value
  | .list [] => none
  | v => some v

/-- A selection given as a value: nothing that counts as absent selects anything. -/
def overrideSelection (v : Value) (c : Clauses) : Clauses :=
  match v.isTruthy, v with
  | false, _ => setSelection [] c
  | true, .map entries => setSelectedValues entries c
  | true, v => { c with selection := [], misfits.selection := some v }

/-- Items of a grouping given as a value. -/
def overrideGroupBy (v : Value) (c : Clauses) : Clauses :=
  match v.itemsIfAny with
  | .ok items => { c with groupBy := items.map .value, misfits.groupBy := none }
  | .error _ => { c with groupBy := [], misfits.groupBy := some v }

/-- Settings given as a value: nothing that counts as absent sets anything. -/
def overrideSettings (v : Value) (c : Clauses) : Clauses :=
  let entries? := match v.isTruthy, v with
    | false, _ => some []
    | true, .map entries => Value.textEntries? entries
    | true, _ => none
  match entries? with
  | some entries => { c with settings := entries, misfits.settings := none }
  | none => { c with settings := [], misfits.settings := some v }

/-- Windows given as a value. -/
def overrideWindows (v : Value) (c : Clauses) : Clauses :=
  let entries? := match v with
    | .map entries => Value.textEntries? entries
    | _ => none
  match entries? with
  | some entries =>
    { c with windows := Keyed.mapValues Value.display entries, misfits.windows := none }
  | none => { c with windows := [], misfits.windows := some v }

/-- Hints given as a value. -/
def overrideSuggestions (v : Value) (c : Clauses) : Clauses :=
  let texts? := match v with
    | .list items => Value.texts? items
    | _ => none
  match texts? with
  | some texts => { c with suggestions := texts, misfits.suggestions := none }
  | none => { c with suggestions := [], misfits.suggestions := some v }

/-- Null for nothing, any other value as a misfit. -/
def unlessAbsent (v : Value) : Option Value := if v.isNull then none else some v

/-- Whether merged rows are read, given as a value: its truth counts. -/
def overrideFinal (v : Value) (c : Clauses) : Clauses :=
  match v with
  | .bool b => setFinal b c
  | v => { c with final := v.isTruthy, misfits.final := some v }

/-- Replaces one of the clauses that stand in the record of clauses. -/
def overrideClause (name : String) (v : Value) (c : Clauses) : Clauses :=
  match name with
  | "selection" => overrideSelection v c
  | "selection_callback" => { c with pending := none, misfits.pending := unlessAbsent v }
  | "distinct_rows" => { c with distinct := v.isTruthy }
  | "use_final" => overrideFinal v c
  | "joins" => { c with joins := [], misfits.joins := asList v }
  | "array_joins" => { c with arrayJoins := [], misfits.arrayJoins := asList v }
  | "prewhere_expression" => { c with prewhere := unlessNull (.value v) }
  | "where_expression" => { c with condition := unlessNull (.value v) }
  | "group_by_items" => overrideGroupBy v c
  | "having_expression" => { c with having := unlessNull (.value v) }
  | "order_by_items" => { c with orderBy := [], misfits.orderBy := asList v }
  | "limit_value" => { c with limit := v }
  | "offset_value" => { c with offset := v }
  | "sample_value" => { c with sample := none, misfits.sample := unlessAbsent v }
  | "settings_map" => overrideSettings v c
  | "window_map" => overrideWindows v c
  | "suggestions" => overrideSuggestions v c
  | _ => c

/-- Replaces one clause by a value. -/
def overrideOne (q : Query) (name : String) (v : Value) : Query :=
  match name with
  | "table" => mk { q.clauses with misfits.table := unlessAbsent v } q.ctes none
  | "ctes" => mk { q.clauses with misfits.ctes := asList v } [] q.source
  | name => q.modify (overrideClause name v)

/-- Replaces clauses by values, one after another; names that are no clause are refused. -/
def override (changes : List (String × Value)) (q : Query) : Except Failure Query :=
  let unknown := (Keyed.keys (Keyed.ofList changes)).filter fun name ↦ !clauseNames.contains name
  if unknown.isEmpty then .ok ((Keyed.ofList changes).foldl (fun q e ↦ q.overrideOne e.1 e.2) q)
  else .error (.unknownClauses (unknown.mergeSort fun a b ↦ a ≤ b))

/-- Replaces all joins by one that is not checked against the join keywords. -/
def setJoin (keyword table : String) (on : Operand) (q : Query) : Except Failure Query := do
  let on ← joinCondition on
  return q.modify fun c ↦ { c with joins := [{ keyword, table, on }], misfits.joins := none }

end Columnar.Query
