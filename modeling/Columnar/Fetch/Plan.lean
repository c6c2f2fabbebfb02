import Columnar.Fetch.Options
import Columnar.Relation.Catalog
import Columnar.Traced

/-!
# Plans of fetches

A tree of requested relations is resolved against the declared ones. What cannot be fetched is
left out with a warning: relations that do not exist, that have no columns to join on, or that
stand below an aggregated relation. The depth of a tree is bounded, so cyclic declarations end.
-/

namespace Columnar

/-- One requested relation with everything known of it. -/
structure Level where
  name : String
  kind : RelationKind
  table : Table
  /-- The condition under which its rows are related to those above. -/
  condition : Expr
  options : FindOptions
  /-- What its column names begin with in a flat row. -/
  stem : String
  /-- Whether its rows come as an array of tuples. -/
  aggregated : Bool
  deriving Inhabited

/-- A requested relation with the relations below it. -/
inductive Node where
  | mk (level : Level) (children : List Node)

namespace Node

/-- The relation itself. -/
def level : Node → Level
  | mk level _ => level

/-- The relations below. -/
def children : Node → List Node
  | mk _ children => children

mutual

/-- Whether fetching the relation multiplies rows: it leads to many rows that are not aggregated,
or one below it does. -/
def multiplies : Node → Bool
  | mk level children => (level.kind == .many && !level.aggregated) || anyMultiplies children

/-- Whether fetching one of the relations multiplies rows. -/
def anyMultiplies : List Node → Bool
  | [] => false
  | n :: rest => n.multiplies || anyMultiplies rest

end

end Node

namespace Plan

/-- The number of levels a tree of relations may have. -/
def maxDepth : Nat := 10

/-- What the column names of a relation begin with, below a level whose own begin with a stem. -/
def childStem (stem name : String) : String :=
  if stem = "" then name ++ "_" else stem ++ "_" ++ name ++ "_"

/-- The plan of one requested relation of a table; `below` plans the relations below it. Nothing
is planned for what is not requested or left out. -/
def entry (c : Catalog) (below : TableId → String → List (String × Choice) → Traced (List Node))
    (id : TableId) (stem : String) (request : String × Choice) : Traced (Option Node) := do
  let (name, choice) := request
  let table := c.table id
  if !choice.isPresent then return none
  let declared := if choice.isNamed then (c.entry id).relations else []
  let some relation := Keyed.find? name declared
    | Traced.record .warning s!"Table `{table.name}` has no relation `{name}`; skipped"
      return none
  let some condition ← liftM (relation.joinCondition? c)
    | Traced.record .warning
        s!"Relation `{name}` of `{table.name}` declares no join fields; skipped"
      return none
  let options ← liftM choice.options
  if options.setsStrategy then throw (.nestedStrategy name table.name)
  let aggregated := relation.kind == .many && stem = ""
  let childStem := childStem stem name
  let related := options.related.getD []
  let children ←
    if aggregated && !related.isEmpty then do
      Traced.record .warning
        (s!"Relations nested under aggregated relation `{name}` of `{table.name}` are not "
          ++ "supported; skipped: " ++ ", ".intercalate (Keyed.keys related))
      pure []
    else below relation.target childStem related
  let level : Level :=
    { name, kind := relation.kind, table := c.table relation.target, condition, options,
      stem := childStem, aggregated }
  return some (.mk level children)

/-- The plan of requested relations of a table, where so many levels may follow. -/
def nodes (c : Catalog) :
    (depth : Nat) → TableId → (stem : String) → List (String × Choice) → Traced (List Node)
  | 0, id, _, requests =>
    if requests.isEmpty then return [] else throw (.tooDeep (c.table id).name maxDepth)
  | depth + 1, id, stem, requests => do
    return (← requests.mapM (entry c (nodes c depth) id stem)).filterMap fun n ↦ n

/-- The plan of the relations requested below the root of a fetch. -/
def root (c : Catalog) (id : TableId) (requests : List (String × Choice)) : Traced (List Node) :=
  nodes c maxDepth id "" requests

/-- A fetch without relations has an empty plan. -/
theorem nodes_nil (c : Catalog) (depth : Nat) (id : TableId) (stem : String) :
    nodes c depth id stem [] = pure [] := by
  cases depth <;> rfl

end Plan

end Columnar
