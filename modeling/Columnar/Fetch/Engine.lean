import Columnar.Fetch.Merge
import Columnar.Fetch.Select
import Columnar.Template.Prepared

/-!
# Fetching

A fetch plans its relations, compiles one query through the template cache, runs it, rebuilds a
nested object from each row, and merges objects when fetching multiplied the rows.
-/

namespace Columnar

namespace Fetch

/-- What a fetch is asked for at its root: a filter, a limit, an offset, the tree of relations
and the join strategy, as far as they are given. -/
structure Request where
  filter : Filter := default
  limit : Value := .null
  offset : Value := .null
  related : Field := .plain .null
  strategy : Value := .text "auto"
  deriving Inhabited

/-- The options of a request. -/
def Request.options (r : Request) : Except Failure FindOptions :=
  (FindOptions.read [("where", .filter r.filter), ("limit", .plain r.limit),
    ("offset", .plain r.offset), ("with", r.related),
    ("join_strategy", .plain r.strategy)]).toExcept

/-- The query of a fetch with its plan and options. -/
def build (c : Catalog) (id : TableId) (r : Request) :
    Traced (Query × List Node × FindOptions) := do
  let options ← liftM r.options
  let nodes ← Plan.root c id (options.related.getD [])
  let q ← liftM (query (c.entry id).source nodes options)
  return (q, nodes, options)

/-- The objects of rows, merged when fetching multiplied the rows. -/
def objects (t : Table) (nodes : List Node) (rows : List Row) : Traced (List Value) := do
  let objects ← liftM (rows.mapM (Objects.ofRow t nodes))
  if Node.anyMultiplies nodes then Merge.byIdentity t nodes objects else return objects

/-- All objects that a request asks for. -/
def findMany {σ : Type} (client : Client σ) (c : Catalog) (id : TableId) (r : Request) :
    Session (TemplateCache × σ) (List Value) := do
  let (q, nodes, _) ← liftM (build c id r)
  let executable ← q.prepare.onFirst
  let rows ← (executable.execute client).onSecond
  liftM (objects (c.table id) nodes rows)

/-- The first object that a request asks for, if there is one. -/
def findFirst {σ : Type} (client : Client σ) (c : Catalog) (id : TableId) (r : Request) :
    Session (TemplateCache × σ) (Option Value) := do
  return (← findMany client c id { r with limit := .int 1 }).head?

end Fetch

end Columnar
