import Columnar.Client.Basic
import Columnar.Fingerprint
import Columnar.Template.Cache

/-!
# Prepared queries

A query is prepared through a cache: its key is looked up, a template is compiled and stored when
it is missing, and the literals of this query are bound to the template's parameters. The result
can be executed by any client.
-/

namespace Columnar

/-- The template of a statement. -/
def Template.ofStatement (s : Statement) : Template where
  sql := s.sql
  paramNames := s.params.map Prod.fst
  columns := s.columns
  suggestions := s.suggestions

/-- A statement with its parameters bound, ready to be executed. -/
structure Executable where
  sql : String
  params : Params
  template : Option Template := none
  deriving Inhabited

namespace Executable

/-- The hints of the template. -/
def suggestions (e : Executable) : List String := (e.template.map (·.suggestions)).getD []

/-- The names of the columns of the result, as far as they are known. -/
def columnNames (e : Executable) : List String :=
  ((e.template.map (·.columns)).getD []).map Prod.fst

/-- The statement as messages show it. -/
def inspect (e : Executable) : String :=
  "ExecutableQuery(" ++ Text.quote e.sql ++ ", "
    ++ (Value.map (e.params.map fun p ↦ (.text p.1, p.2))).inspect ++ ")"

/-- Runs the statement; a failure is logged with its text. -/
def execute {σ : Type} (client : Client σ) (e : Executable) : Session σ (List Row) :=
  (client.rows e.sql e.params).logFailure ("Query failed: " ++ e.sql)

end Executable

namespace Template

/-- Binds values to the parameters of a template, one to each. -/
def bind (t : Template) (values : List Value) : Except Failure Executable :=
  if values.length ≠ t.paramNames.length then
    .error (.bindingCount t.paramNames.length values.length)
  else .ok { sql := t.sql, params := t.paramNames.zip values, template := some t }

end Template

namespace Query

/-- The template of a query, from the cache or compiled and stored there, and the query's
literals. -/
def templateFor (q : Query) : Session TemplateCache (Template × List Value) := do
  let f ← liftM q.fingerprint
  match ← TemplateCache.get f.key with
  | some t => return (t, f.values)
  | none =>
    let s ← liftM q.compile
    if s.params.length ≠ f.values.length then
      throw (.valueCount f.values.length s.params.length)
    s.suggestions.forM fun text ↦ Traced.record .info text
    TemplateCache.put f.key (.ofStatement s)
    return (.ofStatement s, f.values)

/-- The query as a statement ready to be executed. -/
def prepare (q : Query) : Session TemplateCache Executable := do
  let (t, values) ← q.templateFor
  liftM (m := Except Failure) (n := Traced) (t.bind values)

/-- The query's statement, its parameters and its hints. -/
def toSql (q : Query) : Session TemplateCache (String × Params × List String) := do
  let (t, values) ← q.templateFor
  return (t.sql, t.paramNames.zip values, t.suggestions)

/-- The statement, parameters and hints of a query without any cache. -/
def toSqlFresh (q : Query) : Traced (String × Params × List String) := do
  let s ← q.compile
  return (s.sql, s.params, s.suggestions)

end Query

end Columnar
