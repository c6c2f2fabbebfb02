import Columnar.Proofs.Pieces

/-!
# Compiling in place

The other way to compile a query: named subqueries and derived tables are written where they stand,
and one counter numbers the literals of all of them. `Query.compileInPlace` differs from
`Query.compile` in nothing else (`write_eq`), and no parameter is ever renamed.
-/

namespace Columnar

namespace Clauses

/-- The subqueries in front of the statement, each of them written in place. -/
def writeCtesInPlace (ctes : List (String × Writing String)) : Writing String := do
  let texts ← ctes.mapM fun e ↦ do return e.1 ++ " AS (" ++ (← e.2) ++ ")"
  return if texts.isEmpty then "" else "WITH " ++ ", ".intercalate texts

/-- The joins. -/
def writeJoins (c : Clauses) (scope : Scope) : Writing String := do
  liftM (Misfits.visit "type" c.misfits.joins)
  return String.join (← c.joins.mapM (writeJoin scope))

/-- The expanded arrays. -/
def writeArrayJoins (c : Clauses) (scope : Scope) : Writing String := do
  liftM (Misfits.visitIfAny "expression" c.misfits.arrayJoins)
  let arrays ← c.arrayJoins.mapM (writeArrayJoin scope)
  return if arrays.isEmpty then "" else " ARRAY JOIN " ++ ", ".intercalate arrays

/-- What is read: a table, or a derived table that is written in place. -/
def writeSource (c : Clauses) (t : Table) : Option (Writing String) → Writing String
  | some sql => do return "(" ++ (← sql) ++ ") AS `" ++ t.name ++ "`"
  | none => return "`" ++ t.name ++ "`" ++ (if c.final then " FINAL" else "")

/-- The source, the joins and the expanded arrays. -/
def writeFromInPlace (c : Clauses) (t : Table) (inner : Option (Writing String)) (scope : Scope) :
    Writing String := do
  if let some v := c.misfits.table then throw (v.lacks "is_subquery")
  let source ← c.writeSource t inner
  let joins ← c.writeJoins scope
  let arrays ← c.writeArrayJoins scope
  return source ++ joins ++ arrays

/-- The statement of a query with these clauses, its subqueries written in place. -/
def writeInPlace (c : Clauses) (ctes : List (String × Writing String)) (t : Table)
    (inner : Option (Writing String)) : Writing Statement :=
  c.writeWith t (writeCtesInPlace ctes) (c.writeFromInPlace t inner { columns := t.keys })

end Clauses

mutual

/-- Writes a query in place. -/
def Query.writeInPlace : Query → Writing Statement
  | .mk c ctes source =>
    match sourceInPlace source, c.misfits.table with
    | none, none => throw .noSource
    | none, some _ => c.writeInPlace (ctesInPlace ctes) default none
    | some (t, inner), _ => c.writeInPlace (ctesInPlace ctes) t inner

/-- Named subqueries with what writes their SQL in place. -/
def ctesInPlace : List (String × Query) → List (String × Writing String)
  | [] => []
  | (name, q) :: rest => (name, do return (← q.writeInPlace).sql) :: ctesInPlace rest

/-- A source with what writes the SQL of its query in place. -/
def sourceInPlace : Option (Table × Option Query) → Option (Table × Option (Writing String))
  | none => none
  | some (t, none) => some (t, none)
  | some (t, some q) => some (t, some do return (← q.writeInPlace).sql)

end

/-- The statement of a query whose subqueries are written in place, all literals numbered by one
counter from one on. -/
def Query.compileInPlace (q : Query) : Traced Statement := q.writeInPlace.run' {}

/-- A derived table that is compiled on its own and inlined is written in place. -/
theorem Clauses.writeFrom_eq (c : Clauses) (t : Table) (inner : Option (Traced Statement))
    (scope : Scope) : c.writeFrom t inner scope =
      c.writeFromInPlace t (inner.map Writing.inlining) scope := by
  rcases hm : c.misfits.table with _ | v <;> rcases inner with _ | s <;>
    simp only [writeFrom, writeFromInPlace, writeSource, writeJoins, writeArrayJoins, hm,
      Option.map_none, Option.map_some, bind_assoc, pure_bind]

/-- Subqueries that are compiled on their own and inlined are one way to write them. -/
theorem Clauses.write_eq (c : Clauses) (ctes : List (String × Traced Statement)) (t : Table)
    (inner : Option (Traced Statement)) : c.write ctes t inner =
      c.writeWith t (writeCtesInPlace (ctes.map fun e ↦ (e.1, Writing.inlining e.2)))
        (c.writeFromInPlace t (inner.map Writing.inlining) { columns := t.keys }) := by
  have hctes : writeCtes ctes =
      writeCtesInPlace (ctes.map fun e ↦ (e.1, Writing.inlining e.2)) := by
    rw [writeCtes, writeCtesInPlace, List.mapM_map]
    rfl
  rw [← hctes, ← writeFrom_eq]
  rfl

/-- The named subqueries are written in place one by one. -/
theorem ctesInPlace_eq (ctes : List (String × Query)) :
    ctesInPlace ctes = ctes.map fun e ↦ (e.1, do return (← e.2.writeInPlace).sql) := by
  induction ctes with
  | nil => rfl
  | cons e rest ih =>
    rw [ctesInPlace, ih]
    rfl

/-- A query with a source is written in place by its clauses. -/
theorem Query.writeInPlace_eq (c : Clauses) (ctes : List (String × Query)) (t : Table)
    (inner : Option Query) : (Query.mk c ctes (some (t, inner))).writeInPlace =
      c.writeInPlace (ctes.map fun e ↦ (e.1, do return (← e.2.writeInPlace).sql)) t
        (inner.map fun q ↦ do return (← q.writeInPlace).sql) := by
  rw [writeInPlace, ctesInPlace_eq]
  cases inner <;> rfl

end Columnar
