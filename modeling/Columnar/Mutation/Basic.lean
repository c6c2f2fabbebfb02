import Columnar.Expr.Render
import Columnar.Table

/-!
# Mutations

Statements that remove or change rows of a table. Conditions and assignments are written with
bare column names. A mutation needs a condition, an update also assignments, and tables that only
grow refuse both.
-/

namespace Columnar

/-- Whether rows are removed or changed. -/
inductive MutationKind where
  | delete | update
  deriving DecidableEq, Repr, Inhabited

/-- The keyword of a mutation. -/
def MutationKind.verb : MutationKind → String
  | delete => "DELETE"
  | update => "UPDATE"

/-- A mutation as a statement with its parameters. `accepted` says whether the server has taken
it, `id` is the server's name for it, null when it gave none. -/
structure Mutation where
  sql : String
  params : List (String × Value)
  table : String
  accepted : Bool := false
  id : Value := .null
  deriving Inhabited

/-- A mutation being described, and the statement made of the description as it is now. -/
structure MutationDraft where
  kind : MutationKind
  table : Table
  condition : Option Operand := none
  assignments : List (String × Operand) := []
  statement : Option Mutation := none
  deriving Inhabited

namespace MutationDraft

/-- Sets the condition; a statement made before no longer counts. -/
def where_ (o : Operand) (d : MutationDraft) : MutationDraft :=
  { d with condition := if o.isNull then none else some o, statement := none }

/-- Sets the assignments of an update, which must be to columns of the table; a statement made
before no longer counts. A mutation that removes rows has none. -/
def set (assignments : List (String × Operand)) (d : MutationDraft) :
    Except Failure MutationDraft :=
  match d.kind with
  | .delete => .error (.noAttribute "DeleteQuery" "set")
  | .update =>
    let assignments := Keyed.ofList assignments
    match assignments.find? fun e ↦ (d.table.column? e.1).isNone with
    | some e => .error (.noSuchColumn e.1 d.table.name)
    | none => .ok { d with assignments, statement := none }

/-- Refuses what must not or cannot be sent; the condition otherwise. -/
def checked (d : MutationDraft) : Except Failure Operand :=
  if d.table.options.appendOnly then .error (.appendOnly d.kind.verb d.table.name)
  else
    match d.condition with
    | none => .error (.noCondition d.kind.verb)
    | some o => if d.kind == .update && d.assignments.isEmpty then .error .noAssignments else .ok o

/-- A condition where an expression is needed. -/
def renderCondition (scope : Scope) : Operand → Render String
  | .expression e => e.render scope
  | o => throw (.noAttribute o.kind.native "render")

/-- One assignment. -/
def renderAssignment (scope : Scope) (t : Table) (e : String × Operand) : Render String :=
  let column : Operand := match t.column? e.1 with
    | some c => .column c
    | none => .value .undefined
  (Expr.eq column e.2).render scope

/-- The text of the mutation with the given condition. -/
def render (d : MutationDraft) (condition : Operand) : Render String := do
  let scope : Scope := { columns := d.table.keys, bare := true }
  let head := "ALTER TABLE `" ++ d.table.name ++ "` " ++ d.kind.verb
  let assignments ← match d.kind with
    | .delete => pure ""
    | .update => do
      let texts ← d.assignments.mapM (renderAssignment scope d.table)
      pure (" " ++ ", ".intercalate texts)
  return head ++ assignments ++ " WHERE " ++ (← renderCondition scope condition)

/-- The statement and its parameters. -/
def toSql (d : MutationDraft) : Except Failure (String × List (String × Value)) := do
  let condition ← d.checked
  match (d.render condition).run {} with
  | (.ok sql, b) => return (sql, b.params)
  | (.error failure, _) => throw failure

/-- The mutation described: the one made before, or a new one. -/
def mutation (d : MutationDraft) : Except Failure Mutation :=
  match d.statement with
  | some m => .ok m
  | none => do
    let (sql, params) ← d.toSql
    return { sql, params, table := d.table.name }

/-- A table that only grows refuses every mutation. -/
theorem checked_of_appendOnly {d : MutationDraft} (h : d.table.options.appendOnly = true) :
    d.checked = .error (.appendOnly d.kind.verb d.table.name) := by
  simp [checked, h]

end MutationDraft

end Columnar
