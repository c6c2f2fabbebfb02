import Columnar.Value.Access

/-!
# Misfits

A clause can be overridden by a value that it cannot hold. Such a misfit stands in place of what
the clause held until the clause is set anew; it shows when something is done with the clause. A
query that was only built, and never overridden, has none.
-/

namespace Columnar

/-- The misfits of a query, clause by clause. -/
structure Misfits where
  table : Option Value := none
  ctes : Option Value := none
  selection : Option Value := none
  /-- In place of a function that makes the selection. -/
  pending : Option Value := none
  /-- In place of the truth value for merged rows, which the misfit's own truth stands for. -/
  final : Option Value := none
  joins : Option Value := none
  arrayJoins : Option Value := none
  groupBy : Option Value := none
  orderBy : Option Value := none
  sample : Option Value := none
  settings : Option Value := none
  windows : Option Value := none
  suggestions : Option Value := none
  deriving Inhabited, Repr

namespace Misfits

/-- Whether more items can be added to a clause: not when something else than a list stands in its
place. -/
def extensible : Option Value → Except Failure Unit
  | none => .ok ()
  | some v => do
    let _ ← v.extensible
    return ()

/-- Items can be added to a clause that holds what it should. -/
@[simp] theorem extensible_none : extensible none = .ok () := rfl

/-- Asks the items of what stands in place of a clause for an attribute of theirs. -/
def visit (name : String) : Option Value → Except Failure Unit
  | none => .ok ()
  | some v => v.visit name

/-- Asks the items of what stands in place of a clause for an attribute of theirs, unless it counts
as absent. -/
def visitIfAny (name : String) : Option Value → Except Failure Unit
  | none => .ok ()
  | some v => v.visitIfAny name

/-- A clause that holds what it should is not asked. -/
@[simp] theorem visit_none (name : String) : visit name none = .ok () := rfl

/-- A clause that holds what it should is not asked. -/
@[simp] theorem visitIfAny_none (name : String) : visitIfAny name none = .ok () := rfl

end Misfits

end Columnar
