import Columnar.Expr.Operators
import Columnar.Literal.Typing
import Columnar.Literal.Serial

/-!
# Rendering expressions

Rendering writes an expression as SQL, with a numbered and typed placeholder for each literal,
and binds the literal's serial form under the placeholder's name. Numbers are taken from one
counter in the order of writing, also by literals that turn out to have no serial form.
-/

namespace Columnar

/-- Parameters bound so far, in order, and the last number given to one. -/
structure Bindings where
  count : Nat := 0
  params : List (String × Value) := []
  deriving Repr, Inhabited

namespace Bindings

/-- The name of the parameter with a number. -/
def nameOf (n : Nat) : String := "p_" ++ Text.ofNat n

/-- Takes the next number. -/
def next (b : Bindings) : Bindings := { b with count := b.count + 1 }

/-- Binds a value under the number taken last. -/
def push (b : Bindings) (v : Value) : Bindings :=
  { b with params := b.params ++ [(nameOf b.count, v)] }

end Bindings

/-- What rendering knows of its surroundings: the columns to suggest in place of an undefined
value, and whether columns are written without their table. -/
structure Scope where
  columns : List String := []
  bare : Bool := false
  deriving Repr, Inhabited

/-- A column as the scope writes it. -/
def Scope.column (s : Scope) (c : Column) : String := if s.bare then c.bare else c.qualified

/-- Rendering: an answer or a failure, and the parameters bound until then. -/
abbrev Render := ExceptT Failure (StateM Bindings)

/-- The placeholder of a parameter. -/
def placeholder (name type : String) : String := "\x7b" ++ name ++ ":" ++ type ++ "\x7d"

/-- Binds a literal and writes its placeholder. The number is taken before the serial form is
made, so a literal without one leaves a gap in the numbering. -/
def bindLiteral (v : Value) (type : String) : Render String := do
  modify Bindings.next
  let name := Bindings.nameOf (← get).count
  let serial ← liftM (Literal.serialize v)
  modify (·.push serial)
  return placeholder name type

/-- Writes a body after the text `soFar`: `position` is the number of its first slot and `last`
the column directly before it, if there is one. -/
def Body.render (scope : Scope) (soFar : String) (position : Nat) (last : Option Column) :
    Body → Render String
  | missing => throw (.noBody "render")
  | done text => return soFar ++ text
  | column text c rest =>
    rest.render scope (soFar ++ text ++ scope.column c) (position + 1) (some c)
  | nested text _ inner rest => do
    let sql ← inner.render scope "" 0 none
    rest.render scope (soFar ++ text ++ sql) (position + 1) none
  | raw text insert rest => rest.render scope (soFar ++ text ++ insert) (position + 1) none
  | literal text v rest => do
    if v matches .undefined then
      throw (.undefinedLiteral position scope.columns (soFar ++ text))
    let place ← bindLiteral v (Literal.inferType v last)
    rest.render scope (soFar ++ text ++ place) (position + 1) none

/-- The SQL of an expression. -/
def Expr.render (scope : Scope) (e : Expr) : Render String := e.body.render scope "" 0 none

/-- The SQL of an expression on its own, with the parameters it binds. -/
def Expr.toSql (scope : Scope) (e : Expr) : Except Failure (String × List (String × Value)) :=
  match (e.render scope).run {} with
  | (.ok sql, b) => .ok (sql, b.params)
  | (.error failure, _) => .error failure

/-- The SQL of an operand that may stand in a clause: a column or an expression. -/
def Operand.render (scope : Scope) : Operand → Render String
  | column c => return scope.column c
  | expression e => e.render scope
  | o => throw (.notAnItem o.kind)

end Columnar
