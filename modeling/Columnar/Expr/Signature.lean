import Columnar.Expr.Operators
import Columnar.Literal.Typing
import Columnar.Literal.Serial

/-!
# Signatures of expressions

The signature of an expression is its structure without the values of its literals: a literal
leaves only its type. Walking an expression yields the signature and, in order, the serial form
and the type of every literal met.
-/

namespace Columnar

/-- A signature, and the literals met on the way with their types. -/
structure Walked where
  text : String
  seen : List (Value × String)
  deriving Repr, Inhabited

/-- The place of a literal in a signature. -/
def typeMark (type : String) : String := "\x7b:" ++ type ++ "\x7d"

/-- Text and literals in front of what is walked already. -/
def Walked.after (text : String) (seen : List (Value × String)) (w : Walked) : Walked :=
  ⟨text ++ w.text, seen ++ w.seen⟩

/-- Walks a body; `last` is the column directly before it, if there is one. -/
def Body.walk (last : Option Column) : Body → Except Failure Walked
  | missing => .error (.noBody "walk")
  | done text => .ok ⟨text, []⟩
  | column text c rest => return (← rest.walk (some c)).after (text ++ c.signature) []
  | nested text _ inner rest => do
    let w ← inner.walk none
    return (← rest.walk none).after (text ++ w.text) w.seen
  | raw text insert rest => return (← rest.walk none).after (text ++ insert) []
  | literal text v rest =>
    match v with
    | .undefined => do return (← rest.walk none).after (text ++ typeMark "UNDEFINED") []
    | v => do
      let type := Literal.inferType v last
      let serial ← Literal.serialize v
      return (← rest.walk none).after (text ++ typeMark type) [(serial, type)]

/-- Walks an expression. -/
def Expr.walk (e : Expr) : Except Failure Walked := e.body.walk none

end Columnar
