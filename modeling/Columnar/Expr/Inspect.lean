import Columnar.Expr.Basic
import Columnar.Value.Text

/-!
# Written form of operands

The form in which columns, expressions, slots and orderings are shown when they stand where a
query expects something else.
-/

namespace Columnar

/-- An optional text in its written form. -/
def inspectOption : Option String → String
  | some s => Text.quote s
  | none => "None"

private def tupleOf : List String → String
  | [x] => "(" ++ x ++ ",)"
  | xs => "(" ++ ", ".intercalate xs ++ ")"

private def slotText (tag value : String) : String :=
  "Slot(kind=<SlotKind." ++ tag.toUpper ++ ": " ++ Text.quote tag ++ ">, value=" ++ value ++ ")"

private def exprText (label : Label) (slots : Option (List String)) (chunks : List String) :
    String :=
  let fields := "alias=" ++ inspectOption label.aliasName ++ ", type=" ++ inspectOption label.type
  match slots with
  | none => "Expression(" ++ fields ++ ")"
  | some slots =>
    "SQL(" ++ fields ++ ", chunks=" ++ tupleOf (chunks.map Text.quote)
      ++ ", slots=" ++ tupleOf slots ++ ")"

/-- The written forms of the slots of a body; `none` when the body is missing. -/
def Body.inspectSlots : Body → Option (List String)
  | missing => none
  | done _ => some []
  | column _ c rest => rest.inspectSlots.map (slotText "column" c.inspect :: ·)
  | nested _ label inner rest =>
    rest.inspectSlots.map
      (slotText "expression" (exprText label inner.inspectSlots inner.chunks) :: ·)
  | literal _ v rest => rest.inspectSlots.map (slotText "literal" v.inspect :: ·)
  | raw _ insert rest => rest.inspectSlots.map (slotText "raw" (Text.quote insert) :: ·)

/-- The written form of an expression. -/
def Expr.inspect (e : Expr) : String := exprText e.label e.body.inspectSlots e.body.chunks

/-- The written form of an operand. -/
def Operand.inspect : Operand → String
  | value v => v.inspect
  | column c => c.inspect
  | expression e => e.inspect
  | raw text => slotText "raw" (Text.quote text)
  | ordering item direction =>
    "OrderBy(expression=" ++ item.inspect ++ ", direction=" ++ Text.quote direction.keyword ++ ")"

end Columnar
