import Columnar.Checked
import Columnar.Expr.Inspect
import Columnar.Literal.Serial

/-!
# Operators

Comparison, membership and logic over operands, templates with `{}` for each place, calls of
functions and lists with separators. All of them weave slots into text.
-/

namespace Columnar

/-- The slot an operand takes: columns and expressions stay what they are, raw text stays raw,
anything else is a literal. -/
def Operand.slot : Operand → Slot
  | value v => .literal v
  | column c => .column c
  | expression e => .expression e
  | raw text => .raw text
  | o => .literal (.text o.inspect)

namespace Expr

/-- An expression of text alone. -/
def ofText (text : String) : Expr := { body := .done text }

/-- Operands woven into text. -/
def weave (head : String) (pieces : List (Operand × String)) : Expr :=
  { body := .weave head (pieces.map fun p ↦ (p.1.slot, p.2)) }

/-- Two operands with a text between them. -/
def between2 (left : Operand) (text : String) (right : Operand) : Expr :=
  weave "" [(left, text), (right, "")]

/-- Equality of two operands. -/
def eq (left right : Operand) : Expr := between2 left " = " right

/-- Inequality of two operands. -/
def ne (left right : Operand) : Expr := between2 left " != " right

/-- Strict order, the left operand above. -/
def gt (left right : Operand) : Expr := between2 left " > " right

/-- Order, the left operand above or equal. -/
def gte (left right : Operand) : Expr := between2 left " >= " right

/-- Strict order, the left operand below. -/
def lt (left right : Operand) : Expr := between2 left " < " right

/-- Order, the left operand below or equal. -/
def lte (left right : Operand) : Expr := between2 left " <= " right

/-- Whether an operand is an empty list or tuple. -/
def isEmptySequence : Operand → Bool
  | .value (.list []) | .value (.tuple []) => true
  | _ => false

/-- Membership; nothing is a member of an empty list. -/
def inArray (column values : Operand) : Expr :=
  if isEmptySequence values then ofText "1=0" else between2 column " IN " values

/-- Absence; everything is absent from an empty list. -/
def notInArray (column values : Operand) : Expr :=
  if isEmptySequence values then ofText "1=1" else between2 column " NOT IN " values

/-- An operand between two bounds, both included. -/
def between (column low high : Operand) : Expr :=
  weave "" [(column, " BETWEEN "), (low, " AND "), (high, "")]

/-- An operand outside two bounds. -/
def notBetween (column low high : Operand) : Expr :=
  weave "" [(column, " NOT BETWEEN "), (low, " AND "), (high, "")]

/-- A function of two operands. -/
def call2 (name : String) (first second : Operand) : Expr :=
  weave (name ++ "(") [(first, ", "), (second, ")")]

/-- An array holds a value. -/
def has (column value : Operand) : Expr := call2 "has" column value

/-- An array holds all values of another. -/
def hasAll (column values : Operand) : Expr := call2 "hasAll" column values

/-- An array holds some value of another. -/
def hasAny (column values : Operand) : Expr := call2 "hasAny" column values

/-- An operand is null. -/
def isNull (column : Operand) : Expr := weave "" [(column, " IS NULL")]

/-- An operand is not null. -/
def isNotNull (column : Operand) : Expr := weave "" [(column, " IS NOT NULL")]

/-- Negation. -/
def not (operand : Operand) : Expr := weave "NOT (" [(operand, ")")]

end Expr

/-- Operands with a text after each: one text between two of them and another after the last. -/
def separated (separator last : String) : List Operand → List (Operand × String)
  | [] => []
  | [o] => [(o, last)]
  | o :: rest => (o, separator) :: separated separator last rest

namespace Operand

/-- Whether a combination leaves the operand out: null and false. -/
def isDropped : Operand → Bool
  | value .null | value (.bool false) => true
  | _ => false

/-- Parenthesised operands joined by a keyword. What is dropped does not count; a single operand
stays as it is and none at all is null. -/
def combine (keyword : String) (operands : List Operand) : Operand :=
  match operands.filter fun o ↦ !o.isDropped with
  | [] => value .null
  | [o] => o
  | kept => expression (Expr.weave "(" (separated (") " ++ keyword ++ " (") ")" kept))

/-- All operands hold. -/
def all (operands : List Operand) : Operand := combine "AND" operands

/-- Some operand holds. -/
def any (operands : List Operand) : Operand := combine "OR" operands

end Operand

namespace Expr

/-- The pieces of a template around its places `{}`. -/
def splitPlaces (piece : List Char) : List Char → List (List Char)
  | [] => [piece.reverse]
  | [c] => [(c :: piece).reverse]
  | '{' :: '}' :: rest => piece.reverse :: splitPlaces [] rest
  | c :: d :: rest => splitPlaces (c :: piece) (d :: rest)

/-- An expression from a template, one operand for each place. -/
def template (text : String) (operands : List Operand) : Except Failure Expr :=
  let pieces := (splitPlaces [] text.toList).map String.ofList
  match Body.ofParts? pieces (operands.map Operand.slot) with
  | some body => .ok { body }
  | none => .error (.placeholderCount (pieces.length - 1) operands.length)

/-- An expression from pieces of text and the operands between them. -/
def ofParts (pieces : List String) (operands : List Operand) : Except Failure Expr :=
  match Body.ofParts? pieces (operands.map Operand.slot) with
  | some body => .ok { body }
  | none =>
    .error (.invalid [⟨[], .refused (s!"SQL needs exactly one more chunk than slots; got "
      ++ s!"{pieces.length} chunks and {operands.length} slots")⟩])

/-- Trusted SQL text. -/
def raw (text : String) : Expr := weave "" [(.raw text, "")]

/-- Items with a separator between each two: text is trusted SQL, any other separator is an
operand of its own. -/
def list (items : List Operand) (separator : Operand) : Expr :=
  let separator :=
    match separator with
    | .value (.text s) => .raw s
    | o => o
  weave "" ((items.intersperse separator).map fun o ↦ (o, ""))

/-- A call of a function. -/
def call (name : String) (operands : List Operand) : Except Failure Expr :=
  if name = "" then .error .noFunctionName
  else if operands.isEmpty then .ok (ofText (name ++ "()"))
  else .ok (weave (name ++ "(") (separated ", " ")" operands))

end Expr

/-- An expression from pieces of text, given as values, and the operands between them. -/
def Expr.ofValues (pieces : List Value) (operands : List Operand) : Except Failure Expr := do
  Expr.ofParts (← (Read.texts "chunks" (.list pieces)).toExcept) operands

/-- An ordering by anything, in a direction given as a value. -/
def Operand.orderedBy (item : Operand) (direction : Value) : Except Failure Operand :=
  let direction? := match direction with
    | .text s => Direction.ofKeyword? s
    | _ => none
  match direction? with
  | some d => .ok (.ordering item d)
  | none => .error (.invalid [⟨["direction"], .literalError⟩])

/-- Raw SQL must be text. -/
def Operand.rawText? : Value → Except Failure String
  | .text s => .ok s
  | v => .error (.rawNotText v.kind)

end Columnar
