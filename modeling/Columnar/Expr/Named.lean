import Columnar.Expr.Operators

/-!
# Operators by name

The operators under the names by which requests in text form refer to them. An operator has a
place for each of its operands; `apply_of_length` says that it fails with any other number of
them.
-/

namespace Columnar

/-- An operator: the name it has in messages, the names of its places, and what it makes of one
operand for each place. -/
structure Operator where
  title : String
  places : List String
  make : List Operand → Option Operand

namespace Operator

/-- An operator of one operand. -/
def unary (title place : String) (f : Operand → Operand) : Operator where
  title
  places := [place]
  make
    | [a] => some (f a)
    | _ => none

/-- An operator of two operands. -/
def binary (title first second : String) (f : Operand → Operand → Expr) : Operator where
  title
  places := [first, second]
  make
    | [a, b] => some (.expression (f a b))
    | _ => none

/-- An operator of three operands. -/
def ternary (title first second third : String) (f : Operand → Operand → Operand → Expr) :
    Operator where
  title
  places := [first, second, third]
  make
    | [a, b, c] => some (.expression (f a b c))
    | _ => none

/-- What an operator makes of operands, of which there must be one for each place. -/
def apply (o : Operator) (operands : List Operand) : Except Failure Operand :=
  if operands.length = o.places.length then
    match o.make operands with
    | some made => .ok made
    | none => .error (.operandCount o.title o.places operands.length)
  else .error (.operandCount o.title o.places operands.length)

/-- An operator fails with another number of operands than it has places. -/
theorem apply_of_length {o : Operator} {operands : List Operand}
    (h : operands.length ≠ o.places.length) :
    o.apply operands = .error (.operandCount o.title o.places operands.length) := by
  simp [apply, h]

/-- The operators under their names. -/
def all : List (String × Operator) :=
  [("is_null", unary "is_null" "column" fun a ↦ .expression (.isNull a)),
    ("is_not_null", unary "is_not_null" "column" fun a ↦ .expression (.isNotNull a)),
    ("not", unary "not_" "expression" fun a ↦ .expression (.not a)),
    ("asc", unary "asc" "expression" fun a ↦ .ordering a .asc),
    ("desc", unary "desc" "expression" fun a ↦ .ordering a .desc),
    ("eq", binary "eq" "left" "right" Expr.eq),
    ("ne", binary "ne" "left" "right" Expr.ne),
    ("gt", binary "gt" "left" "right" Expr.gt),
    ("gte", binary "gte" "left" "right" Expr.gte),
    ("lt", binary "lt" "left" "right" Expr.lt),
    ("lte", binary "lte" "left" "right" Expr.lte),
    ("in_array", binary "in_array" "column" "values" Expr.inArray),
    ("not_in_array", binary "not_in_array" "column" "values" Expr.notInArray),
    ("has", binary "has" "column" "value" Expr.has),
    ("has_all", binary "has_all" "column" "values" Expr.hasAll),
    ("has_any", binary "has_any" "column" "values" Expr.hasAny),
    ("between", ternary "between" "column" "low" "high" Expr.between),
    ("not_between", ternary "not_between" "column" "low" "high" Expr.notBetween)]

end Operator

/-- What the operator with a name makes of its operands. Conjunction and disjunction take any
number of them. -/
def Operand.named (name : String) (operands : List Operand) : Except Failure Operand :=
  match name with
  | "and" => .ok (Operand.all operands)
  | "or" => .ok (Operand.any operands)
  | name =>
    match Operator.all.lookup name with
    | some o => o.apply operands
    | none => .error (.noKey (.text name))

end Columnar
