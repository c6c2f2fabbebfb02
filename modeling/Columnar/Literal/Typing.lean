import Columnar.Column
import Columnar.Text.Digit
import Columnar.Value.Equality

/-!
# Types of literals

A literal that follows a column of an identifier or number type takes the column's type; any
other literal has the type of its value.
-/

namespace Columnar.Literal

/-- Whether a text begins with the characters of a word. -/
def startsWith (word : String) (cs : List Char) : Bool := word.toList.isPrefixOf cs

/-- The characters after a word, when the text begins with it. -/
def after? (word : String) (cs : List Char) : Option (List Char) :=
  if startsWith word cs then some (cs.drop word.length) else none

/-- Whether the next character is a decimal digit. -/
def digitNext : List Char → Bool
  | c :: _ => Text.isDigit c
  | [] => false

/-- Whether a type's text begins as a number type: an integer or float with its width, or a
decimal. -/
def isNumeric (type : List Char) : Bool :=
  let integer := ((after? "U" type).getD type)
  (after? "Int" integer).any digitNext || (after? "Float" type).any digitNext
    || startsWith "Decimal" type

/-- The type inside `Nullable(...)`, or the type itself. -/
def withoutNullable (type : List Char) : List Char :=
  match after? "Nullable(" type with
  | some inner => if type.getLast? == some ')' then inner.dropLast else type
  | none => type

/-- The type that a column imposes on the literal after it. -/
def imposed? (c : Column) : Option String :=
  let declared := withoutNullable c.type.toList
  if declared == "UUID".toList || isNumeric declared then some c.type else none

/-- Whether a character may stand at a place of a canonical identifier text. -/
def uuidShape (position : Nat) (c : Char) : Bool :=
  if [8, 13, 18, 23].contains position then c == '-'
  else ('0' ≤ c && c ≤ '9') || ('a' ≤ c && c ≤ 'f')

/-- Whether a text is a canonical identifier: 36 characters, lower-case digits and hyphens. -/
def isUuidText (s : String) : Bool :=
  let cs := s.toList
  cs.length == 36 && (cs.zipIdx.all fun p ↦ uuidShape p.2 p.1)

/-- The type of a value on its own. A sequence has the type of its first item. -/
def plainType : Value → String
  | .null => "String"
  | .bool _ => "Bool"
  | .int _ => "Int32"
  | .float _ | .decimal _ => "Float64"
  | .date _ | .dateTime _ => "DateTime"
  | .list [] | .tuple [] => "Array(String)"
  | .list (x :: _) | .tuple (x :: _) => "Array(" ++ plainType x ++ ")"
  | .uuid _ => "UUID"
  | .text s => if isUuidText s then "UUID" else "String"
  | .map _ | .undefined => "String"

/-- The type of a literal after a column, if one directly precedes it. -/
def inferType (v : Value) (column : Option Column) : String :=
  match column.bind imposed? with
  | some type => if v.isSequence then "Array(" ++ type ++ ")" else type
  | none => plainType v

/-- Without a column a literal has its value's own type. -/
theorem inferType_none (v : Value) : inferType v none = plainType v := rfl

end Columnar.Literal
