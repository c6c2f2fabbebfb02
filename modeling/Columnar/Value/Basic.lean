import Columnar.Calendar.DateTime
import Columnar.Number.Integer
import Columnar.Text.Quoted

/-!
# Values

What a literal, a setting, a parameter or a cell of a row can hold. Maps keep the order in which
their keys were first set.
-/

namespace Columnar

/-- A universally unique identifier. -/
structure Uuid where
  bits : BitVec 128
  deriving DecidableEq, Repr, Inhabited

namespace Uuid

/-- The canonical text: 32 lower-case hexadecimal digits in groups of 8, 4, 4, 4 and 12. -/
def toText (u : Uuid) : String :=
  let d := Text.hex 32 u.bits.toNat
  String.ofList (d.take 8 ++ '-' :: (d.drop 8).take 4 ++ '-' :: (d.drop 12).take 4
    ++ '-' :: (d.drop 16).take 4 ++ '-' :: d.drop 20)

/-- The digits of a written identifier: the names of its scheme in front, braces around and hyphens
between the digits are left out. -/
def digits (s : String) : List Char :=
  let bare := (s.replace "urn:" "").replace "uuid:" ""
  (Text.strip (fun c ↦ c == '{' || c == '}') bare.toList).filter (· != '-')

/-- The identifier whose number digits write in base sixteen. -/
def ofDigits? (digits : List Char) : Option Uuid :=
  (Integer.ofChars? 16 digits).map fun n ↦ ⟨BitVec.ofNat 128 n.toNat⟩

end Uuid

/-- A value. `undefined` marks a value that was never supplied. -/
inductive Value where
  | null
  | bool (b : Bool)
  | int (n : Int)
  | float (x : Binary64)
  | decimal (d : Decimal)
  | text (s : String)
  | uuid (u : Uuid)
  | date (d : Date)
  | dateTime (t : DateTime)
  | list (items : List Value)
  | tuple (items : List Value)
  | map (entries : List (Value × Value))
  | undefined
  deriving Inhabited, Repr

namespace Value

/-- Whether a value counts as present and non-empty: zero, empty text, empty collections, null
and undefined do not. -/
def isTruthy : Value → Bool
  | null | undefined => false
  | bool b => b
  | int n => n != 0
  | float x => !x.isZero
  | decimal d => !d.isZero
  | text s => s != ""
  | list items | tuple items => !items.isEmpty
  | map entries => !entries.isEmpty
  | uuid _ | date _ | dateTime _ => true

/-- Whether the value is null. -/
def isNull : Value → Bool
  | null => true
  | _ => false

/-- Whether the value is a list or a tuple. -/
def isSequence : Value → Bool
  | list _ | tuple _ => true
  | _ => false

end Value

/-- What kind of thing a message says it was given. -/
inductive Kind where
  | null | bool | int | float | decimal | text | uuid | date | dateTime | list | tuple | map
  | undefined | column | expression | abstract | slot | ordering | slice
  deriving DecidableEq, Repr

namespace Kind

/-- The full name of a kind in messages. -/
def qualified : Kind → String
  | null => "NoneType"
  | bool => "bool"
  | int => "int"
  | float => "float"
  | decimal => "decimal.Decimal"
  | text => "str"
  | uuid => "uuid.UUID"
  | date => "datetime.date"
  | dateTime => "datetime.datetime"
  | list => "list"
  | tuple => "tuple"
  | map => "dict"
  | undefined => "clickorm.expressions._bases._Undefined"
  | column => "clickorm.column.Column"
  | expression => "clickorm.expressions.sql.SQL"
  | abstract => "clickorm.expressions._bases.Expression"
  | slot => "clickorm.expressions._bases.Slot"
  | ordering => "clickorm.query.OrderBy"
  | slice => "slice"

/-- The last part of the full name. -/
def short : Kind → String
  | decimal => "Decimal"
  | uuid => "UUID"
  | date => "date"
  | dateTime => "datetime"
  | undefined => "_Undefined"
  | column => "Column"
  | expression => "SQL"
  | abstract => "Expression"
  | slot => "Slot"
  | ordering => "OrderBy"
  | k => k.qualified

/-- The name of a kind where a message speaks of its attributes: full for the kinds that are
built in, short for the others. -/
def native : Kind → String
  | decimal => "decimal.Decimal"
  | date => "datetime.date"
  | dateTime => "datetime.datetime"
  | k => k.short

end Kind

/-- The kind of a value. -/
def Value.kind : Value → Kind
  | .null => .null
  | .bool _ => .bool
  | .int _ => .int
  | .float _ => .float
  | .decimal _ => .decimal
  | .text _ => .text
  | .uuid _ => .uuid
  | .date _ => .date
  | .dateTime _ => .dateTime
  | .list _ => .list
  | .tuple _ => .tuple
  | .map _ => .map
  | .undefined => .undefined

end Columnar
