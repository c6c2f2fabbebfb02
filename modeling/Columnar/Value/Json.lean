import Columnar.Error
import Columnar.Value.Equality

/-!
# JSON text of values

The text sent for a mapping. Values that JSON does not have (dates, identifiers, decimals) are
written as the text of their display form; keys are text, or the text of a number, a truth value
or null. Any other key is refused.
-/

namespace Columnar

/-- A float as a JSON token. -/
def Binary64.jsonToken : Binary64 → String
  | .nan => "NaN"
  | .infinite negative => if negative then "-Infinity" else "Infinity"
  | x => x.toText

namespace Value

/-- A key of a mapping as text. -/
def jsonKey : Value → Except Failure String
  | text s => .ok s
  | null => .ok "null"
  | bool b => .ok (if b then "true" else "false")
  | int n => .ok (Text.ofInt n)
  | float x => .ok x.jsonToken
  | v => .error (.jsonKey v.kind)

mutual

/-- The JSON text of a value, or the first key in it that JSON cannot have. -/
def toJson : Value → Except Failure String
  | null => .ok "null"
  | bool b => .ok (if b then "true" else "false")
  | int n => .ok (Text.ofInt n)
  | float x => .ok x.jsonToken
  | text s => .ok (Text.jsonQuote s)
  | list items => do return "[" ++ ", ".intercalate (← toJsonAll items) ++ "]"
  | tuple items => do return "[" ++ ", ".intercalate (← toJsonAll items) ++ "]"
  | map entries => do
    return "\x7b" ++ ", ".intercalate (← toJsonEntries entries) ++ "\x7d"
  | v => .ok (Text.jsonQuote v.display)

/-- The JSON texts of the items of a sequence. -/
def toJsonAll : List Value → Except Failure (List String)
  | [] => .ok []
  | x :: xs => do return (← toJson x) :: (← toJsonAll xs)

/-- The JSON texts of the entries of a mapping. -/
def toJsonEntries : List (Value × Value) → Except Failure (List String)
  | [] => .ok []
  | (k, v) :: rest => do
    let key ← jsonKey k
    let value ← toJson v
    return (Text.jsonQuote key ++ ": " ++ value) :: (← toJsonEntries rest)

end

end Value

end Columnar
