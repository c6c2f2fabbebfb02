import Columnar.Value.Access
import Columnar.Value.Json

/-!
# Serial form of literals

The form in which a literal is bound as a parameter: dates as text in universal time,
identifiers as text, mappings as JSON text, sequences item by item as a list.
-/

namespace Columnar.Literal

/-- The text of a date-time to the second, in universal time. -/
def dateTimeText (t : DateTime) : Except Failure String :=
  match t.serial? with
  | some s => .ok s
  | none => .error .dateOutOfRange

/-- The text of a date: its midnight. -/
def dateText (d : Date) : Except Failure String := dateTimeText (.ofDate d)

/-- The text of a date or a date-time; other values have no date. -/
def dateTextOf : Value → Except Failure String
  | .date d => dateText d
  | .dateTime t => dateTimeText t
  | v => .error (v.lacks "year")

mutual

/-- The serial form of a value. -/
def serialize : Value → Except Failure Value
  | .date d => do return .text (← dateText d)
  | .dateTime t => do return .text (← dateTimeText t)
  | .uuid u => .ok (.text u.toText)
  | .map entries => do return .text (← Value.toJson (.map entries))
  | .list items => do return .list (← serializeAll items)
  | .tuple items => do return .list (← serializeAll items)
  | v => .ok v

/-- The serial forms of the items of a sequence. -/
def serializeAll : List Value → Except Failure (List Value)
  | [] => .ok []
  | x :: xs => do return (← serialize x) :: (← serializeAll xs)

end

/-- A date always has a serial form. -/
theorem dateText_eq (d : Date) :
    dateText d = .ok (DateTime.clockText (DateTime.ofDate d).seconds.toNat) := by
  rw [dateText, dateTimeText, DateTime.serial?_of_offset_none (t := .ofDate d) rfl]

end Columnar.Literal
