import Columnar.Text.Keyword
import Columnar.Value.Text

/-!
# Settings

The text of a setting's value, and the order in which settings and windows are written. Text
stands between single quotes, with a backslash before each backslash and quote inside.
-/

namespace Columnar.Setting

/-- The characters of a text inside single quotes. -/
def escape (cs : List Char) : List Char :=
  cs.flatMap fun c ↦ if c == '\\' || c == '\'' then ['\\', c] else [c]

/-- The text of a setting's value: truth values as digits, text in quotes. -/
def format : Value → String
  | .bool b => if b then "1" else "0"
  | .text s => String.ofList ('\'' :: escape s.toList ++ ['\''])
  | v => v.display

/-- Entries in the order of their keys, by code points. -/
def sorted {α : Type} (entries : List (String × α)) : List (String × α) :=
  entries.mergeSort fun a b ↦ a.1 ≤ b.1

/-- Sorting loses and adds nothing. -/
theorem sorted_perm {α : Type} (entries : List (String × α)) :
    (sorted entries).Perm entries := List.mergeSort_perm _ _

/-- Sorting leaves entries empty when they are. -/
theorem isEmpty_sorted {α : Type} (entries : List (String × α)) :
    (sorted entries).isEmpty = entries.isEmpty := by
  rw [Bool.eq_iff_iff, List.isEmpty_iff_length_eq_zero, List.isEmpty_iff_length_eq_zero,
    (sorted_perm entries).length_eq]

/-- The setting that lets statements read from projections. -/
def projections : String := "optimize_use_projections"

end Columnar.Setting
