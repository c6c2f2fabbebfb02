import Columnar.Text.Printable

/-!
# Quoted text

Two written forms of a text. `quote` puts it between single quotes (double quotes when it
holds a single quote and no double one) and writes what does not print as a code. `jsonQuote`
puts it between double quotes and writes everything outside ASCII as UTF-16 units.
-/

namespace Columnar.Text

/-- The lower-case hexadecimal digits of a code, padded with zeros to `width`. -/
def hex (width n : Nat) : List Char :=
  let digits := Nat.toDigits 16 n
  List.replicate (width - digits.length) '0' ++ digits

/-- The quote that encloses a text: single, unless only that one occurs inside. -/
def quoteMark (cs : List Char) : Char :=
  if cs.contains '\'' && !cs.contains '"' then '"' else '\''

/-- One character between the given quotes: a code where it does not print. -/
def escape (mark c : Char) : List Char :=
  if c == mark || c == '\\' then ['\\', c]
  else if c == '\n' then ['\\', 'n']
  else if c == '\r' then ['\\', 'r']
  else if c == '\t' then ['\\', 't']
  else if isPrintable c then [c]
  else if c.toNat < 0x100 then '\\' :: 'x' :: hex 2 c.toNat
  else if c.toNat < 0x10000 then '\\' :: 'u' :: hex 4 c.toNat
  else '\\' :: 'U' :: hex 8 c.toNat

/-- The text between quotes. -/
def quote (s : String) : String :=
  let cs := s.toList
  let mark := quoteMark cs
  String.ofList (mark :: cs.flatMap (escape mark) ++ [mark])

/-- The UTF-16 units of a character. -/
def units16 (c : Char) : List Nat :=
  let n := c.toNat
  if n < 0x10000 then [n]
  else [0xd800 + (n - 0x10000) / 0x400, 0xdc00 + (n - 0x10000) % 0x400]

/-- One character of a JSON text: short escapes for the usual controls, and UTF-16 units for
every other control and for all that lies outside ASCII. -/
def jsonEscape (c : Char) : List Char :=
  if c == '"' || c == '\\' then ['\\', c]
  else if c == '\n' then ['\\', 'n']
  else if c == '\r' then ['\\', 'r']
  else if c == '\t' then ['\\', 't']
  else if c.toNat == 0x8 then ['\\', 'b']
  else if c.toNat == 0xc then ['\\', 'f']
  else if 0x20 ≤ c.toNat && c.toNat ≤ 0x7e then [c]
  else (units16 c).flatMap fun unit ↦ '\\' :: 'u' :: hex 4 unit

/-- The text as a JSON string. -/
def jsonQuote (s : String) : String :=
  String.ofList ('"' :: s.toList.flatMap jsonEscape ++ ['"'])

/-- The first `n` characters of a text. -/
def takeFirst (n : Nat) (s : String) : String := String.ofList (s.toList.take n)

/-- The last `n` characters of a text. -/
def takeLast (n : Nat) (s : String) : String :=
  let cs := s.toList
  String.ofList (cs.drop (cs.length - n))

/-- A text no longer than the cut is kept whole. -/
theorem takeFirst_of_length_le {n : Nat} {s : String} (h : s.toList.length ≤ n) :
    takeFirst n s = s := by
  simp [takeFirst, List.take_of_length_le h]

end Columnar.Text
