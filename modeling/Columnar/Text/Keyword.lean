import Columnar.Text.Blank

/-!
# Keywords

SQL keywords are recognised in any letter case and with any blanks between their words. Only
ASCII capitals matter for that, so a letter counts as its upper-case form where this form is
ASCII: besides `a` to `z` these are the dotless `ı`, the long `ſ`, the sharp `ß` and the
ligatures of `f` and `s`.
-/

namespace Columnar.Text

/-- The upper-case form of a character where it is ASCII, otherwise the character itself. -/
def capital (c : Char) : List Char :=
  if 'a' ≤ c && c ≤ 'z' then [Char.ofNat (c.toNat - 32)]
  else match c.toNat with
    | 0x131 => ['I']
    | 0x17f => ['S']
    | 0xdf => ['S', 'S']
    | 0xfb00 => ['F', 'F']
    | 0xfb01 => ['F', 'I']
    | 0xfb02 => ['F', 'L']
    | 0xfb03 => ['F', 'F', 'I']
    | 0xfb04 => ['F', 'F', 'L']
    | 0xfb05 => ['S', 'T']
    | 0xfb06 => ['S', 'T']
    | _ => [c]

/-- The text with letters in capitals. -/
def capitals (s : String) : String := String.ofList (s.toList.flatMap capital)

/-- Keywords in capitals with single blanks between them. -/
def keywords (s : String) : String := " ".intercalate (words (capitals s))

/-- Whether a text, blanks at its ends left out and letters in capitals, ends in a suffix. -/
def endsInKeyword (suffix s : String) : Bool :=
  suffix.toList.isSuffixOf (capitals (trim s)).toList

end Columnar.Text
