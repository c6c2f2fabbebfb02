import Columnar.Value.Basic

/-!
# Text of values

`inspect` is the written form of a value inside a collection, where text stands between quotes;
`display` is its form on its own, where text, dates, numbers and identifiers are plain.
-/

namespace Columnar

/-- The integer in decimal digits. -/
def Text.ofInt (n : Int) : String :=
  if n < 0 then "-" ++ Text.ofNat n.natAbs else Text.ofNat n.natAbs

namespace DateTime

/-- A number of seconds other than zero as a call that rebuilds the span of time: days of either
sign and seconds of a day, as far as they are not zero. -/
def spanText (seconds : Int) : String :=
  let days := seconds / 86400
  let rest := seconds % 86400
  let dayPart := if days = 0 then [] else ["days=" ++ Text.ofInt days]
  let secondPart := if rest = 0 then [] else ["seconds=" ++ Text.ofInt rest]
  "datetime.timedelta(" ++ ", ".intercalate (dayPart ++ secondPart) ++ ")"

/-- The zone of a clock as an expression that rebuilds it. -/
def zoneText (seconds : Int) : String :=
  if seconds = 0 then "datetime.timezone.utc"
  else "datetime.timezone(" ++ spanText seconds ++ ")"

/-- A date-time as a call that rebuilds it: seconds and microseconds only as far as needed. -/
def inspect (t : DateTime) : String :=
  let c := Civil.ofDay t.dayNumber
  let (h, m, s, micro) := t.clock
  let numbers := [c.year, c.month, c.day, h, m]
    ++ (if micro ≠ 0 then [s, micro] else if s ≠ 0 then [s] else [])
  let zone :=
    match t.offset with
    | some seconds => ["tzinfo=" ++ zoneText seconds]
    | none => []
  "datetime.datetime(" ++ ", ".intercalate (numbers.map Text.ofNat ++ zone) ++ ")"

end DateTime

/-- A date as a call that rebuilds it. -/
def Date.inspect (d : Date) : String :=
  let c := d.civil
  "datetime.date(" ++ ", ".intercalate ([c.year, c.month, c.day].map Text.ofNat) ++ ")"

namespace Value

mutual

/-- The written form of a value inside a collection. -/
def inspect : Value → String
  | null => "None"
  | bool b => if b then "True" else "False"
  | int n => Text.ofInt n
  | float x => x.toText
  | decimal d => "Decimal(" ++ Text.quote d.toText ++ ")"
  | text s => Text.quote s
  | uuid u => "UUID(" ++ Text.quote u.toText ++ ")"
  | date d => d.inspect
  | dateTime t => t.inspect
  | list items => "[" ++ ", ".intercalate (inspectAll items) ++ "]"
  | tuple [x] => "(" ++ inspect x ++ ",)"
  | tuple items => "(" ++ ", ".intercalate (inspectAll items) ++ ")"
  | map entries => "\x7b" ++ ", ".intercalate (inspectEntries entries) ++ "\x7d"
  | undefined => "UNDEFINED"

/-- The written forms of the items of a sequence. -/
def inspectAll : List Value → List String
  | [] => []
  | x :: xs => inspect x :: inspectAll xs

/-- The written forms of the entries of a map. -/
def inspectEntries : List (Value × Value) → List String
  | [] => []
  | (k, v) :: rest => (inspect k ++ ": " ++ inspect v) :: inspectEntries rest

end

/-- The form of a value on its own. -/
def display : Value → String
  | text s => s
  | decimal d => d.toText
  | uuid u => u.toText
  | date d => d.toText
  | dateTime t => t.toText
  | v => v.inspect

/-- Text displays as itself. -/
theorem display_text (s : String) : display (text s) = s := rfl

end Value

end Columnar
