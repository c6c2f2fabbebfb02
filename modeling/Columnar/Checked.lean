import Columnar.Error
import Columnar.Value.Equality

/-!
# Checking options

Records of options are read from values field by field. Every problem is reported, in the order
of the fields; a record is made only when there is none. The readers accept what is plainly
meant: text for numbers and truth values, truth values for numbers, numbers without fraction for
integers.
-/

namespace Columnar

/-- A result, or all problems found. -/
def Checked (α : Type) := Except (List Problem) α

namespace Checked

variable {α β : Type}

/-- A result without problems. -/
def good (a : α) : Checked α := Except.ok a

/-- Problems instead of a result. -/
def bad (problems : List Problem) : Checked α := Except.error problems

/-- Applies a checked function to a checked argument and keeps the problems of both. -/
def apply (f : Checked (α → β)) (x : Checked α) : Checked β :=
  match f, x with
  | .ok f, .ok x => good (f x)
  | .error p, .ok _ => bad p
  | .ok _, .error q => bad q
  | .error p, .error q => bad (p ++ q)

/-- Checks run side by side, and all of their problems are kept. -/
instance : Applicative Checked where
  pure := good
  seq f x := apply f (x ())

/-- A field read at a path. -/
def field (path : String) (x : Except Issue α) : Checked α :=
  x.mapError fun issue ↦ [⟨[path], issue⟩]

/-- A result without problems, or the failure that lists them. -/
def toExcept (x : Checked α) : Except Failure α := x.mapError .invalid

end Checked

namespace Read

/-- Whether what follows an integer adds nothing to it: nothing, or a point and zeros. -/
def isZeroFraction : List Char → Bool
  | [] => true
  | '.' :: zeros => !zeros.isEmpty && zeros.all (· == '0')
  | _ => false

/-- Digits without leading zeros and the underscores among these; of zeros alone the last character
is left. -/
def dropLeadingZeros (cs : List Char) : List Char :=
  if cs.head? == some '0' then
    match cs.dropWhile fun c ↦ c == '0' || c == '_' with
    | [] => cs.drop (cs.length - 1)
    | rest => rest
  else cs

/-- The integer a text writes: white space around it is left out, a point followed by zeros counts
for nothing, digits may be separated by single underscores. -/
def integer? (s : String) : Option Int :=
  let (negative, cs) := Decimal.readSign (Text.trimSpace s.toList)
  let digits := Binary64.dropSeparators (dropLeadingZeros (cs.takeWhile (· != '.')))
  if digits.isEmpty || !isZeroFraction (cs.dropWhile (· != '.')) then none
  else (Text.natural? 0 digits).map fun n ↦ if negative then -(n : Int) else n

/-- The float a text writes: white space around it is left out. Where that is no number and the
text has underscores, none at its ends and no two together, these are left out instead. -/
def float? (s : String) : Option Binary64 :=
  let cs := s.toList
  let joined (c : Char × Char) : Bool := c.1 == '_' && c.2 == '_'
  (Binary64.ofChars? (Text.trimSpace cs)).or <|
    if cs.contains '_' && cs.head? != some '_' && cs.getLast? != some '_'
        && !(cs.zip (cs.drop 1)).any joined then
      Binary64.ofChars? (cs.filter (· != '_'))
    else none

/-- The integer a number without fraction stands for. -/
def integerOf (n : Numeral) : Except Issue Int :=
  match n.toInt? with
  | some i => .ok i
  | none => .error .intFromFloat

/-- One above the largest integer that a float may stand for. -/
def integerBound : Int := 9223372036854775808

/-- The integer a float stands for: a finite one without fraction and of moderate size. -/
def integerOfFloat (x : Binary64) : Except Issue Int :=
  match x.numeral? with
  | none => .error .finiteNumber
  | some n =>
    match integerOf n with
    | .ok i =>
      if -integerBound < i && i < integerBound then .ok i else .error .intParsingSize
    | .error issue => .error issue

/-- An integer field. -/
def integer : Value → Except Issue Int
  | .int n => .ok n
  | .bool b => .ok (if b then 1 else 0)
  | .float x => integerOfFloat x
  | .decimal d =>
    match d.numeral? with
    | some n => integerOf n
    | none => .error .finiteNumber
  | .text s =>
    match integer? s with
    | some n => .ok n
    | none => .error .intParsing
  | _ => .error .intType

/-- A field that takes null or what the reader takes. -/
def optional {α : Type} (reader : Value → Except Issue α) : Value → Except Issue (Option α)
  | .null => .ok none
  | v => (reader v).map some

/-- A text field. -/
def text : Value → Except Issue String
  | .text s => .ok s
  | _ => .error .stringType

/-- A truth value written as text, in any letter case. -/
def boolText? (s : String) : Option Bool :=
  let word := String.ofList (s.toList.map Char.toLower)
  if ["0", "off", "f", "false", "n", "no"].contains word then some false
  else if ["1", "on", "t", "true", "y", "yes"].contains word then some true
  else none

/-- The truth value of the number one or zero. -/
def boolOfNumber (n : Int) : Except Issue Bool :=
  if n = 0 then .ok false else if n = 1 then .ok true else .error .boolParsing

/-- The truth value of a float that stands for an integer. -/
def boolOfFloat (x : Binary64) : Except Issue Bool :=
  match integerOfFloat x with
  | .ok n => boolOfNumber n
  | .error _ => .error .boolType

/-- A truth field. -/
def bool : Value → Except Issue Bool
  | .bool b => .ok b
  | .int n =>
    if -integerBound ≤ n && n < integerBound then boolOfNumber n else .error .boolType
  | .float x => boolOfFloat x
  | .decimal d => if d.isSignalling then .error .boolType else boolOfFloat (.ofDecimal d)
  | .text s =>
    match boolText? s with
    | some b => .ok b
    | none => .error .boolParsing
  | _ => .error .boolType

/-- A field of texts: a list or tuple of them, each problem at its index. -/
def texts (path : String) (v : Value) : Checked (List String) :=
  match v with
  | .list items | .tuple items =>
    let problems := items.zipIdx.filterMap fun p ↦
      match p.1 with
      | .text _ => none
      | _ => some (⟨[path, Text.ofNat p.2], .stringType⟩ : Problem)
    if problems.isEmpty then
      Checked.good (items.filterMap fun
        | .text s => some s
        | _ => none)
    else Checked.bad problems
  | _ => Checked.bad [⟨[path], .tupleType⟩]

/-- A key of a mapping in the path of a problem: text as it is, a truth value as the number it
stands for, anything else in its written form. -/
def keyPath : Value → String
  | .text s => s
  | .bool b => if b then "1" else "0"
  | v => v.inspect

/-- A number field: integers and floats stay as they are, decimals become floats, text is read as
an integer if it is one and as a float otherwise. Both readings report their problem. -/
def number (path : String) (v : Value) : Checked Value :=
  let bad (i f : Issue) : Checked Value :=
    Checked.bad [⟨[path, "int"], i⟩, ⟨[path, "float"], f⟩]
  match v with
  | .int _ | .float _ => Checked.good v
  | .bool b => Checked.good (.int (if b then 1 else 0))
  | .decimal d =>
    if d.isSignalling then bad .finiteNumber .floatType
    else Checked.good (.float (.ofDecimal d))
  | .text s =>
    match integer? s, float? s with
    | some n, _ => Checked.good (.int n)
    | none, some x => Checked.good (.float x)
    | none, none => bad .intParsing .floatParsing
  | _ => bad .intType .floatType

end Read

end Columnar
