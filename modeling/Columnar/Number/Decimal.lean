import Columnar.Text.Digit
import Columnar.Text.Blank

/-!
# Decimal numbers

A decimal is a signed coefficient times a power of ten; the exponent it was written with is
kept. `Numeral` is the form without trailing zeros, in which equal numbers are equal terms. What is
not a number has a sign as well, may carry a diagnostic number, and may be of the signalling kind,
which stands for a value that was never set.
-/

namespace Columnar

/-- A decimal number, an infinity, or no number at all. -/
inductive Decimal where
  | finite (negative : Bool) (coefficient : Nat) (exponent : Int)
  | infinite (negative : Bool)
  | nan (negative signalling : Bool) (diagnostic : Nat)
  deriving DecidableEq, Inhabited, Repr

/-- A finite number as a coefficient without trailing zeros times a power of ten. Zero is the
coefficient zero with exponent zero and no sign. -/
structure Numeral where
  negative : Bool
  coefficient : Nat
  exponent : Int
  deriving DecidableEq, Inhabited, Repr

namespace Numeral

/-- Moves at most `fuel` trailing zeros of the coefficient into the exponent. -/
def strip (fuel coefficient : Nat) (exponent : Int) : Nat × Int :=
  match fuel with
  | 0 => (coefficient, exponent)
  | fuel + 1 =>
    if coefficient % 10 = 0 then strip fuel (coefficient / 10) (exponent + 1)
    else (coefficient, exponent)

/-- The numeral of a signed coefficient times a power of ten. -/
def ofParts (negative : Bool) (coefficient : Nat) (exponent : Int) : Numeral :=
  if coefficient = 0 then ⟨false, 0, 0⟩
  else
    let (c, e) := strip coefficient.log2 coefficient exponent
    ⟨negative, c, e⟩

/-- The numeral of an integer. -/
def ofInt (n : Int) : Numeral := ofParts (n < 0) n.natAbs 0

/-- The integer a numeral stands for, when it has no fraction. -/
def toInt? (n : Numeral) : Option Int :=
  if n.exponent < 0 then none
  else
    let magnitude : Int := (n.coefficient * Nat.pow 10 n.exponent.toNat : Nat)
    some (if n.negative then -magnitude else magnitude)

/-- Zero has one numeral, whatever sign and exponent it was written with. -/
theorem ofParts_zero (negative : Bool) (exponent : Int) :
    ofParts negative 0 exponent = ⟨false, 0, 0⟩ := rfl

end Numeral

namespace Decimal

/-- The numeral of a finite decimal. -/
def numeral? : Decimal → Option Numeral
  | finite negative coefficient exponent => some (.ofParts negative coefficient exponent)
  | _ => none

/-- Whether the number is zero, of either sign. -/
def isZero : Decimal → Bool
  | finite _ coefficient _ => coefficient == 0
  | _ => false

/-- Whether this is no number of the signalling kind. -/
def isSignalling : Decimal → Bool
  | nan _ signalling _ => signalling
  | _ => false

/-- An exponent other than zero behind the digits. -/
def exponentText (n : Int) : String :=
  if n < 0 then "E-" ++ Text.ofNat n.natAbs else "E+" ++ Text.ofNat n.natAbs

/-- The text of a decimal: positional when the exponent is at most zero and at most five zeros
follow the point, otherwise one digit before the point and an exponent. -/
def toText : Decimal → String
  | nan negative signalling diagnostic =>
    (if negative then "-" else "") ++ (if signalling then "sNaN" else "NaN")
      ++ (if diagnostic = 0 then "" else Text.ofNat diagnostic)
  | infinite negative => if negative then "-Infinity" else "Infinity"
  | finite negative coefficient exponent =>
    let digits := Nat.toDigits 10 coefficient
    let left : Int := exponent + digits.length
    let point : Int := if exponent ≤ 0 ∧ -6 < left then left else 1
    let whole :=
      if point ≤ 0 then ['0']
      else if digits.length ≤ point then
        digits ++ List.replicate (point.toNat - digits.length) '0'
      else digits.take point.toNat
    let fraction :=
      if point ≤ 0 then '.' :: List.replicate (-point).toNat '0' ++ digits
      else if digits.length ≤ point then []
      else '.' :: digits.drop point.toNat
    (if negative then "-" else "") ++ String.ofList (whole ++ fraction)
      ++ (if left = point then "" else exponentText (left - point))

/-- An optional sign in front of the rest: whether it is a minus, and the rest. -/
def readSign : List Char → Bool × List Char
  | '-' :: rest => (true, rest)
  | '+' :: rest => (false, rest)
  | cs => (false, cs)

/-- The digits of a written number before and after the point, and its exponent; `none` when
the text has another form. -/
def readParts (cs : List Char) : Option (List Char × List Char × Int) :=
  let whole := cs.takeWhile (Text.digitValue? · |>.isSome)
  let afterWhole := cs.dropWhile (Text.digitValue? · |>.isSome)
  let (fraction, tail) :=
    match afterWhole with
    | '.' :: rest =>
      (rest.takeWhile (Text.digitValue? · |>.isSome), rest.dropWhile (Text.digitValue? · |>.isSome))
    | rest => ([], rest)
  if whole.isEmpty && fraction.isEmpty then none
  else
    match tail with
    | [] => some (whole, fraction, 0)
    | mark :: rest =>
      if mark == 'e' || mark == 'E' then
        let (negative, digits) := readSign rest
        if digits.isEmpty then none
        else (Text.natural? 0 digits).map fun n ↦
          (whole, fraction, if negative then -(n : Int) else n)
      else none

/-- The number or the infinity that characters write after a sign. -/
def readUnsigned (negative : Bool) (cs : List Char) : Option Decimal :=
  let word := String.ofList (cs.map Char.toLower)
  if word == "inf" || word == "infinity" then some (infinite negative)
  else (readParts cs).bind fun (whole, fraction, exponent) ↦
    (Text.natural? 0 (whole ++ fraction)).map fun coefficient ↦
      finite negative coefficient (exponent - fraction.length)

/-- What is no number, as characters write it after a sign: its name and a diagnostic number. -/
def readNan (negative : Bool) (cs : List Char) : Option Decimal :=
  match cs.map Char.toLower with
  | 'n' :: 'a' :: 'n' :: digits => (Text.natural? 0 digits).map (nan negative false)
  | 's' :: 'n' :: 'a' :: 'n' :: digits => (Text.natural? 0 digits).map (nan negative true)
  | _ => none

/-- The decimal written by a text: digits of every script count, underscores and the blanks at both
ends do not. -/
def ofText? (s : String) : Option Decimal :=
  let cs := ((Text.trimChars s.toList).filter (· ≠ '_')).map Text.asciiDigit
  let (negative, rest) := readSign cs
  (readUnsigned negative rest).or (readNan negative rest)

end Decimal

end Columnar
