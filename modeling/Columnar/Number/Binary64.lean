import Columnar.Number.Decimal

/-!
# Binary floating-point numbers of 64 bits

A finite number is a sign and a significand below 2^53 times a power of two. Rounding takes an
exact ratio to the nearest such number, a tie to the even significand. The written form has the
fewest digits that round back to the number and, of these, the ones nearest to it.
-/

namespace Columnar

/-- A binary floating-point number. -/
inductive Binary64 where
  | finite (negative : Bool) (significand : Nat) (exponent : Int)
  | infinite (negative : Bool)
  | nan
  deriving DecidableEq, Inhabited, Repr

namespace Binary64

/-- The natural number nearest to a ratio; of two equally near ones the even one. -/
def nearest (num den : Nat) : Nat :=
  let q := num / den
  let r := num % den
  if 2 * r < den then q
  else if den < 2 * r then q + 1
  else if q % 2 = 0 then q else q + 1

/-- Zero of either sign. -/
def zero (negative : Bool) : Binary64 := finite negative 0 (-1074)

/-- The largest power of two that is at most the ratio, as an exponent. -/
def floorLog2 (num den : Nat) : Int :=
  let guess : Int := (num.log2 : Int) - den.log2
  if den * Nat.pow 2 guess.toNat ≤ num * Nat.pow 2 (-guess).toNat then guess else guess - 1

/-- The number nearest to a ratio of naturals, with the given sign. -/
def ofRatio (negative : Bool) (num den : Nat) : Binary64 :=
  if num = 0 then zero negative
  else
    let exponent := max (floorLog2 num den - 52) (-1074)
    let significand := nearest (num * Nat.pow 2 (-exponent).toNat) (den * Nat.pow 2 exponent.toNat)
    let (significand, exponent) :=
      if significand = Nat.pow 2 53 then (Nat.pow 2 52, exponent + 1) else (significand, exponent)
    if 971 < exponent then infinite negative else finite negative significand exponent

/-- The number nearest to a coefficient times a power of ten. -/
def ofScientific (negative : Bool) (coefficient : Nat) (exponent : Int) : Binary64 :=
  let digits : Int := (Nat.toDigits 10 coefficient).length
  if coefficient = 0 then zero negative
  else if 310 < digits + exponent then infinite negative
  else if digits + exponent < -330 then zero negative
  else ofRatio negative (coefficient * Nat.pow 10 exponent.toNat) (Nat.pow 10 (-exponent).toNat)

/-- The number nearest to an integer. -/
def ofInt (n : Int) : Binary64 := ofRatio (n < 0) n.natAbs 1

/-- The exact value of a finite number as a coefficient times a power of ten. -/
def exactDecimal (significand : Nat) (exponent : Int) : Nat × Int :=
  if 0 ≤ exponent then (significand * Nat.pow 2 exponent.toNat, 0)
  else (significand * Nat.pow 5 (-exponent).toNat, exponent)

/-- The numeral of a finite number. -/
def numeral? : Binary64 → Option Numeral
  | finite negative significand exponent =>
    let (c, e) := exactDecimal significand exponent
    some (.ofParts negative c e)
  | _ => none

/-- Whether the number is zero, of either sign. -/
def isZero : Binary64 → Bool
  | finite _ significand _ => significand == 0
  | _ => false

/-- Whether the decimal `coefficient * 10 ^ exponent` rounds to the given finite number. -/
def readsBack (coefficient : Nat) (exponent : Int) (significand : Nat) (binary : Int) : Bool :=
  ofScientific false coefficient exponent == finite false significand binary

/-- Of the two decimals next to the number on the grid `10 ^ exponent`, the nearer one that
rounds back to it. `coefficient / unit` is the number measured in that grid. -/
def onGrid (coefficient unit : Nat) (exponent : Int) (significand : Nat) (binary : Int) :
    Option Nat :=
  let below := coefficient / unit
  let candidate := nearest coefficient unit
  let other := if candidate = below then below + 1 else below
  if readsBack candidate exponent significand binary then some candidate
  else if readsBack other exponent significand binary then some other
  else none

/-- Searches the grids of `count`, `count + 1`, … digits, at most `fuel` of them. The exact
value of the number is `coefficient * 10 ^ exponent`, with `digits` digits. -/
def searchGrids (fuel count coefficient digits : Nat) (exponent : Int) (significand : Nat)
    (binary : Int) : Nat × Int :=
  match fuel with
  | 0 => (coefficient, exponent)
  | fuel + 1 =>
    if digits ≤ count then (coefficient, exponent)
    else
      let drop := digits - count
      match onGrid coefficient (Nat.pow 10 drop) (exponent + drop) significand binary with
      | some c => (c, exponent + drop)
      | none => searchGrids fuel (count + 1) coefficient digits exponent significand binary

/-- The shortest decimal that rounds to a positive finite number, the nearest of that length. -/
def shortest (significand : Nat) (exponent : Int) : Nat × Int :=
  let (c, e) := exactDecimal significand exponent
  let (c, e) := searchGrids 17 1 c (Nat.toDigits 10 c).length e significand exponent
  Numeral.strip c.log2 c e

/-- The sign in front of a number. -/
def signText (negative : Bool) : String := if negative then "-" else ""

/-- An exponent with its sign and at least two digits. -/
def paddedExponent (n : Int) : String :=
  let digits := Text.ofNat n.natAbs
  (if n < 0 then "-" else "+") ++ (if n.natAbs < 10 then "0" ++ digits else digits)

/-- The text of a number: shortest digits, positional for decimal exponents from -4 to 15 and
then always with a point, otherwise one digit before the point and an exponent of at least two
digits. -/
def toText : Binary64 → String
  | nan => "nan"
  | infinite negative => signText negative ++ "inf"
  | finite negative significand exponent =>
    if significand = 0 then signText negative ++ "0.0"
    else
      let (c, e) := shortest significand exponent
      let digits := Nat.toDigits 10 c
      let point : Int := digits.length + e
      let body :=
        if -4 < point ∧ point ≤ 16 then
          if point ≤ 0 then
            "0." ++ String.ofList (List.replicate (-point).toNat '0' ++ digits)
          else if digits.length ≤ point then
            String.ofList (digits ++ List.replicate (point.toNat - digits.length) '0') ++ ".0"
          else
            String.ofList (digits.take point.toNat ++ '.' :: digits.drop point.toNat)
        else
          let mantissa :=
            match digits with
            | [d] => [d]
            | d :: rest => d :: '.' :: rest
            | [] => []
          String.ofList mantissa ++ "e" ++ paddedExponent (point - 1)
      signText negative ++ body

/-- Drops the underscores that stand between two digits. -/
def dropSeparators : List Char → List Char
  | a :: '_' :: b :: rest =>
    if a.isDigit && b.isDigit then a :: dropSeparators (b :: rest)
    else a :: '_' :: dropSeparators (b :: rest)
  | c :: rest => c :: dropSeparators rest
  | [] => []

/-- The number nearest to a decimal. -/
def ofDecimal : Decimal → Binary64
  | .finite negative coefficient exponent => ofScientific negative coefficient exponent
  | .infinite negative => infinite negative
  | .nan .. => nan

/-- The number nearest to the one that characters write with ASCII digits: a sign, digits around a
point, an exponent; or the names of what is infinite or no number. -/
def ofChars? (cs : List Char) : Option Binary64 :=
  let (negative, rest) := Decimal.readSign cs
  if rest.map Char.toLower = ['n', 'a', 'n'] then some nan
  else (Decimal.readUnsigned negative rest).map ofDecimal

/-- The number nearest to the one a text writes: digits of every script count, white space at both
ends does not, nor does a single underscore between two digits. -/
def ofText? (s : String) : Option Binary64 :=
  ofChars? (dropSeparators ((Text.trimSpace s.toList).map Text.asciiDigit))

/-- The product of two finite numbers, rounded; `nan` when one of them is not finite. -/
def mul : Binary64 → Binary64 → Binary64
  | finite s m e, finite t n f =>
    let exponent := e + f
    ofRatio (s != t) (m * n * Nat.pow 2 exponent.toNat) (Nat.pow 2 (-exponent).toNat)
  | _, _ => nan

/-- The integer part of a finite number, its fraction cut off. -/
def truncate? : Binary64 → Option Int
  | finite negative significand exponent =>
    let magnitude := significand * Nat.pow 2 exponent.toNat / Nat.pow 2 (-exponent).toNat
    some (if negative then -(magnitude : Int) else magnitude)
  | _ => none

end Binary64

end Columnar
