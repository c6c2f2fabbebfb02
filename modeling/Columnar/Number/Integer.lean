import Columnar.Number.Decimal

/-!
# Written integers

Integers as texts write them in a base: an optional sign and digits, where a single underscore may
stand between two digits and white space around the whole. Decimal digits of every script count.
In base sixteen the mark `0x` may stand in front of the digits. `digit?_lt` says that digits are
below the base.
-/

namespace Columnar.Integer

/-- The value of a digit in a base: digits of every script, then the letters of ASCII. -/
def digit? (base : Nat) (c : Char) : Option Nat :=
  let value? :=
    if 'a' ≤ c && c ≤ 'z' then some (c.toNat - 'a'.toNat + 10)
    else if 'A' ≤ c && c ≤ 'Z' then some (c.toNat - 'A'.toNat + 10)
    else Text.anyDigitValue? c
  value?.filter (· < base)

/-- The number written by digits that follow others, whose number is given. -/
def naturalAfter? (base value : Nat) : List Char → Option Nat
  | [] => some value
  | '_' :: c :: rest => (digit? base c).bind fun d ↦ naturalAfter? base (base * value + d) rest
  | c :: rest => (digit? base c).bind fun d ↦ naturalAfter? base (base * value + d) rest

/-- The number written by digits, of which there must be one. -/
def natural? (base : Nat) : List Char → Option Nat
  | [] => none
  | c :: rest => (digit? base c).bind fun d ↦ naturalAfter? base d rest

/-- Digits without the mark of base sixteen, which an underscore may follow. -/
def withoutMark : List Char → List Char
  | '0' :: mark :: rest =>
    if mark == 'x' || mark == 'X' then
      match rest with
      | '_' :: digits => digits
      | digits => digits
    else '0' :: mark :: rest
  | cs => cs

/-- The integer that characters write in a base. -/
def ofChars? (base : Nat) (cs : List Char) : Option Int :=
  let (negative, rest) := Decimal.readSign (Text.trimSpace cs)
  let digits := if base = 16 then withoutMark rest else rest
  (natural? base digits).map fun n ↦ if negative then -(n : Int) else n

/-- The integer that a text writes with decimal digits. -/
def ofText? (s : String) : Option Int := ofChars? 10 s.toList

/-- A digit's value is below the base. -/
theorem digit?_lt {base d : Nat} {c : Char} (h : digit? base c = some d) : d < base := by
  simp only [digit?, Option.filter_eq_some_iff, decide_eq_true_eq] at h
  exact h.2

end Columnar.Integer
