import Columnar.Error

/-!
# Equality of values

Numbers of every kind are equal when they stand for the same number, and a truth value is the
number one or zero. Lists and tuples are equal to their own kind only, maps without regard to
order, date-times as instants. A float that is not a number equals nothing, itself included.
`same` compares as well, but fails when it meets a decimal of the signalling kind beside a number;
`same_eq_ok` says that otherwise it answers as `equals` does.
-/

namespace Columnar

/-- A finite number or an infinity. -/
inductive Extended where
  | finite (n : Numeral)
  | infinite (negative : Bool)
  deriving DecidableEq, Repr

namespace Value

/-- The number a value stands for. -/
def number? : Value → Option Extended
  | bool b => some (.finite (.ofInt (if b then 1 else 0)))
  | int n => some (.finite (.ofInt n))
  | float (.infinite negative) => some (.infinite negative)
  | float x => x.numeral?.map .finite
  | decimal (.infinite negative) => some (.infinite negative)
  | decimal d => d.numeral?.map .finite
  | _ => none

/-- Equality of two values without parts. -/
def scalarEquals (a b : Value) : Bool :=
  match a, b with
  | null, null => true
  | undefined, undefined => true
  | text s, text t => s == t
  | uuid u, uuid v => u == v
  | date d, date e => d == e
  | dateTime s, dateTime t => s.sameInstant t
  | _, _ =>
    match a.number?, b.number? with
    | some m, some n => m == n
    | _, _ => false

mutual

/-- Equality of values. -/
def equals : Value → Value → Bool
  | list xs, list ys => equalsAll xs ys
  | tuple xs, tuple ys => equalsAll xs ys
  | map xs, map ys => xs.length == ys.length && isPartOf xs ys
  | a, b => scalarEquals a b

/-- Equality of two sequences, item by item. -/
def equalsAll : List Value → List Value → Bool
  | [], [] => true
  | x :: xs, y :: ys => equals x y && equalsAll xs ys
  | _, _ => false

/-- Whether every entry of the first list of entries has an equal one in the second. -/
def isPartOf : List (Value × Value) → List (Value × Value) → Bool
  | [], _ => true
  | (k, v) :: xs, ys => (ys.any fun e ↦ equals k e.1 && equals v e.2) && isPartOf xs ys

end

/-- Whether a value is of one of the kinds of numbers. -/
def isNumeric : Value → Bool
  | bool _ | int _ | float _ | decimal _ => true
  | _ => false

/-- Whether a value is a decimal of the signalling kind. -/
def isSignal : Value → Bool
  | decimal d => d.isSignalling
  | _ => false

mutual

/-- Whether comparing two values meets a decimal of the signalling kind beside a number: items are
compared in order until two are not equal, lists and maps only with those of the same length. -/
def signals : Value → Value → Bool
  | list xs, list ys => xs.length == ys.length && signalsAmong xs ys
  | tuple xs, tuple ys => signalsAmong xs ys
  | map xs, map ys => xs.length == ys.length && signalsIn xs ys
  | a, b => (a.isSignal && b.isNumeric) || (a.isNumeric && b.isSignal)

/-- The same for two sequences. -/
def signalsAmong : List Value → List Value → Bool
  | x :: xs, y :: ys => signals x y || (equals x y && signalsAmong xs ys)
  | _, _ => false

/-- The same for the entries of two maps, in the order of the first one. -/
def signalsIn : List (Value × Value) → List (Value × Value) → Bool
  | [], _ => false
  | (k, v) :: xs, ys =>
    match ys.find? fun e ↦ equals k e.1 with
    | some e => signals v e.2 || (equals v e.2 && signalsIn xs ys)
    | none => false

end

/-- Whether two values are equal, unless they cannot be compared. -/
def same (a b : Value) : Except Failure Bool :=
  if signals a b then .error .nanComparison else .ok (equals a b)

/-- Values that can be compared are the same when they are equal. -/
theorem same_eq_ok {a b : Value} {r : Bool} (h : same a b = .ok r) : equals a b = r := by
  unfold same at h
  split at h
  · cases h
  · exact Except.ok.inj h

/-- Why a value cannot be a map's key: it is, or holds first, a list, a map or a decimal of the
signalling kind. -/
def keyFailure? : Value → Option Failure
  | list _ => some (.unhashable .list)
  | map _ => some (.unhashable .map)
  | decimal d => if d.isSignalling then some .signallingKey else none
  | tuple items => first items
  | _ => none
where
  first : List Value → Option Failure
    | [] => none
    | x :: xs => (keyFailure? x).or (first xs)

/-- Sets the value of a key: in place when an equal key is present, at the end otherwise. -/
def setEntry (key value : Value) : List (Value × Value) → List (Value × Value)
  | [] => [(key, value)]
  | e :: rest =>
    if key.equals e.1 then (e.1, value) :: rest else e :: setEntry key value rest

/-- The entries of a map from pairs in order: a repeated key keeps its first place and takes
the last value. -/
def entriesOf (pairs : List (Value × Value)) : List (Value × Value) :=
  pairs.foldl (fun entries p ↦ setEntry p.1 p.2 entries) []

/-- The map with entries from pairs in order. -/
def mapOf (pairs : List (Value × Value)) : Except Failure Value :=
  match pairs.findSome? fun p ↦ p.1.keyFailure? with
  | some failure => .error failure
  | none => .ok (.map (entriesOf pairs))

/-- The value of a text key. -/
def find? (key : String) (entries : List (Value × Value)) : Option Value :=
  (entries.find? fun e ↦ e.1.equals (.text key)).map Prod.snd

/-- The value of a text key, null when it is absent. -/
def get (key : String) (entries : List (Value × Value)) : Value :=
  (find? key entries).getD .null

end Value

end Columnar
