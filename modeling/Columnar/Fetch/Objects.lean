import Columnar.Client.Basic
import Columnar.Fetch.Plan

/-!
# Nested objects from flat rows

A flat row becomes a nested object: the cells of each level under its keys, a relation to one row
as an object or null, a relation to many as a list. The tuples of an aggregated relation become
objects, without repetition and cut to the relation's page.
-/

namespace Columnar

/-- The items of a list from a position, counted from the end when negative. -/
def sliceFrom {α : Type} (n : Int) (xs : List α) : List α :=
  if n < 0 then xs.drop (xs.length - n.natAbs) else xs.drop n.toNat

/-- The items of a list up to a position, counted from the end when negative. -/
def sliceTo {α : Type} (n : Int) (xs : List α) : List α :=
  if n < 0 then xs.take (xs.length - n.natAbs) else xs.take n.toNat

namespace FindOptions

/-- The page of a list that limit and offset leave. -/
def page {α : Type} (o : FindOptions) (xs : List α) : List α :=
  let xs := match counted o.offset with
    | some n => sliceFrom n xs
    | none => xs
  match counted o.limit with
  | some n => sliceTo n xs
  | none => xs

end FindOptions

namespace Objects

/-- The object of one tuple: the cells under the keys, as far as there are both. -/
def ofTuple (keys : List String) (cells : List Value) : Row :=
  (keys.zip cells).map fun e ↦ (.text e.1, e.2)

/-- Adds the object of a tuple, unless all of its cells are null or an equal object is there. -/
def addTuple (keys : List String) (found : List Row) (tuple : Value) :
    Except Failure (List Row) := do
  let object := ofTuple keys (← tuple.items)
  if object.all fun e ↦ e.2.isNull then return found
  else if ← found.anyM fun other ↦ (Value.map other).same (.map object) then return found
  else return found ++ [object]

/-- The objects of an array of tuples, cut to the relation's page. -/
def ofTuples (level : Level) (raw : Value) : Except Failure Value := do
  let found ← (← raw.itemsIfAny).foldlM (addTuple level.table.keys) []
  return .list ((level.options.page found).map .map)

/-- The cells of a level under its keys. -/
def cells (stem : String) (t : Table) (row : Row) : Row :=
  t.columns.map fun e ↦ (.text e.1, Value.get (stem ++ e.1) row)

/-- Whether all columns of a table are null in an object. -/
def isAbsent (t : Table) (object : Row) : Bool :=
  t.keys.all fun key ↦ (Value.get key object).isNull

/-- What stands for the related object: null or an empty list when its columns are all null. -/
def related (level : Level) (object : Row) : Value :=
  match level.kind, isAbsent level.table object with
  | .one, true => .null
  | .one, false => .map object
  | .many, true => .list []
  | .many, false => .list [.map object]

mutual

/-- Sets what a flat row holds of a relation in the object above it. -/
def attach (row : Row) : Node → Row → Except Failure Row
  | .mk level children, object => do
    if level.aggregated then
      return Value.setEntry (.text level.name) (← ofTuples level (Value.get level.name row)) object
    else
      let inner ← attachAll row children (cells level.stem level.table row)
      return Value.setEntry (.text level.name) (related level inner) object

/-- Sets what a flat row holds of relations, in order. -/
def attachAll (row : Row) : List Node → Row → Except Failure Row
  | [], object => .ok object
  | n :: rest, object => do attachAll row rest (← attach row n object)

end

/-- The nested object of a flat row. -/
def ofRow (t : Table) (nodes : List Node) (row : Row) : Except Failure Value := do
  return .map (← attachAll row nodes (cells "" t row))

end Objects

end Columnar
