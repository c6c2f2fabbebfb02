import Columnar.Fetch.Objects
import Columnar.Value.Text

/-!
# Merging objects

Objects with the same primary key are parts of one object: the first is kept, and what later ones
hold under its relations is united with what it has. Objects keep the order in which their keys
were first seen.
-/

namespace Columnar

namespace Identity

/-- The part of a key that a value makes: dates as milliseconds since 1970, anything else as its
text. -/
def part : Value → String
  | .dateTime t => Text.ofInt t.epochMillis
  | .date d => Text.ofInt (DateTime.ofDate d).epochMillis
  | v => v.display

/-- The primary key of an object as one text. -/
def key (t : Table) (object : Value) : Except Failure String := do
  let keys ← t.primaryKeys
  if keys.isEmpty then return ""
  let entries ← object.entries
  return "|".intercalate (keys.map fun k ↦ part (Value.get k entries))

end Identity

namespace Merge

/-- Whether two objects agree in all columns of a table. -/
def sameColumns (t : Table) (a b : Value) : Except Failure Bool := do
  if t.columns.isEmpty then return true
  let x ← a.entries
  let y ← b.entries
  t.keys.allM fun k ↦ (Value.get k x).same (Value.get k y)

/-- Puts an item into a collection: `unite` unites it with the first item that agrees in all
columns, unless the two are equal; without one, or when that one is null, it is added at the end
by `add`. -/
def put (t : Table) (unite : Value → Value → Except Failure Value)
    (add : Except Failure Unit) (item : Value) : List Value → Except Failure (List Value)
  | [] => do
    add
    return [item]
  | other :: rest => do
    if ← sameColumns t other item then
      if other.isNull then
        add
        return other :: rest ++ [item]
      else if ← other.same item then return other :: rest
      else return (← unite other item) :: rest
    else return other :: (← put t unite add item rest)

/-- The items of a collection, put back into one of the same kind; text and maps stay as they
are. -/
def likewise (v : Value) (items : List Value) : Value :=
  match v with
  | .list _ => .list items
  | .tuple _ => .tuple items
  | v => v

/-- Whether items can be added to a collection. -/
def addable : Value → Except Failure Unit
  | .list _ => .ok ()
  | v => .error (.noAttribute v.kind.native "append")

/-- The collection with items put into it; none has to be looked at when there are no items. -/
def putAll (t : Table) (unite : Value → Value → Except Failure Value) (collection : Value) :
    List Value → Except Failure Value
  | [] => .ok collection
  | items => do
    let present ← collection.items
    let united ← items.foldlM (fun xs item ↦ put t unite (addable collection) item xs) present
    return likewise collection united

/-- The collection cut to a number of items. -/
def cut (limit : Option Int) (collection : Value) : Except Failure Value :=
  match FindOptions.counted limit with
  | none => .ok collection
  | some n =>
    match collection with
    | .list xs => .ok (.list (sliceTo n xs))
    | .tuple xs => .ok (.tuple (sliceTo n xs))
    | .text s => .ok (.text (String.ofList (sliceTo n s.toList)))
    | .map _ => .error (.unhashable .slice)
    | v => .error (.notSubscriptable v.kind)

/-- How what an object holds of a relation is asked for: many rows begin as an empty list. -/
def accessor : RelationKind → String
  | .one => "get"
  | .many => "setdefault"

mutual

/-- Unites what an object holds of a relation with what another one holds. -/
def uniteNode : Node → Row → Row → Except Failure Row
  | .mk level children, existing, incoming => do
    let new := Value.get level.name incoming
    match level.kind with
    | .one =>
      let old := Value.get level.name existing
      if old.isNull then return Value.setEntry (.text level.name) new existing
      else if new.isNull then return existing
      else return Value.setEntry (.text level.name) (← unite children old new) existing
    | .many =>
      let old := (Value.find? level.name existing).getD (.list [])
      let items ← new.itemsIfAny
      let collection ← putAll level.table (unite children) old items
      return Value.setEntry (.text level.name) (← cut level.options.limit collection) existing

/-- Unites the relations of two objects, one relation after another. -/
def uniteAll : List Node → Row → Row → Except Failure Row
  | [], existing, _ => .ok existing
  | n :: rest, existing, incoming => do uniteAll rest (← uniteNode n existing incoming) incoming

/-- Unites two values that stand for the same row; without relations the first one is kept. -/
def unite : List Node → Value → Value → Except Failure Value
  | [], existing, _ => .ok existing
  | n :: rest, existing, incoming => do
    let x ← existing.entriesFor (accessor n.level.kind)
    let y ← incoming.entries
    return .map (← uniteAll rest (← uniteNode n x y) y)

end

/-- Adds an object to those grouped by their keys. -/
def add (t : Table) (nodes : List Node) (grouped : List (String × Value)) (object : Value) :
    Except Failure (List (String × Value)) := do
  let key ← Identity.key t object
  match Keyed.find? key grouped with
  | some existing => return Keyed.set key (← unite nodes existing object) grouped
  | none => return grouped ++ [(key, object)]

/-- The objects with one for each primary key, in the order of their first appearance. -/
def byIdentity (t : Table) (nodes : List Node) (objects : List Value) : Traced (List Value) := do
  let grouped ← liftM (objects.foldlM (add t nodes) [])
  Traced.record .info
    (s!"Merged {objects.length} rows of `{t.name}` into {grouped.length} objects")
  return grouped.map Prod.snd

end Merge

end Columnar
