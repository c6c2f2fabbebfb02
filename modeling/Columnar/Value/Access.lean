import Columnar.Value.Order

/-!
# Parts of values

What a value gives where something else was expected of it: its items, the entries of the map it
stands for, the item at a position. `visit` is how items are treated that should have been parts of
a query: a value has no attributes, so the first item fails.
-/

namespace Columnar.Value

/-- The failure of a value that was asked for an attribute. -/
def lacks (v : Value) (name : String) : Failure := .noAttribute v.kind.native name

/-- The items of a value that has any: of a sequence, the characters of a text, the keys of a
map. -/
def items : Value → Except Failure (List Value)
  | list xs | tuple xs => .ok xs
  | text s => .ok (s.toList.map fun c ↦ .text c.toString)
  | map entries => .ok (entries.map Prod.fst)
  | v => .error (.notIterable v.kind)

/-- The items of a value, none when it counts as absent. -/
def itemsIfAny (v : Value) : Except Failure (List Value) :=
  if v.isTruthy then v.items else .ok []

theorem itemsIfAny_list (items : List Value) : (list items).itemsIfAny = .ok items := by
  cases items <;> rfl

/-- The entries of a map; `method` is what any other value is said not to have. -/
def entriesFor (method : String) : Value → Except Failure (List (Value × Value))
  | map entries => .ok entries
  | v => .error (v.lacks method)

/-- The entries of a map; other values have none to get. -/
def entries (v : Value) : Except Failure (List (Value × Value)) := v.entriesFor "get"

/-- Asks each item of a value for an attribute, so that only a value without items passes. -/
def visit (name : String) (v : Value) : Except Failure Unit := do
  match ← v.items with
  | [] => return ()
  | x :: _ => throw (x.lacks name)

/-- Asks each item of a value for an attribute, unless the value counts as absent. -/
def visitIfAny (name : String) (v : Value) : Except Failure Unit :=
  if v.isTruthy then v.visit name else .ok ()

/-- The items of a list, to which others can be added; nothing can be added to any other value. -/
def extensible : Value → Except Failure (List Value)
  | list xs => .ok xs
  | v => .error (.notExtensible v.kind)

/-- The entry that an item at a position stands for: a pair of key and value. -/
def pairAt (position : Nat) (item : Value) : Except Failure (Value × Value) :=
  match item.items with
  | .error _ => .error (.notAPair position)
  | .ok [key, value] =>
    match key.keyFailure? with
    | some failure => .error failure
    | none => .ok (key, value)
  | .ok xs => .error (.pairLength position xs.length)

/-- The entries of the map that a value stands for: a map itself, or a row of pairs. -/
def toEntries : Value → Except Failure (List (Value × Value))
  | map entries => .ok entries
  | v => do return entriesOf (← (← v.items).zipIdx.mapM fun p ↦ pairAt p.2 p.1)

/-- The first number too large for a position: a position is a signed word of 64 bits. -/
def positionBound : Int := 9223372036854775808

/-- The item of a sequence at a position, counted from the end when negative. -/
def atIndex (owner : Kind) (xs : List Value) (n : Int) : Except Failure Value :=
  let position := if n < 0 then n + xs.length else n
  if n < -positionBound || positionBound ≤ n then .error .hugeIndex
  else if position < 0 then .error (.noIndex owner)
  else
    match xs[position.toNat]? with
    | some x => .ok x
    | none => .error (.noIndex owner)

/-- The item of a value under a name that is one of its own items: a position in a sequence, while
text has no items under names. -/
def item (v name : Value) : Except Failure Value :=
  match v, name with
  | list xs, int n | tuple xs, int n => atIndex v.kind xs n
  | list xs, bool b | tuple xs, bool b => atIndex v.kind xs (if b then 1 else 0)
  | v, name => .error (.badIndex v.kind name.kind)

/-- Entries in the order of their keys. -/
def sortEntries (entries : List (Value × Value)) : Except Failure (List (Value × Value)) :=
  Order.sort (fun a b ↦ less a.1 b.1) entries

/-- What a value holds under each of its items, in the order of the items. -/
def sortedEntries : Value → Except Failure (List (Value × Value))
  | map entries => sortEntries entries
  | v => do (← Order.sort less (← v.items)).mapM fun name ↦ return (name, ← v.item name)

/-- The texts among the items of a list, when all of them are. -/
def texts? (xs : List Value) : Option (List String) :=
  xs.mapM fun
    | text s => some s
    | _ => none

/-- Entries under text keys, when all keys are text. -/
def textEntries? (entries : List (Value × Value)) : Option (List (String × Value)) :=
  entries.mapM fun
    | (text s, v) => some (s, v)
    | _ => none

end Columnar.Value
