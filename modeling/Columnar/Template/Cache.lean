import Columnar.Keyed
import Columnar.Session
import Columnar.Text.Quoted

/-!
# Template caches

A cache keeps at most a fixed number of compiled templates under their keys, the one used longest
ago first. Reading a key that is present and storing under any key both count as a use; what
exceeds the capacity leaves from the front.
-/

namespace Columnar

/-- A compiled statement without the values of its parameters. -/
structure Template where
  sql : String
  paramNames : List String := []
  columns : List (String × String) := []
  suggestions : List String := []
  deriving DecidableEq, Repr, Inhabited

/-- Templates under their keys, the one used longest ago first. -/
structure TemplateCache where
  capacity : Nat
  positive : 0 < capacity
  entries : List (String × Template) := []
  deriving Repr

namespace TemplateCache

/-- The capacity of a cache for which none is given. -/
def defaultCapacity : Int := 1000

/-- An empty cache; it must have room for one template. -/
def new (capacity : Int) : Except Failure TemplateCache :=
  if h : 1 ≤ capacity then .ok { capacity := capacity.toNat, positive := by omega }
  else .error (.cacheCapacity capacity)

/-- The keys, the one used longest ago first. -/
def keys (c : TemplateCache) : List String := Keyed.keys c.entries

/-- The number of templates kept. -/
def size (c : TemplateCache) : Nat := c.entries.length

/-- The template under a key. -/
def find? (c : TemplateCache) (key : String) : Option Template := Keyed.find? key c.entries

/-- Whether a key is present. -/
def contains (c : TemplateCache) (key : String) : Bool := Keyed.contains key c.entries

/-- The entries without a key. -/
def without (c : TemplateCache) (key : String) : List (String × Template) :=
  c.entries.filter fun e ↦ e.1 ≠ key

/-- The entries with a key used last. -/
def touched (c : TemplateCache) (key : String) (t : Template) : List (String × Template) :=
  c.without key ++ [(key, t)]

/-- Reads a key; a template that is found counts as used. -/
def consult (c : TemplateCache) (key : String) : Option Template × TemplateCache :=
  match c.find? key with
  | some t => (some t, { c with entries := c.touched key t })
  | none => (none, c)

/-- Stores a template; the keys that leave to make room, and the cache after that. -/
def store (c : TemplateCache) (key : String) (t : Template) : List String × TemplateCache :=
  let entries := c.touched key t
  let excess := entries.length - c.capacity
  ((entries.take excess).map Prod.fst, { c with entries := entries.drop excess })

/-- The cache without any template. -/
def clear (c : TemplateCache) : TemplateCache := { c with entries := [] }

/-- The part of a key that is logged. -/
def logged (key : String) : String := Text.takeFirst 80 key

/-- Reads a key and logs whether it was found. -/
def get (key : String) : Session TemplateCache (Option Template) := do
  let found ← modifyGet (consult · key)
  Traced.record .debug
    ("Template cache " ++ (if found.isSome then "hit" else "miss") ++ ": " ++ logged key)
  return found

/-- Stores a template and logs the keys that leave. -/
def put (key : String) (t : Template) : Session TemplateCache Unit := do
  let evicted ← modifyGet (store · key t)
  evicted.forM fun k ↦ Traced.record .debug ("Template cache eviction: " ++ logged k)

/-- Reading never changes the capacity. -/
theorem capacity_consult (c : TemplateCache) (key : String) :
    (c.consult key).2.capacity = c.capacity := by
  unfold consult
  split <;> rfl

/-- A cache never holds more than its capacity after a template is stored. -/
theorem size_store_le (c : TemplateCache) (key : String) (t : Template) :
    (c.store key t).2.size ≤ c.capacity := by
  simp only [store, size, List.length_drop]
  omega

/-- A stored template is kept, and as the one used last. -/
theorem getLast?_store (c : TemplateCache) (key : String) (t : Template) :
    (c.store key t).2.entries.getLast? = some (key, t) := by
  have hp := c.positive
  simp only [store, touched, List.length_append, List.length_singleton]
  rw [List.drop_append_of_le_length (by omega)]
  simp

end TemplateCache

end Columnar
