import Columnar.Proofs.Fetch.Named
import Mathlib.Data.List.Forall2

/-!
# Entities

An entity is an object of a table with the objects related to it, apart from any representation.
Here is what a fetch makes of one: the nested `object`, and the flat `rows` of left joins, with one
row for each way to pick a related object of every relation that is not aggregated. A tree of
relations is a list of nodes, and `forest_induction` goes over it.
-/

namespace Columnar

/-- The cells of an object in the order of its table's columns, and for each relation the objects
related to it. -/
inductive Entity where
  | mk (cells : List Value) (related : List (List Entity))

namespace Entity

/-- The cells. -/
def cells : Entity → List Value
  | mk cells _ => cells

/-- The related objects, relation by relation. -/
def related : Entity → List (List Entity)
  | mk _ related => related

/-- The object whose columns are all null, with nothing related to it. -/
def absent (t : Table) (nodes : List Node) : Entity :=
  mk (t.columns.map fun _ ↦ .null) (nodes.map fun _ ↦ [])

end Entity

/-- What stands for related objects: an object or null, or a list. -/
def Level.value (level : Level) (objects : List Value) : Value :=
  match level.kind with
  | .one => objects.headD .null
  | .many => .list objects

namespace Node

/-- A property of trees of relations holds when it holds of none, and of one relation and others
where it holds of those below and of the others. -/
theorem forest_induction {P : List Node → Prop} (nil : P [])
    (cons : ∀ level children rest, P children → P rest → P (.mk level children :: rest)) :
    ∀ nodes, P nodes
  | [] => nil
  | .mk level children :: rest =>
    cons level children rest (forest_induction nil cons children) (forest_induction nil cons rest)

mutual

/-- A property of a relation with those directly below it, and of all relations further below. -/
def Every (P : Level → List Node → Prop) : Node → Prop
  | .mk level children => P level children ∧ All P children

/-- A property of all relations of a tree with those directly below them. -/
def All (P : Level → List Node → Prop) : List Node → Prop
  | [] => True
  | n :: rest => n.Every P ∧ All P rest

end

/-- A property that follows from another one of each relation. -/
theorem All.imp {P Q : Level → List Node → Prop} (h : ∀ level children, P level children →
    Q level children) {nodes : List Node} (hall : All P nodes) : All Q nodes := by
  induction nodes using forest_induction with
  | nil => exact trivial
  | cons level children rest ihChildren ihRest =>
    obtain ⟨⟨hlevel, hchildren⟩, hrest⟩ := hall
    exact ⟨⟨h _ _ hlevel, ihChildren hchildren⟩, ihRest hrest⟩

/-- The names of relations. -/
def names (nodes : List Node) : List String := nodes.map (·.level.name)

section Keys

variable {level : Level} {children rest : List Node} {entries : List (String × Value)}

/-- The name of a relation is none of the keys before it. -/
theorem name_notMem_keys (h : (Keyed.keys entries ++ names (.mk level children :: rest)).Nodup) :
    level.name ∉ Keyed.keys entries := by
  intro hmem
  exact (List.nodup_append.mp h).2.2 _ hmem _ List.mem_cons_self rfl

/-- Keys stay distinct when a relation's entry stands before the names of the others. -/
theorem nodup_keys_snoc (v : Value)
    (h : (Keyed.keys entries ++ names (.mk level children :: rest)).Nodup) :
    (Keyed.keys (entries ++ [(level.name, v)]) ++ names rest).Nodup := by
  rw [Keyed.keys, List.map_append, List.append_assoc]
  exact h

end Keys

mutual

/-- What an object holds of the objects related to it by one relation. -/
def held : Node → List Entity → Value
  | .mk level children, es => level.value (es.map fun e ↦
    .map (Row.named (level.table.keys.zip e.cells ++ relations children e.related)))

/-- What an object holds of related objects, under the names of the relations. -/
def relations : List Node → List (List Entity) → List (String × Value)
  | n :: rest, es :: others => (n.level.name, n.held es) :: relations rest others
  | _, _ => []

end

mutual

/-- What a flat row holds of the objects picked of one relation: an array of tuples where the
relation is aggregated, otherwise one object, or nothing but nulls. -/
def flatOf : Node → List Entity → List (String × Value)
  | .mk level children, es =>
    if level.aggregated then [(level.name, .list (es.map fun e ↦ .tuple e.cells))]
    else
      let e := es.headD (.absent level.table children)
      (level.table.keys.map (level.stem ++ ·)).zip e.cells ++ flat children e.related

/-- What a flat row holds of picked objects, relation by relation. -/
def flat : List Node → List (List Entity) → List (String × Value)
  | n :: rest, es :: others => n.flatOf es ++ flat rest others
  | _, _ => []

end

mutual

/-- The names that a relation has in a flat row. -/
def flatNamesOf : Node → List String
  | .mk level children =>
    if level.aggregated then [level.name]
    else level.table.keys.map (level.stem ++ ·) ++ flatNames children

/-- The names that relations have in a flat row. -/
def flatNames : List Node → List String
  | [] => []
  | n :: rest => n.flatNamesOf ++ flatNames rest

end

mutual

/-- The ways to pick one of the objects related by one relation, each with picks of its own: all
of them at once where the relation is aggregated, and none where there is none. -/
def picksOf : Node → List Entity → List (List Entity)
  | .mk level children, es =>
    if level.aggregated then [es]
    else if es.isEmpty then [[]]
    else es.flatMap fun e ↦ (picks children e.related).map fun picked ↦ [.mk e.cells picked]

/-- The ways to pick related objects of all relations, in all combinations. -/
def picks : List Node → List (List Entity) → List (List (List Entity))
  | n :: rest, es :: others =>
    (n.picksOf es).flatMap fun picked ↦ (picks rest others).map (picked :: ·)
  | _, _ => [[]]

end

end Node

namespace Entity

/-- The entries of the nested object. -/
def entries (t : Table) (nodes : List Node) (e : Entity) : List (String × Value) :=
  t.keys.zip e.cells ++ Node.relations nodes e.related

/-- The nested object. -/
def object (t : Table) (nodes : List Node) (e : Entity) : Value :=
  .map (Row.named (e.entries t nodes))

/-- The flat row of an object with picked related objects. -/
def row (t : Table) (nodes : List Node) (e : Entity) (picked : List (List Entity)) : Row :=
  Row.named (t.keys.zip e.cells ++ Node.flat nodes picked)

/-- The flat rows of an object. -/
def rows (t : Table) (nodes : List Node) (e : Entity) : List Row :=
  (Node.picks nodes e.related).map (e.row t nodes)

/-- The primary key of an object as one text. -/
def identity (t : Table) (e : Entity) : Except Failure String :=
  Identity.key t (e.object t [])

end Entity

/-! ### Conditions -/

/-- Values that can be compared with each other: equality of them never fails, every value equals
itself, and it does not matter which of two comes first. -/
structure Value.Comparable (S : Value → Prop) : Prop where
  quiet : ∀ a b, S a → S b → a.signals b = false
  refl : ∀ a, S a → a.equals a = true
  symm : ∀ a b, S a → S b → a.equals b = true → b.equals a = true

/-- The cells belong to the columns of a table, and can be compared. -/
def Entity.HasCells (S : Value → Prop) (t : Table) (e : Entity) : Prop :=
  e.cells.length = t.columns.length ∧ ∀ v ∈ e.cells, S v

namespace Node

mutual

/-- Objects may be related by a relation: at most one by a relation to one; all different in their
own columns, and none with nulls only; and so below. -/
def Fits (S : Value → Prop) : Node → List Entity → Prop
  | .mk level children, es =>
    (level.kind = .one → es.length ≤ 1) ∧
    es.Pairwise (fun a b ↦ Value.equalsAll a.cells b.cells = false) ∧
    ∀ e ∈ es, e.HasCells S level.table ∧ (∃ v ∈ e.cells, v.isNull = false) ∧
      AllFit S children e.related

/-- Objects may be related, relation by relation. -/
def AllFit (S : Value → Prop) : List Node → List (List Entity) → Prop
  | n :: rest, es :: others => n.Fits S es ∧ AllFit S rest others
  | [], [] => True
  | _, _ => False

end

mutual

/-- The same objects are related by a relation, with similar objects below: in the same order where
the relation is aggregated, otherwise in any order. -/
def Similar : Node → List Entity → List Entity → Prop
  | .mk level children, es, ps =>
    if level.aggregated then ps = es
    else ∃ order, order.Perm es ∧
      List.Forall₂ (fun e p ↦ p.cells = e.cells ∧ AllSimilar children e.related p.related) order ps

/-- Similar objects are related, relation by relation. -/
def AllSimilar : List Node → List (List Entity) → List (List Entity) → Prop
  | n :: rest, es :: others, ps :: others' => n.Similar es ps ∧ AllSimilar rest others others'
  | [], [], [] => True
  | _, _, _ => False

end

/-- The keys of each object are distinct: those of its columns and the names of its relations. -/
def KeysApart : List Node → Prop :=
  All fun level children ↦ (level.table.keys ++ names children).Nodup

/-- No relation is cut to a page. -/
def Unpaged : List Node → Prop :=
  All fun level _ ↦ FindOptions.counted level.options.limit = none ∧
    FindOptions.counted level.options.offset = none

/-- Relations that are aggregated lead to many rows, and have no relations below. -/
def AggregatesLeaves : List Node → Prop :=
  All fun level children ↦ level.aggregated = true → level.kind = .many ∧ children = []

end Node

namespace Entity

/-- The object fits a table and the relations requested of it. -/
def Fits (S : Value → Prop) (t : Table) (nodes : List Node) (e : Entity) : Prop :=
  e.HasCells S t ∧ Node.AllFit S nodes e.related

/-- The objects are the same up to the order in which related objects stand. -/
def Similar (nodes : List Node) (e p : Entity) : Prop :=
  p.cells = e.cells ∧ Node.AllSimilar nodes e.related p.related

end Entity

end Columnar
