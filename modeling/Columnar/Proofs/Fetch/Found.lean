import Columnar.Proofs.Fetch.Rebuilt

/-!
# What rows hold of relations

A flat row holds objects of a relation: in an array of tuples where the relation is aggregated,
otherwise at most one, under the relation's stem (`Level.found`). What is made of many rows is told
by these alone: the relations of the final object are gathered from the rows that hold it
(`Node.gatherAll`), and the object of a single row is gathered from that row (`ofRow_gathered`).
-/

namespace Columnar

variable {S : Value → Prop}

/-- The tuples that a value holds. -/
def Value.tuples (v : Value) : List (List Value) :=
  (v.itemsIfAny.toOption.getD []).map fun tuple ↦ tuple.items.toOption.getD []

theorem Value.HoldsTuples.tuples_eq {v : Value} {tuples : List (List Value)}
    (h : v.HoldsTuples tuples) : v.tuples = tuples := by
  rw [holdsTuples_iff] at h
  obtain ⟨items, hitems, htuples⟩ := h
  rw [Value.tuples, hitems]
  change items.map _ = tuples
  clear hitems
  induction htuples with
  | nil => rfl
  | cons hcells _ ih =>
    rw [List.map_cons, ih, hcells]
    rfl

namespace Level

variable {level : Level} {row : Row} {cells : List Value}

/-- The cells of the objects that a flat row holds of a relation, but for those with nulls only. -/
def found (level : Level) (row : Row) : List (List Value) :=
  let all :=
    if level.aggregated then
      (Value.get level.name row).tuples.map (List.take level.table.keys.length)
    else [(level.table.cellsIn level.stem row).map Prod.snd]
  all.filter fun cells ↦ !cells.all Value.isNull

/-- Whether a row holds the object with these cells. -/
def holds (level : Level) (cells : List Value) (row : Row) : Bool :=
  (level.found row).any (Value.equalsAll cells)

/-- Whether a row holds any object of a relation. -/
def present (level : Level) (row : Row) : Bool := !(level.found row).isEmpty

/-- The objects that rows hold of a relation, in the order in which they are first seen. -/
def distinct (level : Level) (rows : List Row) : List (List Value) :=
  Collection.firsts Value.equalsAll (rows.flatMap level.found)

/-- The page that limit and offset stand for: without the first items, as many as the offset says,
and of the others the first ones, as many as the limit says. -/
def page {α : Type} (level : Level) (items : List α) : List α :=
  let items := items.drop (level.options.offset.getD 0).toNat
  match level.options.limit with
  | some n => items.take n.toNat
  | none => items

/-- The items of one row that a relation does not skip: only an aggregated one skips any. -/
def unskipped {α : Type} (level : Level) (items : List α) : List α :=
  if level.aggregated then items.drop (level.options.offset.getD 0).toNat else items

/-- The objects that one row has to show of a relation. -/
def offered (level : Level) (row : Row) : List (List Value) :=
  level.unskipped (level.distinct [row])

/-- The objects that are shown of a relation: of those that the rows have to show the first ones,
cut to the limit unless that is zero. -/
def shown (level : Level) (rows : List Row) : List (List Value) :=
  level.kept (Collection.firsts Value.equalsAll (rows.flatMap level.offered))

/-- The cells that a row has of a relation can be compared: those under its stem, and where it is
aggregated those of its tuples, with a cell for each column. -/
def CellsIn (S : Value → Prop) (row : Row) (level : Level) : Prop :=
  if level.aggregated then
    ∃ tuples, (Value.get level.name row).HoldsTuples tuples ∧ ∀ cells ∈ tuples,
      level.table.columns.length ≤ cells.length ∧ ∀ v ∈ cells, S v
  else ∀ key ∈ level.table.keys, S (Value.get (level.stem ++ key) row)

/-- The first cells of a tuple are those of an object, if there is one for each column. -/
theorem hasCells_take {t : Table} {tuple : List Value} (hlength : t.columns.length ≤ tuple.length)
    (h : ∀ v ∈ tuple, S v) : (Entity.mk (tuple.take t.keys.length) []).HasCells S t := by
  refine ⟨?_, fun v hv ↦ h v (List.mem_of_mem_take hv)⟩
  change (tuple.take t.keys.length).length = _
  rw [List.length_take, t.length_keys, Nat.min_eq_left hlength]

/-- Cells that are found are those of an object of the table, and not all of them are null. -/
theorem of_mem_found (h : level.CellsIn S row) (hmem : cells ∈ level.found row) :
    (Entity.mk cells []).HasCells S level.table ∧ ∃ v ∈ cells, v.isNull = false := by
  unfold found CellsIn at *
  obtain ⟨hmem, hsome⟩ := List.mem_filter.mp hmem
  have hsome : ∃ v ∈ cells, v.isNull = false := by
    obtain ⟨v, hv, hnull⟩ := List.all_eq_false.mp ((Bool.not_eq_true' _).mp hsome)
    exact ⟨v, hv, Bool.eq_false_iff.mpr hnull⟩
  refine ⟨?_, hsome⟩
  by_cases hagg : level.aggregated = true
  · rw [if_pos hagg] at h hmem
    obtain ⟨tuples, htuples, hcells⟩ := h
    rw [htuples.tuples_eq] at hmem
    obtain ⟨tuple, htuple, rfl⟩ := List.mem_map.mp hmem
    obtain ⟨hlength, hS⟩ := hcells tuple htuple
    exact hasCells_take hlength hS
  · rw [if_neg hagg] at h hmem
    obtain rfl := List.mem_singleton.mp hmem
    exact hasCells_cellsIn h []

theorem length_found_le (hagg : level.aggregated = false) (row : Row) :
    (level.found row).length ≤ 1 := by
  unfold found
  rw [if_neg (Bool.eq_false_iff.mp hagg)]
  exact List.length_filter_le _ _

/-- A row holds at most one object of a relation that is not aggregated. -/
theorem found_cases (hagg : level.aggregated = false) (row : Row) :
    level.found row = [] ∨ ∃ cells, level.found row = [cells] := by
  have hlen := length_found_le hagg row
  rcases h : level.found row with _ | ⟨cells, _ | ⟨other, others⟩⟩
  · exact .inl rfl
  · exact .inr ⟨cells, rfl⟩
  · rw [h] at hlen
    simp only [List.length_cons] at hlen
    omega

theorem distinct_singleton (level : Level) (row : Row) :
    level.distinct [row] = Collection.firsts Value.equalsAll (level.found row) := by
  rw [distinct, List.flatMap_singleton]

/-- What a row has to show was found in it. -/
theorem mem_found_of_mem_offered (h : cells ∈ level.offered row) : cells ∈ level.found row := by
  rw [offered, distinct_singleton, unskipped] at h
  split at h
  · exact Collection.mem_of_mem_firsts (List.mem_of_mem_drop h)
  · exact Collection.mem_of_mem_firsts h

theorem unskipped_map {α β : Type} (f : α → β) (items : List α) :
    level.unskipped (items.map f) = (level.unskipped items).map f := by
  unfold unskipped
  split
  · exact List.map_drop.symm
  · rfl

/-- What is shown was found in some row. -/
theorem exists_of_mem_shown {rows : List Row} (h : cells ∈ level.shown rows) :
    ∃ row ∈ rows, cells ∈ level.found row := by
  have hfirst := (level.kept_sublist _).subset h
  obtain ⟨row, hrow, hmem⟩ := List.mem_flatMap.mp (Collection.mem_of_mem_firsts hfirst)
  exact ⟨row, hrow, mem_found_of_mem_offered hmem⟩

/-- The items that one row has to show differ from each other. -/
theorem pairwise_offered (level : Level) (row : Row) :
    (level.offered row).Pairwise fun a b ↦ Value.equalsAll a b = false := by
  have hdistinct : (level.distinct [row]).Pairwise fun a b ↦ Value.equalsAll a b = false :=
    Collection.pairwise_firsts _
  unfold offered unskipped
  split
  · exact hdistinct.sublist (List.drop_sublist _ _)
  · exact hdistinct

/-- A single row shows what it has to show, cut. -/
theorem shown_singleton (level : Level) (row : Row) :
    level.shown [row] = level.kept (level.offered row) := by
  rw [shown, List.flatMap_singleton, Collection.firsts_of_pairwise (level.pairwise_offered row)]

/-- What a row has to show of a relation that is not aggregated is what it holds. -/
theorem offered_eq_found (hagg : level.aggregated = false) (row : Row) :
    level.offered row = level.found row := by
  rw [offered, distinct_singleton, unskipped, if_neg (Bool.eq_false_iff.mp hagg)]
  rcases level.found_cases hagg row with h | ⟨cells, h⟩ <;> rw [h] <;> rfl

end Level

namespace Node

variable {nodes : List Node} {row : Row} {rows : List Row}

mutual

/-- The objects that rows make of a relation: of one to a single row the first object that is found,
of one to many those that are shown; each with what the rows that hold it make of the relations
below. -/
def gather : Node → List Row → List Entity
  | .mk level children, rows =>
    match level.kind with
    | .one => ((rows.flatMap level.found).take 1).map fun cells ↦
        .mk cells (gatherAll children (rows.filter level.present))
    | .many => (level.shown rows).map fun cells ↦
        .mk cells (gatherAll children (rows.filter (level.holds cells)))

/-- The objects that rows make of relations, relation by relation. -/
def gatherAll : List Node → List Row → List (List Entity)
  | [], _ => []
  | n :: rest, rows => n.gather rows :: gatherAll rest rows

end

theorem gather_one {level : Level} (hkind : level.kind = .one) (children : List Node)
    (rows : List Row) : gather (.mk level children) rows =
      ((rows.flatMap level.found).take 1).map fun cells ↦
        .mk cells (gatherAll children (rows.filter level.present)) := by
  rw [gather, hkind]

theorem gather_many {level : Level} (hkind : level.kind = .many) (children : List Node)
    (rows : List Row) : gather (.mk level children) rows =
      (level.shown rows).map fun cells ↦
        .mk cells (gatherAll children (rows.filter (level.holds cells))) := by
  rw [gather, hkind]

/-- Objects that rows make of a relation have cells that were found, and what other rows make of the
relations below. -/
theorem exists_of_mem_gather {level : Level} {children : List Node} {e : Entity}
    (h : e ∈ gather (.mk level children) rows) :
    (∃ row ∈ rows, e.cells ∈ level.found row) ∧
      ∃ rows' ⊆ rows, e.related = gatherAll children rows' := by
  cases hkind : level.kind with
  | one =>
    rw [gather_one hkind] at h
    obtain ⟨cells, hcells, rfl⟩ := List.mem_map.mp h
    exact ⟨List.mem_flatMap.mp (List.mem_of_mem_take hcells), _, List.filter_subset_self _, rfl⟩
  | many =>
    rw [gather_many hkind] at h
    obtain ⟨cells, hcells, rfl⟩ := List.mem_map.mp h
    exact ⟨Level.exists_of_mem_shown hcells, _, List.filter_subset_self _, rfl⟩

/-- What rows make of relations fits them. -/
theorem fit_gatherAll (hrows : ∀ row ∈ rows, HaveCells S row nodes) :
    AllFit S nodes (gatherAll nodes rows) := by
  induction nodes using forest_induction generalizing rows with
  | nil => exact trivial
  | cons level children rest ihChildren ihRest =>
    refine ⟨⟨fun hone ↦ ?_, ?_, fun e he ↦ ?_⟩, ihRest fun row hrow ↦ (hrows row hrow).2⟩
    · rw [gather_one hone, List.length_map]
      exact List.length_take_le _ _
    · cases hkind : level.kind with
      | one =>
        rw [gather_one hkind]
        refine List.pairwise_map.mpr ?_
        rcases rows.flatMap level.found with _ | ⟨cells, others⟩
        · exact .nil
        · exact List.pairwise_singleton _ _
      | many =>
        rw [gather_many hkind]
        exact List.pairwise_map.mpr
          ((Collection.pairwise_firsts _).sublist (level.kept_sublist _))
    · obtain ⟨⟨row, hrow, hfound⟩, rows', hsub, hrelated⟩ := exists_of_mem_gather he
      obtain ⟨hcells, hsome⟩ := Level.of_mem_found (hrows row hrow).1.1 hfound
      refine ⟨hcells, hsome, ?_⟩
      rw [hrelated]
      exact ihChildren fun row hrow ↦ (hrows row (hsub hrow)).1.2

/-- What rows make of relations is within their limits. -/
theorem within_gatherAll (nodes : List Node) (rows : List Row) :
    AllWithin nodes (gatherAll nodes rows) := by
  induction nodes using forest_induction generalizing rows with
  | nil => exact trivial
  | cons level children rest ihChildren ihRest =>
    refine ⟨⟨?_, fun e he ↦ ?_⟩, ihRest rows⟩
    · cases hkind : level.kind with
      | one => rw [Level.kept_of_one hkind]
      | many => rw [gather_many hkind, Level.kept_map, Level.shown, Level.kept_kept]
    · obtain ⟨-, rows', -, hrelated⟩ := exists_of_mem_gather he
      rw [hrelated]
      exact ihChildren rows'

/-! ### Single rows -/

/-- A single row makes of a relation that is not aggregated the object that it holds. -/
theorem gather_singleton (hS : Value.Comparable S) {level : Level}
    (hagg : level.aggregated = false) (hcounts : level.Counts) (hcells : level.CellsIn S row)
    (children : List Node) : gather (.mk level children) [row] =
      (level.found row).map fun cells ↦ .mk cells (gatherAll children [row]) := by
  cases hkind : level.kind with
  | one =>
    rw [gather_one hkind, List.flatMap_singleton]
    rcases level.found_cases hagg row with h | ⟨cells, h⟩ <;> simp [Level.present, h]
  | many =>
    rw [gather_many hkind, Level.shown_singleton, Level.offered_eq_found hagg,
      hcounts.kept_of_length_le (level.length_found_le hagg row)]
    refine List.map_congr_left fun cells hmem ↦ ?_
    have hholds : level.holds cells row = true :=
      List.any_eq_true.mpr ⟨cells, hmem, hS.equalsAll_refl (Level.of_mem_found hcells hmem).1.2⟩
    rw [List.filter_cons_of_pos hholds, List.filter_nil]

/-- A single row makes at most one object of each relation that is not aggregated. -/
theorem single_gatherAll (hS : Value.Comparable S) (hcount : LimitsCount nodes)
    (hrow : HaveCells S row nodes) : AllSingle nodes (gatherAll nodes [row]) := by
  induction nodes using forest_induction with
  | nil => exact trivial
  | cons level children rest ihChildren ihRest =>
    obtain ⟨⟨hcounts, hcountBelow⟩, hcountRest⟩ := hcount
    obtain ⟨⟨hcells, hbelow⟩, hrest⟩ := hrow
    refine ⟨fun hagg ↦ ?_, ihRest hcountRest hrest⟩
    rw [gather_singleton hS hagg hcounts hcells]
    refine ⟨?_, List.forall_mem_map.mpr fun _ _ ↦ ihChildren hcountBelow hbelow⟩
    rw [List.length_map]
    exact level.length_found_le hagg row

end Node

/-! ### Tuples -/

/-- Objects without relations are compared by their cells. -/
private theorem same_leaf (hS : Value.Comparable S) {t : Table} (hn : t.keys.Nodup)
    {xs ys : List Value} (hx : (Entity.mk xs []).HasCells S t)
    (hy : (Entity.mk ys []).HasCells S t) :
    (Value.map (Row.named (t.keys.zip xs))).same (.map (Row.named (t.keys.zip ys))) =
      .ok (Value.equalsAll xs ys) := by
  have hkeys : (t.keys ++ Node.names []).Nodup := by rwa [Node.names, List.map_nil, List.append_nil]
  have hapart : Node.KeysApart [] := trivial
  have hsame : ((Entity.mk xs []).object t []).same ((Entity.mk ys []).object t []) =
      .ok (((Entity.mk xs []).object t []).equals ((Entity.mk ys []).object t [])) :=
    Node.same_object hS hapart hkeys ⟨hx, trivial⟩ ⟨hy, trivial⟩
  rw [object_leaf, object_leaf] at hsame
  rw [hsame]
  refine congrArg Except.ok (Bool.eq_iff_iff.mpr ⟨fun h ↦ ?_, equals_of_cells⟩)
  rw [← object_leaf, ← object_leaf] at h
  exact (Node.equals_object hkeys (a := .mk xs []) (b := .mk ys []) ⟨hx, trivial⟩ ⟨hy, trivial⟩ h).1

/-- The objects of tuples, from their cells. -/
private def rowsOf (t : Table) (found : List (List Value)) : List Row :=
  found.map fun cells ↦ Row.named (t.keys.zip cells)

/-- A tuple adds its object unless its cells are all null or were found before. -/
private theorem addTuple_rowsOf (hS : Value.Comparable S) {t : Table} (hn : t.keys.Nodup)
    {found : List (List Value)} (hfound : ∀ xs ∈ found, (Entity.mk xs []).HasCells S t)
    {tuple : Value} {cells : List Value} (hitems : tuple.items = .ok cells)
    (hcells : (Entity.mk (cells.take t.keys.length) []).HasCells S t) :
    Objects.addTuple t.keys (rowsOf t found) tuple = .ok (rowsOf t
      (if (cells.take t.keys.length).all Value.isNull then found
        else Collection.put Value.equalsAll (fun x _ ↦ x) (cells.take t.keys.length) found)) := by
  have hlength : t.columns.length ≤ cells.length := by
    have h : (cells.take t.keys.length).length = t.columns.length := hcells.1
    rw [List.length_take, t.length_keys] at h
    omega
  have hobject : Objects.ofTuple t.keys cells =
      Row.named (t.keys.zip (cells.take t.keys.length)) := by
    rw [Objects.ofTuple_eq, zip_take hlength]
  generalize cells.take t.keys.length = own at *
  have hown : own.length = t.keys.length := by
    rw [t.length_keys]
    exact hcells.1
  have hnull : (Row.named (t.keys.zip own)).all (fun e ↦ e.2.isNull) = own.all Value.isNull := by
    have hsnd : (t.keys.zip own).map Prod.snd = own := List.map_snd_zip (by omega)
    nth_rewrite 2 [← hsnd]
    rw [Row.named, List.all_map, List.all_map]
    rfl
  have hany : (rowsOf t found).anyM (m := Except Failure) (fun other ↦
      (Value.map other).same (.map (Row.named (t.keys.zip own)))) =
        .ok (found.any (Value.equalsAll · own)) := by
    clear hnull
    induction found with
    | nil => rfl
    | cons xs found ih =>
      obtain ⟨hxs, hfound⟩ := List.forall_mem_cons.mp hfound
      rw [rowsOf, List.map_cons, List.anyM, same_leaf hS hn hxs hcells, List.any_cons]
      cases Value.equalsAll xs own with
      | true => rfl
      | false => exact ih hfound
  rw [Objects.addTuple, hitems]
  simp only [bind, Except.bind, hobject, hnull, hany]
  split
  · rfl
  · rw [Collection.put_first]
    cases found.any (Value.equalsAll · own) with
    | true => rfl
    | false =>
      rw [if_neg Bool.false_ne_true, if_neg Bool.false_ne_true, rowsOf, rowsOf, List.map_append]
      rfl

/-- Tuples add the objects of their cells that are found first. -/
private theorem foldlM_addTuple_rowsOf (hS : Value.Comparable S) {t : Table} (hn : t.keys.Nodup)
    {items : List Value} {tuples : List (List Value)}
    (htuples : List.Forall₂ (fun tuple cells ↦ tuple.items = .ok cells) items tuples)
    (hcells : ∀ cells ∈ tuples, (Entity.mk (cells.take t.keys.length) []).HasCells S t)
    {found : List (List Value)} (hfound : ∀ xs ∈ found, (Entity.mk xs []).HasCells S t) :
    items.foldlM (Objects.addTuple t.keys) (rowsOf t found) = .ok (rowsOf t
      (Collection.putAll Value.equalsAll (fun x _ ↦ x) found
        ((tuples.map (List.take t.keys.length)).filter fun cells ↦ !cells.all Value.isNull))) := by
  induction htuples generalizing found with
  | nil => rfl
  | @cons tuple cells items tuples hitems _ ih =>
    obtain ⟨hhere, hcells⟩ := List.forall_mem_cons.mp hcells
    have hput : ∀ xs ∈ Collection.put Value.equalsAll (fun x _ ↦ x)
        (cells.take t.keys.length) found, (Entity.mk xs []).HasCells S t :=
      Collection.forall_mem_put hhere hfound fun _ _ h ↦ h
    rw [List.foldlM_cons, addTuple_rowsOf hS hn hfound hitems hhere, List.map_cons]
    cases hnull : (cells.take t.keys.length).all Value.isNull with
    | true =>
      rw [List.filter_cons_of_neg (by rw [hnull]; exact Bool.false_ne_true)]
      exact ih hcells hfound
    | false =>
      rw [List.filter_cons_of_pos (by rw [hnull]; rfl), Collection.putAll_cons]
      exact ih hcells hput

/-- No offset of an aggregated relation is negative. -/
def Level.Skips (level : Level) : Prop :=
  level.aggregated = true → ∀ n, level.options.offset = some n → 0 ≤ n

/-- The items that an aggregated relation does not skip are those from its offset. -/
private theorem Level.unskipped_eq {level : Level} {α : Type} (hagg : level.aggregated = true)
    (hskips : level.Skips) (items : List α) : level.unskipped items =
      (FindOptions.counted level.options.offset).elim items (sliceFrom · items) := by
  rw [unskipped, if_pos hagg]
  rcases hoffset : level.options.offset with _ | n
  · rfl
  · by_cases hzero : n = 0
    · rw [hzero]
      rfl
    · have hsign : ¬ n < 0 := by
        have hn := hskips hagg n hoffset
        omega
      rw [FindOptions.counted, Option.filter_some, if_pos (decide_eq_true hzero)]
      exact (if_neg hsign).symm

/-- The page of an aggregated relation skips its first items and keeps the first of the others. -/
private theorem Level.page_eq_unskipped {level : Level} {α : Type} (hkind : level.kind = .many)
    (hagg : level.aggregated = true) (hcounts : level.Counts) (hskips : level.Skips)
    (items : List α) : level.options.page items = level.kept (level.unskipped items) := by
  rw [FindOptions.page_eq, ← level.unskipped_eq hagg hskips, kept, hkind]
  rcases hcounted : FindOptions.counted level.options.limit with _ | n
  · rfl
  · exact hcounts.sliceTo_eq_take hkind hcounted _

/-- The array of tuples that a row holds becomes the objects that it shows. -/
private theorem ofTuples_shown (hS : Value.Comparable S) {level : Level}
    (hn : level.table.keys.Nodup) (hkind : level.kind = .many) (hagg : level.aggregated = true)
    (hcounts : level.Counts) (hskips : level.Skips) {row : Row} (hcells : level.CellsIn S row) :
    Objects.ofTuples level (Value.get level.name row) =
      .ok (.list ((level.shown [row]).map fun cells ↦
        .map (Row.named (level.table.keys.zip cells)))) := by
  have hfound : level.found row = ((Value.get level.name row).tuples.map
      (List.take level.table.keys.length)).filter fun cells ↦ !cells.all Value.isNull := by
    rw [Level.found, if_pos hagg]
  rw [Level.CellsIn, if_pos hagg] at hcells
  obtain ⟨tuples, htuples, hcells⟩ := hcells
  rw [htuples.tuples_eq] at hfound
  obtain ⟨items, hitems, hforall⟩ := Value.holdsTuples_iff.mp htuples
  have htaken : ∀ cells ∈ tuples,
      (Entity.mk (cells.take level.table.keys.length) []).HasCells S level.table :=
    fun cells hmem ↦ Level.hasCells_take (hcells cells hmem).1 (hcells cells hmem).2
  have hread : items.foldlM (Objects.addTuple level.table.keys) (rowsOf level.table []) =
      .ok (rowsOf level.table (Collection.firsts Value.equalsAll (level.found row))) := by
    rw [hfound]
    exact foldlM_addTuple_rowsOf hS hn hforall htaken nofun
  rw [Objects.ofTuples, hitems]
  change Except.bind (items.foldlM _ (rowsOf level.table [])) _ = _
  rw [hread]
  change Except.ok (Value.list ((level.options.page (rowsOf level.table
    (Collection.firsts Value.equalsAll (level.found row)))).map .map)) = _
  rw [Level.page_eq_unskipped hkind hagg hcounts hskips, level.shown_singleton, Level.offered,
    level.distinct_singleton, rowsOf, Level.unskipped_map, Level.kept_map, List.map_map]
  rfl

/-! ### Rows -/

namespace Node

variable {nodes : List Node} {row : Row}

/-- No offset of an aggregated relation is negative. -/
def OffsetsSkip : List Node → Prop := All fun level _ ↦ level.Skips

/-- The objects of a relation that is not aggregated are those of a row. -/
private theorem ofRow_eq {level : Level} (hagg : level.aggregated = false)
    (related : List (List Entity)) :
    ofRow level row related = (level.found row).map fun cells ↦ .mk cells related := by
  rw [ofRow, Level.found, if_neg (Bool.eq_false_iff.mp hagg), List.filter_cons, List.filter_nil,
    List.all_map, Function.comp_def]
  by_cases hnull : (level.table.cellsIn level.stem row).all (fun e ↦ e.2.isNull) = true
  · rw [if_pos hnull, hnull]
    rfl
  · rw [if_neg hnull, Bool.eq_false_iff.mpr hnull]
    rfl

/-- What a row holds of relations is attached as it is gathered from the row. -/
theorem attachAll_gatherAll (hS : Value.Comparable S) (hapart : KeysApart nodes)
    (hleaves : AggregatesLeaves nodes) (hcount : LimitsCount nodes) (hskip : OffsetsSkip nodes)
    (hrow : HaveCells S row nodes) (before : List (String × Value))
    (hnames : (Keyed.keys before ++ names nodes).Nodup) :
    Objects.attachAll row nodes (Row.named before) =
      .ok (Row.named (before ++ relations nodes (gatherAll nodes [row]))) := by
  induction nodes using forest_induction generalizing before with
  | nil =>
    change Except.ok _ = Except.ok (Row.named (before ++ []))
    rw [List.append_nil]
  | cons level children rest ihChildren ihRest =>
    obtain ⟨⟨hkeys, hapartBelow⟩, hapartRest⟩ := hapart
    obtain ⟨⟨hleaf, hleavesBelow⟩, hleavesRest⟩ := hleaves
    obtain ⟨⟨hcounts, hcountBelow⟩, hcountRest⟩ := hcount
    obtain ⟨⟨hskips, hskipBelow⟩, hskipRest⟩ := hskip
    obtain ⟨⟨hcells, hrowBelow⟩, hrowRest⟩ := hrow
    have hset := Row.setEntry_new (name_notMem_keys hnames)
    have hhere : Objects.attach row (.mk level children) (Row.named before) =
        .ok (Row.named (before ++
          [(level.name, held (.mk level children) (gather (.mk level children) [row]))])) := by
      rw [Objects.attach, ← hset]
      cases hagg : level.aggregated with
      | true =>
        obtain ⟨hmany, rfl⟩ := hleaf hagg
        have hlist : (level.shown [row]).map (fun cells ↦
            Value.map (Row.named (level.table.keys.zip cells))) =
            (gather (.mk level []) [row]).map (Entity.object level.table []) := by
          rw [gather_many hmany, List.map_map]
          exact List.map_congr_left fun cells _ ↦ (object_leaf level.table cells).symm
        rw [if_pos rfl, ofTuples_shown hS (List.nodup_append.mp hkeys).1 hmany hagg hcounts hskips
          hcells, hlist, held_many hmany]
        rfl
      | false =>
        have hbelow := ihChildren hapartBelow hleavesBelow hcountBelow hskipBelow hrowBelow
          (level.table.cellsIn level.stem row) (by rwa [level.table.keys_cellsIn])
        rw [if_neg Bool.false_ne_true, Objects.cells_eq, hbelow,
          gather_singleton hS hagg hcounts hcells, ← ofRow_eq hagg, ← related_cellsIn hkeys]
        rfl
    have hthere := ihRest hapartRest hleavesRest hcountRest hskipRest hrowRest _
      (nodup_keys_snoc (held (.mk level children) (gather (.mk level children) [row])) hnames)
    rw [Objects.attachAll, hhere]
    change Objects.attachAll row rest _ = _
    rw [hthere, List.append_assoc]
    rfl

end Node

/-- The entity that flat rows make: the cells of the first one, with what all of them make of
relations. -/
def Entity.ofRows (t : Table) (nodes : List Node) (rows : List Row) : Entity :=
  .mk ((t.cellsIn "" (rows.headD [])).map Prod.snd) (Node.gatherAll nodes rows)

/-- The object of a row is that of the entity that the row makes. -/
theorem Objects.ofRow_gathered (hS : Value.Comparable S) {t : Table} {nodes : List Node}
    (hkeys : (t.keys ++ Node.names nodes).Nodup) (hapart : Node.KeysApart nodes)
    (hleaves : Node.AggregatesLeaves nodes) (hcount : Node.LimitsCount nodes)
    (hskip : Node.OffsetsSkip nodes) {row : Row} (hrow : row.Flat S t nodes) :
    ofRow t nodes row = .ok ((Entity.ofRows t nodes [row]).object t nodes) := by
  have hattach := Node.attachAll_gatherAll hS hapart hleaves hcount hskip hrow.related
    (t.cellsIn "" row) (by rwa [t.keys_cellsIn])
  rw [ofRow, cells_eq, hattach, ← t.zip_cellsIn "" row]
  rfl

end Columnar
