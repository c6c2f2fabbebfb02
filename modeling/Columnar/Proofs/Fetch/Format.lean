import Columnar.Proofs.Fetch.Rows
import Columnar.Proofs.Fetch.Statement

/-!
# The format of a row

The statement of a fetch and the objects that are built from its rows agree on the format of a row,
whatever relations are planned (`format_agrees`). The statement selects a column of a level under
the level's stem and the column's key, and from there its cell comes to stand under the key in the
object of the level (`Node.AllHeldAs`). The stem consists of the names on the path to the level
(`Node.AllStemmed`). Of an aggregated relation the statement selects tuples in the order of the
columns, and the object of a tuple has its cells under their keys in that order
(`Objects.Gathered`); of these objects the relation's page is shown (`FindOptions.IsPage`).
-/

namespace Columnar

/-! ### Pages -/

namespace FindOptions

/-- Where the page of so many items begins: behind as many of them as the offset says, or with as
many before the end where it is negative. -/
def start (o : FindOptions) (length : Nat) : Nat :=
  match o.offset with
  | none => 0
  | some n => if n < 0 then length - n.natAbs else n.toNat

/-- How many of so many items a page has at most: as many as the limit says, or all but as many
where it is negative, and all of them where it is absent or zero. -/
def most (o : FindOptions) (length : Nat) : Nat :=
  match o.limit with
  | none => length
  | some n => if n = 0 then length else if n < 0 then length - n.natAbs else n.toNat

/-- The page of a list: the items from where it begins, as many as it has at most. -/
def IsPage {α : Type} (o : FindOptions) (xs page : List α) : Prop :=
  let first := o.start xs.length
  ∀ i, page[i]? = if i < o.most (xs.length - first) then xs[first + i]? else none

/-- Limit and offset are applied one after the other, each where it counts. -/
theorem page_eq {α : Type} (o : FindOptions) (xs : List α) : o.page xs =
    (counted o.limit).elim ((counted o.offset).elim xs (sliceFrom · xs))
      (sliceTo · ((counted o.offset).elim xs (sliceFrom · xs))) := by
  unfold page
  cases counted o.offset <;> cases counted o.limit <;> rfl

private theorem counted_some (n : Int) : counted (some n) = if n = 0 then none else some n := by
  by_cases hzero : n = 0 <;> simp [counted, Option.filter_some, hzero]

private theorem sliceFrom_counted {α : Type} (o : FindOptions) (xs : List α) :
    (counted o.offset).elim xs (sliceFrom · xs) = xs.drop (o.start xs.length) := by
  unfold start
  rcases o.offset with _ | n
  · rfl
  · by_cases hzero : n = 0
    · simp [counted_some, hzero]
    · simp only [counted_some, if_neg hzero, Option.elim_some, sliceFrom]
      split <;> rfl

private theorem sliceTo_counted {α : Type} (o : FindOptions) (xs : List α) :
    (counted o.limit).elim xs (sliceTo · xs) = xs.take (o.most xs.length) := by
  unfold most
  rcases o.limit with _ | n
  · exact List.take_length.symm
  · by_cases hzero : n = 0
    · simp [counted_some, hzero]
    · simp only [counted_some, if_neg hzero, Option.elim_some, sliceTo]
      split <;> rfl

/-- What limit and offset leave is the page. -/
theorem isPage_page {α : Type} (o : FindOptions) (xs : List α) : o.IsPage xs (o.page xs) := by
  intro i
  rw [page_eq, sliceFrom_counted, sliceTo_counted, List.length_drop, List.getElem?_take,
    List.getElem?_drop]

end FindOptions

/-! ### Objects from tuples -/

namespace Objects

/-- The objects that are found in tuples, in their order: some cell of each is not null, no two are
equal, and none is missing unless its cells are all null or an equal one comes before it. -/
structure Gathered (keys : List String) (tuples : List (List Value)) (found : List Row) : Prop where
  sublist : found.Sublist (tuples.map fun cells ↦ Row.named (keys.zip cells))
  present : ∀ object ∈ found, ∃ e ∈ object, e.2.isNull = false
  distinct : found.Pairwise fun a b ↦ (Value.map a).equals (.map b) = false
  complete : ∀ before cells, before ++ [cells] <+: tuples →
    let object := Row.named (keys.zip cells)
    (∀ e ∈ object, e.2.isNull = true) ∨ object ∈ found ∨
      ∃ other ∈ found, other ∈ before.map (fun cells ↦ Row.named (keys.zip cells)) ∧
        (Value.map other).equals (.map object) = true

theorem ofTuple_eq (keys : List String) (cells : List Value) :
    ofTuple keys cells = Row.named (keys.zip cells) := rfl

variable {keys : List String} {tuples : List (List Value)} {found found' : List Row}

theorem gathered_nil : Gathered keys [] [] :=
  ⟨.slnil, nofun, .nil, fun before cells h ↦ by simp at h⟩

/-- An object is among others when comparing them one by one finds an equal one. -/
private theorem any_of_anyM {object : Row} {old : Bool}
    (h : found.anyM (m := Except Failure) (fun other ↦ (Value.map other).same (.map object)) =
      .ok old) : found.any (fun other ↦ (Value.map other).equals (.map object)) = old := by
  induction found with
  | nil => exact Except.ok.inj h
  | cons other found ih =>
    obtain ⟨equal, hsame, h⟩ := Succeeding.bind_eq_ok.mp h
    rw [List.any_cons, Value.same_eq_ok hsame]
    cases equal with
    | true => exact Except.ok.inj h
    | false => exact ih h

/-- A tuple adds its object, unless it has nulls only or an equal object is there. -/
private theorem addTuple_cases {tuple : Value} {cells : List Value}
    (hitems : tuple.items = .ok cells) (h : addTuple keys found tuple = .ok found') :
    let object := Row.named (keys.zip cells)
    found' = found ∧ (object.all (fun e ↦ e.2.isNull) = true ∨
        found.any (fun other ↦ (Value.map other).equals (.map object)) = true) ∨
      found' = found ++ [object] ∧ object.all (fun e ↦ e.2.isNull) = false ∧
        found.any (fun other ↦ (Value.map other).equals (.map object)) = false := by
  intro object
  obtain ⟨cells', hcells, h⟩ := Succeeding.bind_eq_ok.mp h
  cases hitems.symm.trans hcells
  simp only at h
  split at h
  · next hnull => exact .inl ⟨(Except.ok.inj h).symm, .inl hnull⟩
  · next hsome =>
    obtain ⟨old, hold, h⟩ := Succeeding.bind_eq_ok.mp h
    cases old with
    | true => exact .inl ⟨(Except.ok.inj h).symm, .inr (any_of_anyM hold)⟩
    | false => exact .inr ⟨(Except.ok.inj h).symm, Bool.eq_false_iff.mpr hsome, any_of_anyM hold⟩

/-- What one tuple adds is found in the tuples with it. -/
private theorem Gathered.add {tuple : Value} {cells : List Value}
    (h : Gathered keys tuples found) (hitems : tuple.items = .ok cells)
    (hadd : addTuple keys found tuple = .ok found') : Gathered keys (tuples ++ [cells]) found' := by
  obtain ⟨rfl, hskipped⟩ | ⟨rfl, hsome, hnew⟩ := addTuple_cases hitems hadd
  · refine ⟨?_, h.present, h.distinct, fun before last hprefix ↦ ?_⟩
    · rw [List.map_append]
      exact h.sublist.trans (List.sublist_append_left _ _)
    · rcases List.prefix_concat_iff.mp hprefix with hlast | hearlier
      · obtain ⟨rfl, hcells⟩ := List.append_inj' hlast rfl
        obtain rfl := List.singleton_inj.mp hcells
        rcases hskipped with hnull | hold
        · exact .inl (List.all_eq_true.mp hnull)
        · obtain ⟨other, hother, hequal⟩ := List.any_eq_true.mp hold
          exact .inr (.inr ⟨other, hother, h.sublist.subset hother, hequal⟩)
      · exact h.complete before last hearlier
  · refine ⟨?_, ?_, ?_, fun before last hprefix ↦ ?_⟩
    · rw [List.map_append]
      exact h.sublist.append (.refl _)
    · refine List.forall_mem_append.mpr ⟨h.present, List.forall_mem_singleton.mpr ?_⟩
      obtain ⟨e, he, hnull⟩ := List.all_eq_false.mp hsome
      exact ⟨e, he, Bool.eq_false_iff.mpr hnull⟩
    · refine List.pairwise_append.mpr ⟨h.distinct, List.pairwise_singleton _ _, ?_⟩
      intro other hother object hobject
      obtain rfl := List.mem_singleton.mp hobject
      exact Bool.eq_false_iff.mpr (List.any_eq_false.mp hnew other hother)
    · rcases List.prefix_concat_iff.mp hprefix with hlast | hearlier
      · obtain ⟨rfl, hcells⟩ := List.append_inj' hlast rfl
        obtain rfl := List.singleton_inj.mp hcells
        exact .inr (.inl (by simp))
      · refine (h.complete before last hearlier).imp_right fun hthere ↦ ?_
        rcases hthere with hmem | ⟨other, hother, hequal⟩
        · exact .inl (List.mem_append_left _ hmem)
        · exact .inr ⟨other, List.mem_append_left _ hother, hequal⟩

/-- What tuples add one by one is found in all of them. -/
theorem gathered_of_foldlM {items : List Value} (h : Gathered keys tuples found)
    (hfold : items.foldlM (addTuple keys) found = .ok found') :
    ∃ more, List.Forall₂ (fun tuple cells ↦ tuple.items = .ok cells) items more ∧
      Gathered keys (tuples ++ more) found' := by
  induction items generalizing tuples found with
  | nil =>
    cases hfold
    exact ⟨[], .nil, by rwa [List.append_nil]⟩
  | cons tuple items ih =>
    obtain ⟨found₁, hadd, hfold⟩ := Succeeding.bind_eq_ok.mp hfold
    obtain ⟨cells, hcells, -⟩ := Succeeding.bind_eq_ok.mp hadd
    obtain ⟨more, hmore, hgathered⟩ := ih (h.add hcells hadd) hfold
    refine ⟨cells :: more, .cons hcells hmore, ?_⟩
    rwa [List.append_assoc] at hgathered

/-- A tuple is added when its object can be compared with those that are there. -/
private theorem exists_addTuple {tuple : Value} {cells : List Value}
    (hitems : tuple.items = .ok cells)
    (hquiet : ∀ other ∈ found,
      (Value.map other).signals (.map (Row.named (keys.zip cells))) = false) :
    ∃ found', addTuple keys found tuple = .ok found' := by
  obtain ⟨old, hold⟩ : ∃ old, found.anyM (m := Except Failure) (fun other ↦
      (Value.map other).same (.map (Row.named (keys.zip cells)))) = .ok old := by
    induction found with
    | nil => exact ⟨false, rfl⟩
    | cons other found ih =>
      obtain ⟨hother, hrest⟩ := List.forall_mem_cons.mp hquiet
      obtain ⟨old, hold⟩ := ih hrest
      rw [List.anyM, Value.same, hother]
      cases hequal : (Value.map other).equals (.map (Row.named (keys.zip cells))) with
      | true => exact ⟨true, rfl⟩
      | false => exact ⟨old, hold⟩
  rw [addTuple, hitems]
  simp only [bind, Except.bind, ofTuple_eq, hold]
  split
  · exact ⟨_, rfl⟩
  · cases old <;> exact ⟨_, rfl⟩

/-- Tuples are added one by one when their objects can be compared with each other. -/
theorem exists_foldlM {items : List Value} {more : List (List Value)}
    (h : Gathered keys tuples found)
    (hitems : List.Forall₂ (fun tuple cells ↦ tuple.items = .ok cells) items more)
    (hquiet : ((tuples ++ more).map fun cells ↦ Row.named (keys.zip cells)).Pairwise fun a b ↦
      (Value.map a).signals (.map b) = false) :
    ∃ found', items.foldlM (addTuple keys) found = .ok found' := by
  induction hitems generalizing tuples found with
  | nil => exact ⟨found, rfl⟩
  | @cons tuple cells items more hcells hitems ih =>
    have hearlier : ∀ other ∈ found,
        (Value.map other).signals (.map (Row.named (keys.zip cells))) = false := by
      rw [List.map_append, List.map_cons] at hquiet
      exact fun other hother ↦ (List.pairwise_append.mp hquiet).2.2 other
        (h.sublist.subset hother) _ List.mem_cons_self
    obtain ⟨found₁, hadd⟩ := exists_addTuple hcells hearlier
    rw [List.append_cons] at hquiet
    obtain ⟨found', hfold⟩ := ih (h.add hcells hadd) hquiet
    exact ⟨found', by rw [List.foldlM_cons, hadd]; exact hfold⟩

end Objects

/-! ### Tuples of a value -/

namespace Value

/-- What a value yields when it is gone through: a sequence its items, a text its characters, a map
its keys. -/
inductive Yields : Value → List Value → Prop
  | list (items : List Value) : Yields (.list items) items
  | tuple (items : List Value) : Yields (.tuple items) items
  | text (s : String) : Yields (.text s) (s.toList.map fun c ↦ .text c.toString)
  | map (entries : List (Value × Value)) : Yields (.map entries) (entries.map Prod.fst)

theorem items_eq_ok_iff {v : Value} {items : List Value} :
    v.items = .ok items ↔ v.Yields items := by
  constructor
  · intro h
    cases v <;> cases h <;> constructor
  · rintro ⟨⟩ <;> rfl

/-- A value holds tuples with these cells: it yields them, or none where it counts as absent. -/
def HoldsTuples (v : Value) (tuples : List (List Value)) : Prop :=
  ∃ items, (if v.isTruthy then v.Yields items else items = []) ∧ List.Forall₂ Yields items tuples

theorem holdsTuples_iff {v : Value} {tuples : List (List Value)} : v.HoldsTuples tuples ↔
    ∃ items, v.itemsIfAny = .ok items ∧
      List.Forall₂ (fun tuple cells ↦ tuple.items = .ok cells) items tuples := by
  refine exists_congr fun items ↦ and_congr ?_ (by simp only [items_eq_ok_iff])
  rw [itemsIfAny]
  split
  · exact items_eq_ok_iff.symm
  · exact ⟨fun h ↦ congrArg Except.ok h.symm, fun h ↦ (Except.ok.inj h).symm⟩

/-- A list holds what its items yield. -/
theorem HoldsTuples.of_list {items : List Value} {tuples : List (List Value)}
    (h : List.Forall₂ Yields items tuples) : (Value.list items).HoldsTuples tuples := by
  cases items with
  | nil => exact ⟨[], rfl, h⟩
  | cons x xs => exact ⟨x :: xs, .list _, h⟩

end Value

/-! ### Cells of a level -/

/-- The cells of a table in a row, each under its key and found there under a stem and the key. -/
def Table.cellsIn (stem : String) (t : Table) (row : Row) : List (String × Value) :=
  t.keys.map fun key ↦ (key, Value.get (stem ++ key) row)

theorem Objects.cells_eq (stem : String) (t : Table) (row : Row) :
    cells stem t row = Row.named (t.cellsIn stem row) := by
  simp [cells, Table.cellsIn, Table.keys, Keyed.keys, Row.named]

theorem Table.keys_cellsIn (stem : String) (t : Table) (row : Row) :
    Keyed.keys (t.cellsIn stem row) = t.keys := by
  rw [cellsIn, Keyed.keys, List.map_map]
  exact List.map_id _

/-- The cells of a table in a row stand under its keys. -/
theorem Table.zip_cellsIn (stem : String) (t : Table) (row : Row) :
    t.keys.zip ((t.cellsIn stem row).map Prod.snd) = t.cellsIn stem row :=
  (List.zip_of_prod (t.keys_cellsIn stem row) rfl).symm

/-- The object of a level is absent when its cells are all null. -/
theorem Objects.isAbsent_cellsIn {t : Table} (hn : t.keys.Nodup) (stem : String) (row : Row)
    (others : List (String × Value)) :
    isAbsent t (Row.named (t.cellsIn stem row ++ others)) =
      (t.cellsIn stem row).all fun e ↦ e.2.isNull := by
  rw [isAbsent, Table.cellsIn, List.all_map, Bool.eq_iff_iff, List.all_eq_true, List.all_eq_true]
  refine forall₂_congr fun key hkey ↦ ?_
  have hfound : Keyed.find? key (t.cellsIn stem row ++ others) =
      some (Value.get (stem ++ key) row) := by
    have hcell : (key, Value.get (stem ++ key) row) ∈ t.cellsIn stem row :=
      List.mem_map.mpr ⟨key, hkey, rfl⟩
    rw [Keyed.find?_append, Keyed.find?_of_mem (by rwa [t.keys_cellsIn]) hcell]
    rfl
  rw [← Table.cellsIn, Row.get_named, hfound]
  rfl

/-- What stands for a related object is what stands for it alone, or for none where it is absent. -/
theorem Objects.related_eq (level : Level) (object : Row) :
    related level object =
      level.value (if isAbsent level.table object then [] else [.map object]) := by
  unfold related Level.value
  cases level.kind <;> cases isAbsent level.table object <;> rfl

/-- The objects of an aggregated relation are found in its tuples. -/
private theorem Objects.gathered_of_ofTuples {level : Level} {raw v : Value}
    (h : ofTuples level raw = .ok v) : ∃ tuples found page, raw.HoldsTuples tuples ∧
      Gathered level.table.keys tuples found ∧ level.options.IsPage found page ∧
      v = .list (page.map .map) := by
  obtain ⟨items, hitems, h⟩ := Succeeding.bind_eq_ok.mp h
  obtain ⟨found, hfound, h⟩ := Succeeding.bind_eq_ok.mp h
  obtain ⟨tuples, htuples, hgathered⟩ :=
    gathered_of_foldlM gathered_nil hfound
  exact ⟨tuples, found, _, Value.holdsTuples_iff.mpr ⟨items, hitems, htuples⟩, hgathered,
    level.options.isPage_page found, (Except.ok.inj h).symm⟩

/-- Tuples become objects when these can be compared with each other. -/
private theorem Objects.exists_ofTuples {level : Level} {raw : Value} {tuples : List (List Value)}
    (h : raw.HoldsTuples tuples)
    (hquiet : (tuples.map fun cells ↦ Row.named (level.table.keys.zip cells)).Pairwise fun a b ↦
      (Value.map a).signals (.map b) = false) : ∃ v, ofTuples level raw = .ok v := by
  obtain ⟨items, hitems, htuples⟩ := Value.holdsTuples_iff.mp h
  obtain ⟨found, hfound⟩ := exists_foldlM gathered_nil htuples hquiet
  rw [ofTuples, hitems]
  simp only [bind, Except.bind, hfound]
  exact ⟨_, rfl⟩

namespace Node

mutual

/-- What the object above a relation holds of it for a row: the page of the objects that are found
in its tuples where it is aggregated; otherwise an object with its cells and with what it holds of
the relations below, unless all of its cells are null. -/
def HeldAs (row : Row) : Node → Value → Prop
  | .mk level children, v =>
    if level.aggregated then
      ∃ tuples found page, (Value.get level.name row).HoldsTuples tuples ∧
        Objects.Gathered level.table.keys tuples found ∧ level.options.IsPage found page ∧
        v = .list (page.map .map)
    else
      let own := level.table.cellsIn level.stem row
      ∃ below, AllHeldAs row children below ∧
        v = level.value
          (if own.all fun e ↦ e.2.isNull then [] else [.map (Row.named (own ++ below))])

/-- What an object holds of relations for a row, each under its name. -/
def AllHeldAs (row : Row) : List Node → List (String × Value) → Prop
  | [], held => held = []
  | n :: rest, held => ∃ v others, n.HeldAs row v ∧ AllHeldAs row rest others ∧
      held = (n.level.name, v) :: others

end

/-- The tuples of an aggregated relation in a row can be told apart: they are tuples, and their
objects can be compared with each other. -/
def Readable (row : Row) : List Node → Prop :=
  All fun level _ ↦ level.aggregated = true → ∃ tuples,
    (Value.get level.name row).HoldsTuples tuples ∧
      (tuples.map fun cells ↦ Row.named (level.table.keys.zip cells)).Pairwise fun a b ↦
        (Value.map a).signals (.map b) = false

end Node

namespace Node

/-- What a row holds of relations is set in the object above them, under their names. -/
theorem allHeldAs_of_attachAll {row object : Row} {nodes : List Node}
    (before : List (String × Value)) (hkeys : KeysApart nodes)
    (hnames : (Keyed.keys before ++ names nodes).Nodup)
    (h : Objects.attachAll row nodes (Row.named before) = .ok object) :
    ∃ held, AllHeldAs row nodes held ∧ object = Row.named (before ++ held) := by
  induction nodes using forest_induction generalizing before object with
  | nil =>
    rw [Objects.attachAll] at h
    · exact ⟨[], rfl, by rw [List.append_nil]; exact (Except.ok.inj h).symm⟩
  | cons level children rest ihChildren ihRest =>
    obtain ⟨⟨hown, hchildren⟩, hrest⟩ := hkeys
    obtain ⟨object₁, hattach, h⟩ := Succeeding.bind_eq_ok.mp h
    -- No key of the object is the name of the relation, so setting the name loses no cell.
    have hset := Row.setEntry_new (name_notMem_keys hnames)
    obtain ⟨v, hv, rfl⟩ : ∃ v, HeldAs row (.mk level children) v ∧
        object₁ = Row.named (before ++ [(level.name, v)]) := by
      rw [Objects.attach] at hattach
      by_cases ha : level.aggregated = true
      · rw [if_pos ha] at hattach
        obtain ⟨v, hv, hattach⟩ := Succeeding.bind_eq_ok.mp hattach
        refine ⟨v, ?_, hset v ▸ (Except.ok.inj hattach).symm⟩
        rw [HeldAs, if_pos ha]
        exact Objects.gathered_of_ofTuples hv
      · rw [if_neg ha] at hattach
        obtain ⟨inner, hinner, hattach⟩ := Succeeding.bind_eq_ok.mp hattach
        rw [Objects.cells_eq] at hinner
        obtain ⟨below, hbelow, rfl⟩ := ihChildren _ hchildren
          (by rwa [level.table.keys_cellsIn]) hinner
        rw [Objects.related_eq, Objects.isAbsent_cellsIn (List.nodup_append.mp hown).1] at hattach
        refine ⟨_, ?_, hset _ ▸ (Except.ok.inj hattach).symm⟩
        rw [HeldAs, if_neg ha]
        exact ⟨below, hbelow, rfl⟩
    obtain ⟨others, hothers, rfl⟩ := ihRest (before ++ [(level.name, v)]) hrest
      (nodup_keys_snoc v hnames) h
    exact ⟨_, ⟨v, others, hv, hothers, rfl⟩, by rw [List.append_assoc]; rfl⟩

/-- What a row holds of relations can be set in an object when its tuples can be read. -/
theorem exists_attachAll {row : Row} {nodes : List Node} (h : Readable row nodes) (object : Row) :
    ∃ object', Objects.attachAll row nodes object = .ok object' := by
  induction nodes using forest_induction generalizing object with
  | nil => exact ⟨object, by rw [Objects.attachAll]⟩
  | cons level children rest ihChildren ihRest =>
    obtain ⟨⟨hlevel, hchildren⟩, hrest⟩ := h
    obtain ⟨object₁, hattach⟩ :
        ∃ object₁, Objects.attach row (.mk level children) object = .ok object₁ := by
      rw [Objects.attach]
      by_cases ha : level.aggregated = true
      · obtain ⟨tuples, htuples, hquiet⟩ := hlevel ha
        obtain ⟨v, hv⟩ := Objects.exists_ofTuples htuples hquiet
        simp only [if_pos ha, bind, Except.bind, hv]
        exact ⟨_, rfl⟩
      · obtain ⟨inner, hinner⟩ :=
          ihChildren hchildren (Objects.cells level.stem level.table row)
        simp only [if_neg ha, bind, Except.bind, hinner]
        exact ⟨_, rfl⟩
    obtain ⟨object', hrest'⟩ := ihRest hrest object₁
    exact ⟨object', by rw [Objects.attachAll, hattach]; exact hrest'⟩

end Node

/-- The object holds the cells of a row in their places: those of the table under its keys, and what
the row holds of relations under their names. -/
def Objects.Holds (t : Table) (nodes : List Node) (row : Row) (v : Value) : Prop :=
  ∃ held, Node.AllHeldAs row nodes held ∧ v = .map (Row.named (t.cellsIn "" row ++ held))

theorem Objects.holds_of_ofRow {t : Table} {nodes : List Node} {row : Row} {v : Value}
    (hkeys : (t.keys ++ Node.names nodes).Nodup) (hbelow : Node.KeysApart nodes)
    (h : ofRow t nodes row = .ok v) : Holds t nodes row v := by
  obtain ⟨object, hobject, h⟩ := Succeeding.bind_eq_ok.mp h
  rw [cells_eq] at hobject
  obtain ⟨held, hheld, rfl⟩ :=
    Node.allHeldAs_of_attachAll _ hbelow (by rwa [t.keys_cellsIn]) hobject
  exact ⟨held, hheld, (Except.ok.inj h).symm⟩

theorem Objects.exists_ofRow {nodes : List Node} {row : Row} (h : Node.Readable row nodes)
    (t : Table) : ∃ v, ofRow t nodes row = .ok v := by
  obtain ⟨object, hobject⟩ := Node.exists_attachAll h (cells "" t row)
  exact ⟨_, by rw [ofRow, hobject]; rfl⟩

/-! ### The format -/

/-- A fetch whose names are kept apart selects its outputs under their names and reads them back
from there. The stems in these names are those of the paths. The query of the fetch exists when the
filters can be resolved and compiles exactly when they can be written; the statement then selects
the outputs. The object of a row exists when its tuples can be read, and holds the cells of the row
in their places. -/
theorem Fetch.format_agrees {c : Catalog} {id : TableId} {requests : List (String × Choice)}
    {nodes : List Node} (hplan : (Plan.root c id requests).result = .ok nodes)
    (hflat : ((c.table id).keys ++ Node.flatNames nodes).Nodup)
    (halias : ∀ t ∈ c.table id :: Node.tables nodes, ∀ e ∈ t.columns, e.2.aliasName = none)
    (hkeys : ((c.table id).keys ++ Node.names nodes).Nodup) (hbelow : Node.KeysApart nodes) :
    Node.AllStemmed [] nodes ∧
    (∀ (options : FindOptions) (condition : Option Expr), Node.FiltersResolve nodes →
      options.filter.resolve (c.table id) = .ok (condition.map .expression) →
      ∃ q, query (c.entry id).source nodes options = .ok q ∧
        q.clauses.condition = condition.map .expression) ∧
    (∀ options q, query (c.entry id).source nodes options = .ok q →
      ((∃ s, q.compile.result = .ok s) ↔
        (∀ inner ∈ (c.entry id).inner, ∃ s, inner.compile.result = .ok s) ∧
          Node.FiltersWritable nodes ∧ ∀ o ∈ q.clauses.condition, o.WritableCondition) ∧
      ∀ s, q.compile.result = .ok s → s.Selects (c.table id) nodes) ∧
    ∀ row, (Node.Readable row nodes → ∃ v, Objects.ofRow (c.table id) nodes row = .ok v) ∧
      ∀ v, Objects.ofRow (c.table id) nodes row = .ok v →
        Objects.Holds (c.table id) nodes row v := by
  refine ⟨Plan.allStemmed_of_root hplan,
    fun options condition hfilters hcondition ↦ ?_, fun options q hq ↦ ⟨?_, fun s hs ↦ ?_⟩,
    fun row ↦ ⟨fun hreadable ↦ ?_, fun v hv ↦ ?_⟩⟩
  · exact @exists_query (c.entry id).source nodes options condition hfilters hcondition
  · exact exists_statement_iff (Plan.planned_of_root hplan) hq hflat
  · exact selects_of_compile hq hflat halias hs
  · exact Objects.exists_ofRow hreadable _
  · exact Objects.holds_of_ofRow hkeys hbelow hv

/-! ### Albums with artists and tracks -/

private def noted (table name : String) : Column := { name, type := "UInt64", table := some table }

private def sheet (name : String) (columns : List String) : Table :=
  { name, columns := columns.map fun key ↦ (key, noted name key) }

private def leads (kind : RelationKind) (target : TableId) (field reference : Column) : Relation :=
  { kind, target, fields := [field], references := [reference] }

private def records : Catalog :=
  { entries := #[
      { table := sheet "albums" ["id", "by"],
        relations := [("artist", leads .one 1 (noted "albums" "by") (noted "artists" "id")),
          ("tracks", leads .many 2 (noted "albums" "id") (noted "tracks" "album"))] },
      { table := sheet "artists" ["id", "born"],
        relations := [("awards", leads .many 3 (noted "artists" "id") (noted "awards" "to"))] },
      { table := sheet "tracks" ["album", "length"] },
      { table := sheet "awards" ["to", "year"] }] }

private def long : Operand :=
  .expression (Expr.gt (.column (noted "tracks" "length")) (.value (.int 300)))

/-- An album's artist with all awards, and the second one of the album's long tracks. -/
private def awardsAndTracks : List (String × Choice) :=
  [("artist", .fields [("with", .tree [("awards", .plain (.bool true))])]),
    ("tracks", .fields [("where", .filter (.fixed long)), ("limit", .plain (.int 1)),
      ("offset", .plain (.int 1))])]

private def planOfTracks : List Node :=
  [.mk { name := "artist", kind := .one, table := sheet "artists" ["id", "born"]
         condition := Expr.eq (.column (noted "albums" "by")) (.column (noted "artists" "id"))
         options := { related := some [("awards", .plain (.bool true))] }
         stem := "artist_", aggregated := false }
      [.mk { name := "awards", kind := .many, table := sheet "awards" ["to", "year"]
             condition := Expr.eq (.column (noted "artists" "id")) (.column (noted "awards" "to"))
             options := {}, stem := "artist__awards_", aggregated := false } []],
    .mk { name := "tracks", kind := .many, table := sheet "tracks" ["album", "length"]
          condition := Expr.eq (.column (noted "albums" "id")) (.column (noted "tracks" "album"))
          options := { filter := .fixed long, limit := some 1, offset := some 1 }
          stem := "tracks_", aggregated := true } []]

/-- The row of an album whose artist has no awards, with a track that is found twice. -/
private def album : Row :=
  Row.named [("id", .int 1), ("by", .int 2), ("artist_id", .int 2), ("artist_born", .int 1970),
    ("artist__awards_to", .null), ("artist__awards_year", .null),
    ("tracks", .list [.tuple [.int 1, .int 301], .tuple [.int 1, .int 301],
      .tuple [.null, .null], .tuple [.int 1, .int 444], .tuple [.int 1, .int 555]])]

/-- The album with its artist, who has no awards, and with its second track. -/
private def albumObject : Value :=
  .map (Row.named [("id", .int 1), ("by", .int 2),
    ("artist", .map (Row.named [("id", .int 2), ("born", .int 1970), ("awards", .list [])])),
    ("tracks", .list [.map (Row.named [("album", .int 1), ("length", .int 444)])])])

private def albumText : String :=
  "SELECT `albums`.`id` AS `id`, `albums`.`by` AS `by`, " ++
  "`artists`.`id` AS `artist_id`, `artists`.`born` AS `artist_born`, " ++
  "`awards`.`to` AS `artist__awards_to`, `awards`.`year` AS `artist__awards_year`, " ++
  "groupUniqArrayIf(tuple(`tracks`.`album`, `tracks`.`length`), " ++
  "`tracks`.`length` > \x7bp_1:UInt64\x7d) AS `tracks` FROM `albums` " ++
  "LEFT JOIN `artists` ON `albums`.`by` = `artists`.`id` " ++
  "LEFT JOIN `awards` ON `artists`.`id` = `awards`.`to` " ++
  "LEFT JOIN `tracks` ON `albums`.`id` = `tracks`.`album` " ++
  "GROUP BY `albums`.`id`, `albums`.`by`, `artists`.`id`, `artists`.`born`, " ++
  "`awards`.`to`, `awards`.`year` SETTINGS join_use_nulls = 1"

/-- An album with its artist, who has no awards, and with one of its tracks: what its fetch selects,
and the object that its row becomes. -/
theorem Fetch.format_agrees_album :
    (Plan.root records 0 awardsAndTracks).result = .ok planOfTracks ∧
    Node.AllStemmed [] planOfTracks ∧
    (∃ q s, query (records.entry 0).source planOfTracks {} = .ok q ∧ q.compile.result = .ok s ∧
      s.Selects (records.table 0) planOfTracks ∧ s.columns.map Prod.fst = ["id", "by", "artist_id",
        "artist_born", "artist__awards_to", "artist__awards_year", "tracks"] ∧
      s.sql = albumText) ∧
    Objects.ofRow (records.table 0) planOfTracks album = .ok albumObject ∧
    Objects.Holds (records.table 0) planOfTracks album albumObject := by
  have hplan : (Plan.root records 0 awardsAndTracks).result = .ok planOfTracks := rfl
  have halias : ∀ t ∈ records.table 0 :: Node.tables planOfTracks, ∀ e ∈ t.columns,
      e.2.aliasName = none := by decide
  obtain ⟨hstems, hbuild, hcompile, hread⟩ := format_agrees hplan (by decide) halias (by decide)
    ⟨⟨by decide, ⟨by decide, trivial⟩, trivial⟩, ⟨by decide, trivial⟩, trivial⟩
  refine ⟨hplan, hstems, ?_, ?_⟩
  · obtain ⟨q, hq, hcondition⟩ := hbuild {} none
      ⟨⟨⟨_, rfl⟩, ⟨⟨_, rfl⟩, trivial⟩, trivial⟩, ⟨⟨_, rfl⟩, trivial⟩, trivial⟩ rfl
    obtain ⟨hexists, hselects⟩ := hcompile {} q hq
    have hfilters : Node.FiltersWritable planOfTracks := by
      refine ⟨⟨nofun, ⟨nofun, trivial⟩, trivial⟩, ⟨?_, trivial⟩, trivial⟩
      rintro o ⟨⟩
      exact ⟨⟨nofun, _, rfl⟩, trivial⟩
    obtain ⟨s, hs⟩ := hexists.mpr ⟨nofun, hfilters, hcondition ▸ nofun⟩
    refine ⟨q, s, hq, hs, hselects s hs, (hselects s hs).1, ?_⟩
    cases hq
    cases hs
    decide +kernel
  · obtain ⟨hexists, hholds⟩ := hread album
    have hreadable : Node.Readable album planOfTracks := by
      refine ⟨⟨nofun, ⟨nofun, trivial⟩, trivial⟩, ⟨fun _ ↦ ?_, trivial⟩, trivial⟩
      have hyields := Value.Yields.tuple
      exact ⟨[[.int 1, .int 301], [.int 1, .int 301], [.null, .null], [.int 1, .int 444],
        [.int 1, .int 555]], .of_list (.cons (hyields _) (.cons (hyields _) (.cons (hyields _)
          (.cons (hyields _) (.cons (hyields _) .nil))))), by decide⟩
    obtain ⟨v, hv⟩ := hexists hreadable
    obtain rfl : albumObject = v := Except.ok.inj hv
    exact ⟨hv, hholds _ hv⟩

end Columnar
