import Columnar.Proofs.Fetch.Entity

/-!
# Objects from rows

A flat row is rebuilt into the nested object that it was flattened from, with the objects that were
picked for it (`ofRow_row`). The columns of a level are found under its stem, tuples become objects
without loss, and a relation whose columns are all null becomes nothing.
-/

namespace Columnar

/-! ### Regular trees -/

/-- What is assumed of each relation of a tree. -/
structure Level.Regular (level : Level) (children : List Node) : Prop where
  keys : (level.table.keys ++ Node.names children).Nodup
  unlimited : FindOptions.counted level.options.limit = none
  fromStart : FindOptions.counted level.options.offset = none
  leaf : level.aggregated = true → level.kind = .many ∧ children = []

namespace Node

/-- Every relation of a tree is regular. -/
def Regular : List Node → Prop := All Level.Regular

/-- A tree is regular when its keys are apart, it is not paged and it aggregates leaves only. -/
theorem regular_of {nodes : List Node} (hk : KeysApart nodes) (hu : Unpaged nodes)
    (ha : AggregatesLeaves nodes) : Regular nodes := by
  induction nodes using forest_induction with
  | nil => exact trivial
  | cons level children rest ihChildren ihRest =>
    obtain ⟨⟨hk, hkChildren⟩, hkRest⟩ := hk
    obtain ⟨⟨⟨hl, ho⟩, huChildren⟩, huRest⟩ := hu
    obtain ⟨⟨ha, haChildren⟩, haRest⟩ := ha
    exact ⟨⟨⟨hk, hl, ho, ha⟩, ihChildren hkChildren huChildren haChildren⟩,
      ihRest hkRest huRest haRest⟩

/-- The keys of a regular tree are apart. -/
theorem Regular.keysApart {nodes : List Node} (h : Regular nodes) : KeysApart nodes :=
  h.imp fun _ _ hlevel ↦ hlevel.keys

end Node

/-! ### Cells -/

theorem Table.length_keys (t : Table) : t.keys.length = t.columns.length := by
  rw [keys, Keyed.keys, List.length_map]

/-- The keys of cells under the keys of a table. -/
theorem keys_zip {ks : List String} {cells : List Value} (h : cells.length = ks.length) :
    Keyed.keys (ks.zip cells) = ks := by
  rw [Keyed.keys, List.map_fst_zip (by omega)]

/-- The cells of a level are found in a row under the level's stem. -/
private theorem cells_named {stem : String} {t : Table} {cells : List Value}
    {entries : List (String × Value)} (hlen : cells.length = t.columns.length)
    (h : ∀ p ∈ (t.keys.map (stem ++ ·)).zip cells, Keyed.find? p.1 entries = some p.2) :
    Objects.cells stem t (Row.named entries) = Row.named (t.keys.zip cells) := by
  have hcolumns (columns : Columns) (cells : List Value) (hlen : cells.length = columns.length)
      (h : ∀ p ∈ ((Keyed.keys columns).map (stem ++ ·)).zip cells,
        Keyed.find? p.1 entries = some p.2) :
      columns.map (fun e ↦ (Value.text e.1, Value.get (stem ++ e.1) (Row.named entries))) =
        Row.named ((Keyed.keys columns).zip cells) := by
    induction columns generalizing cells with
    | nil => rfl
    | cons column columns ih =>
      cases cells with
      | nil => cases hlen
      | cons v cells =>
        have hv := h (stem ++ column.1, v) (List.mem_cons_self ..)
        have hrest := ih cells (by simpa using hlen) fun p hp ↦ h p (List.mem_cons_of_mem _ hp)
        rw [List.map_cons, hrest, Row.get_named, hv]
        rfl
  exact hcolumns t.columns cells hlen h

/-- A cell is found in an object under its key. -/
theorem find?_cells {ks : List String} {cells : List Value}
    {others : List (String × Value)} (hlen : cells.length = ks.length) (hn : ks.Nodup)
    {p : String × Value} (hp : p ∈ ks.zip cells) :
    Keyed.find? p.1 (ks.zip cells ++ others) = some p.2 := by
  rw [Keyed.find?_append, Keyed.find?_of_mem (by rw [keys_zip hlen]; exact hn) hp]
  rfl

/-- An object is absent when all of its cells are null. -/
private theorem isAbsent_named {t : Table} {cells : List Value} {others : List (String × Value)}
    (hlen : cells.length = t.columns.length) (hn : t.keys.Nodup) :
    Objects.isAbsent t (Row.named (t.keys.zip cells ++ others)) = cells.all Value.isNull := by
  have hlen' : cells.length = t.keys.length := by rw [hlen, t.length_keys]
  have hfst : (t.keys.zip cells).map Prod.fst = t.keys := keys_zip hlen'
  have hsnd : (t.keys.zip cells).map Prod.snd = cells := List.map_snd_zip (by omega)
  have heach : ∀ p ∈ t.keys.zip cells,
      (Value.get p.1 (Row.named (t.keys.zip cells ++ others))).isNull = p.2.isNull := by
    intro p hp
    rw [Row.get_named, find?_cells hlen' hn hp]
    rfl
  calc Objects.isAbsent t (Row.named (t.keys.zip cells ++ others))
      = ((t.keys.zip cells).map Prod.fst).all fun key ↦
          (Value.get key (Row.named (t.keys.zip cells ++ others))).isNull := by rw [hfst]; rfl
    _ = ((t.keys.zip cells).map Prod.snd).all Value.isNull := by
        rw [List.all_map, List.all_map, Bool.eq_iff_iff, List.all_eq_true, List.all_eq_true]
        exact forall₂_congr fun p hp ↦ by rw [Function.comp, heach p hp]; rfl
    _ = cells.all Value.isNull := by rw [hsnd]

/-! ### Comparing cells -/

/-- Sequences are equal when their items are, one by one. -/
theorem Value.equalsAll_iff {xs ys : List Value} :
    Value.equalsAll xs ys = true ↔ List.Forall₂ (fun x y ↦ x.equals y = true) xs ys := by
  induction xs generalizing ys with
  | nil => cases ys <;> simp [Value.equalsAll]
  | cons x xs ih =>
    cases ys with
    | nil => simp [Value.equalsAll]
    | cons y ys => rw [Value.equalsAll, Bool.and_eq_true, List.forall₂_cons, ih]

/-- What is equal under equal keys is equal cell by cell. -/
private theorem equalsAll_of_zip {ks : List String} {xs ys : List Value} (hn : ks.Nodup)
    (hx : xs.length = ks.length) (hy : ys.length = ks.length)
    (h : ∀ p ∈ ks.zip xs, ∃ q ∈ ks.zip ys, p.1 = q.1 ∧ p.2.equals q.2 = true) :
    Value.equalsAll xs ys = true := by
  induction ks generalizing xs ys with
  | nil =>
    obtain rfl := List.length_eq_zero_iff.mp hx
    obtain rfl := List.length_eq_zero_iff.mp hy
    rfl
  | cons k ks ih =>
    rcases xs with _ | ⟨x, xs⟩
    · cases hx
    · rcases ys with _ | ⟨y, ys⟩
      · cases hy
      · obtain ⟨hnot, hn⟩ := List.nodup_cons.mp hn
        have hkey {q : String × Value} (hq : q ∈ ks.zip ys) : q.1 ≠ k := by
          intro hk
          exact hnot (hk ▸ (List.of_mem_zip hq).1)
        rw [Value.equalsAll, Bool.and_eq_true]
        constructor
        · obtain ⟨q, hq, hk, hequal⟩ := h (k, x) (by simp)
          rcases List.mem_cons.mp hq with rfl | hq
          · exact hequal
          · exact absurd hk.symm (hkey hq)
        · refine ih hn (by simpa using hx) (by simpa using hy) fun p hp ↦ ?_
          obtain ⟨q, hq, hk, hequal⟩ := h p (by simp [hp])
          rcases List.mem_cons.mp hq with rfl | hq
          · have hk : p.1 = k := hk
            exact absurd (hk ▸ (List.of_mem_zip hp).1) hnot
          · exact ⟨q, hq, hk, hequal⟩

/-- Objects that are equal agree in their own columns, and hold equal values under each name of a
relation. -/
theorem equals_named {ks : List String} {xs ys : List Value} {rs ss : List (String × Value)}
    (hn : (ks ++ Keyed.keys ss).Nodup) (hkeys : Keyed.keys rs = Keyed.keys ss)
    (hx : xs.length = ks.length) (hy : ys.length = ks.length)
    (h : (Value.map (Row.named (ks.zip xs ++ rs))).equals
      (.map (Row.named (ks.zip ys ++ ss))) = true) :
    Value.equalsAll xs ys = true ∧ ∀ r ∈ rs, ∃ s ∈ ss, r.1 = s.1 ∧ r.2.equals s.2 = true := by
  rw [Value.equals, Bool.and_eq_true] at h
  obtain ⟨hks, -, hapart⟩ := List.nodup_append.mp hn
  constructor
  · refine equalsAll_of_zip hks hx hy fun p hp ↦ ?_
    obtain ⟨q, hq, hk, hequal⟩ := Row.mem_of_isPartOf_named h.2 (List.mem_append_left rs hp)
    rcases List.mem_append.mp hq with hq | hq
    · exact ⟨q, hq, hk, hequal⟩
    · exact absurd hk (hapart p.1 (List.of_mem_zip hp).1 q.1 (List.mem_map.mpr ⟨q, hq, rfl⟩))
  · intro r hr
    obtain ⟨q, hq, hk, hequal⟩ := Row.mem_of_isPartOf_named h.2 (List.mem_append_right _ hr)
    rcases List.mem_append.mp hq with hq | hq
    · have hmem : r.1 ∈ Keyed.keys ss := hkeys ▸ List.mem_map.mpr ⟨r, hr, rfl⟩
      exact absurd hk.symm (hapart q.1 (List.of_mem_zip hq).1 r.1 hmem)
    · exact ⟨q, hq, hk, hequal⟩

/-! ### Tuples -/

section Tuples

variable {S : Value → Prop} {t : Table}

private theorem same_of_cells (hS : Value.Comparable S) (hn : t.keys.Nodup) {a b : Entity}
    (ha : a.HasCells S t) (hb : b.HasCells S t)
    (hab : Value.equalsAll a.cells b.cells = false) :
    (Value.map (Row.named (t.keys.zip a.cells))).same (.map (Row.named (t.keys.zip b.cells))) =
      .ok false := by
  have hquiet : (Value.map (Row.named (t.keys.zip a.cells))).signals
      (.map (Row.named (t.keys.zip b.cells))) = false := by
    rw [Value.signals, Row.signalsIn_named, Bool.and_false]
    intro x hx y hy _
    exact hS.quiet _ _ (ha.2 _ (List.of_mem_zip hx).2) (hb.2 _ (List.of_mem_zip hy).2)
  have hequals : (Value.map (Row.named (t.keys.zip a.cells))).equals
      (.map (Row.named (t.keys.zip b.cells))) = false := by
    rw [Bool.eq_false_iff]
    intro h
    have hlen {e : Entity} (he : e.HasCells S t) : e.cells.length = t.keys.length := by
      rw [he.1, t.length_keys]
    have hkeys : (t.keys ++ Keyed.keys ([] : List (String × Value))).Nodup := by
      rw [Keyed.keys, List.map_nil, List.append_nil]
      exact hn
    have h' : (Value.map (Row.named (t.keys.zip a.cells ++ []))).equals
        (.map (Row.named (t.keys.zip b.cells ++ []))) = true := by
      rw [List.append_nil, List.append_nil]
      exact h
    have hcells := (equals_named hkeys rfl (hlen ha) (hlen hb) h').1
    rw [hab] at hcells
    cases hcells
  rw [Value.same, hquiet, hequals]
  rfl

private theorem anyM_eq_false {found : List Row} {object : Row}
    (h : ∀ other ∈ found, (Value.map other).same (.map object) = .ok false) :
    found.anyM (m := Except Failure) (fun other ↦ (Value.map other).same (.map object)) =
      .ok false := by
  induction found with
  | nil => rfl
  | cons other found ih =>
    rw [List.anyM, h other (by simp)]
    exact ih fun other' hother ↦ h other' (by simp [hother])

private theorem addTuple_tuple (keys : List String) (found : List Row) (cells : List Value) :
    Objects.addTuple keys found (.tuple cells) =
      if (Row.named (keys.zip cells)).all (fun e ↦ e.2.isNull) then .ok found
      else (found.anyM fun other ↦ (Value.map other).same (.map (Row.named (keys.zip cells)))).bind
        fun old ↦ if old then .ok found else .ok (found ++ [Row.named (keys.zip cells)]) := rfl

/-- Objects that differ in their columns, and of which none has nulls only, come out of their
tuples as they went in. -/
private theorem foldlM_addTuple (hS : Value.Comparable S) (hn : t.keys.Nodup)
    (before : List Entity) {es : List Entity}
    (hpair : (before ++ es).Pairwise fun a b ↦ Value.equalsAll a.cells b.cells = false)
    (hcells : ∀ e ∈ before ++ es, e.HasCells S t)
    (hnull : ∀ e ∈ es, ∃ v ∈ e.cells, v.isNull = false) :
    (es.map fun e ↦ Value.tuple e.cells).foldlM (Objects.addTuple t.keys)
        (before.map fun e ↦ Row.named (t.keys.zip e.cells)) =
      .ok ((before ++ es).map fun e ↦ Row.named (t.keys.zip e.cells)) := by
  induction es generalizing before with
  | nil =>
    rw [List.append_nil]
    rfl
  | cons e es ih =>
    have hstep : Objects.addTuple t.keys (before.map fun e ↦ Row.named (t.keys.zip e.cells))
        (.tuple e.cells) =
        .ok ((before ++ [e]).map fun e ↦ Row.named (t.keys.zip e.cells)) := by
      have hsome : (Row.named (t.keys.zip e.cells)).all (fun entry ↦ entry.2.isNull) = false := by
        obtain ⟨v, hv, hnot⟩ := hnull e (by simp)
        have hlen : e.cells.length = t.keys.length := by
          rw [(hcells e (by simp)).1, t.length_keys]
        have hsnd : (t.keys.zip e.cells).map Prod.snd = e.cells := List.map_snd_zip (by omega)
        obtain ⟨p, hp, rfl⟩ := List.mem_map.mp (hsnd ▸ hv)
        rw [List.all_eq_false]
        refine ⟨(.text p.1, p.2), List.mem_map.mpr ⟨p, hp, rfl⟩, ?_⟩
        rw [hnot]
        exact Bool.false_ne_true
      have hnew : (before.map fun e ↦ Row.named (t.keys.zip e.cells)).anyM
          (m := Except Failure) (fun other ↦ (Value.map other).same
            (.map (Row.named (t.keys.zip e.cells)))) = .ok false := by
        refine anyM_eq_false fun other hother ↦ ?_
        obtain ⟨a, ha, rfl⟩ := List.mem_map.mp hother
        have hdiffer := (List.pairwise_append.mp hpair).2.2 a ha e (by simp)
        exact same_of_cells hS hn (hcells a (by simp [ha])) (hcells e (by simp)) hdiffer
      rw [addTuple_tuple, hsome, if_neg Bool.false_ne_true, hnew, List.map_append]
      rfl
    rw [List.map_cons, List.foldlM_cons, hstep]
    have hrest := ih (before ++ [e]) (by simpa using hpair) (by simpa using hcells)
      fun e' he' ↦ hnull e' (by simp [he'])
    rw [List.append_assoc, List.singleton_append] at hrest
    exact hrest

/-- An aggregated relation that is not paged keeps all objects, in order. -/
private theorem ofTuples_tuples (hS : Value.Comparable S) {level : Level}
    (hn : level.table.keys.Nodup)
    (hl : FindOptions.counted level.options.limit = none)
    (ho : FindOptions.counted level.options.offset = none) {es : List Entity}
    (hpair : es.Pairwise fun a b ↦ Value.equalsAll a.cells b.cells = false)
    (hcells : ∀ e ∈ es, e.HasCells S level.table)
    (hnull : ∀ e ∈ es, ∃ v ∈ e.cells, v.isNull = false) :
    Objects.ofTuples level (.list (es.map fun e ↦ .tuple e.cells)) =
      .ok (.list (es.map fun e ↦ .map (Row.named (level.table.keys.zip e.cells)))) := by
  have hfound := foldlM_addTuple hS hn [] hpair hcells hnull
  have hpage (found : List Row) : level.options.page found = found := by
    rw [FindOptions.page, hl, ho]
  rw [List.map_nil, List.nil_append] at hfound
  simp only [Objects.ofTuples, Value.itemsIfAny_list, bind, Except.bind, hfound, hpage,
    List.map_map]
  rfl

end Tuples

/-! ### Rows -/

namespace Node

mutual

/-- At most one object is picked of a relation, unless it is aggregated, and so below. -/
def Single : Node → List Entity → Prop
  | .mk level children, es =>
    level.aggregated = false → es.length ≤ 1 ∧ ∀ e ∈ es, AllSingle children e.related

/-- At most one object is picked of each relation that is not aggregated. -/
def AllSingle : List Node → List (List Entity) → Prop
  | n :: rest, es :: others => n.Single es ∧ AllSingle rest others
  | _, _ => True

end

variable {S : Value → Prop}

/-- Nothing related fits any tree. -/
theorem allFit_nothing (nodes : List Node) : AllFit S nodes (nodes.map fun _ ↦ []) := by
  induction nodes with
  | nil => exact trivial
  | cons n rest ih =>
    obtain ⟨level, children⟩ := n
    exact ⟨⟨fun _ ↦ Nat.zero_le 1, .nil, fun e he ↦ nomatch he⟩, ih⟩

/-- Nothing related is picked at most once. -/
theorem allSingle_nothing (nodes : List Node) : AllSingle nodes (nodes.map fun _ ↦ []) := by
  induction nodes with
  | nil => exact trivial
  | cons n rest ih =>
    obtain ⟨level, children⟩ := n
    exact ⟨fun _ ↦ ⟨Nat.zero_le 1, fun e he ↦ nomatch he⟩, ih⟩

/-- What a row holds of a relation is attached under the relation's name. -/
private theorem related_of_single {level : Level} (children : List Node) {es : List Entity}
    (hlen : es.length ≤ 1) (hn : level.table.keys.Nodup)
    (hfit : ∀ e ∈ es, e.HasCells S level.table ∧ (∃ v ∈ e.cells, v.isNull = false)) :
    let e := es.headD (.absent level.table children)
    Objects.related level (Row.named (level.table.keys.zip e.cells ++
      relations children e.related)) = held (.mk level children) es := by
  rcases es with _ | ⟨e, _ | ⟨e', es⟩⟩
  · have hnull : Objects.isAbsent level.table (Row.named (level.table.keys.zip
        (Entity.absent level.table children).cells ++
        relations children (Entity.absent level.table children).related)) = true := by
      have hlength : (Entity.absent level.table children).cells.length =
          level.table.columns.length := List.length_map _
      rw [isAbsent_named hlength hn, List.all_eq_true]
      intro v hv
      obtain ⟨_, -, rfl⟩ := List.mem_map.mp hv
      rfl
    simp only [List.headD_nil, Objects.related, hnull, held, List.map_nil, Level.value]
    cases level.kind <;> rfl
  · obtain ⟨hcells, v, hv, hnot⟩ := hfit e (by simp)
    have hsome : Objects.isAbsent level.table (Row.named (level.table.keys.zip e.cells ++
        relations children e.related)) = false := by
      rw [isAbsent_named hcells.1 hn, List.all_eq_false]
      exact ⟨v, hv, by rw [hnot]; exact Bool.false_ne_true⟩
    simp only [List.headD_cons, Objects.related, hsome, held, List.map_cons, List.map_nil,
      Level.value]
    cases level.kind <;> rfl
  · simp only [List.length_cons] at hlen
    omega

/-- The object that stands for what is picked of a relation. -/
private theorem headD_fits {t : Table} (children : List Node) {es : List Entity}
    (hes : ∀ e ∈ es, e.HasCells S t ∧ AllFit S children e.related)
    (hsingle : ∀ e ∈ es, AllSingle children e.related) :
    let e := es.headD (.absent t children)
    e.cells.length = t.columns.length ∧ AllFit S children e.related ∧
      AllSingle children e.related := by
  cases es with
  | nil => exact ⟨List.length_map _, allFit_nothing children, allSingle_nothing children⟩
  | cons e es =>
    obtain ⟨hcells, hfit⟩ := hes e (by simp)
    exact ⟨hcells.1, hfit, hsingle e (by simp)⟩

/-- What a row holds of relations is attached under their names. -/
theorem attachAll_named (hS : Value.Comparable S) {entries : List (String × Value)}
    {nodes : List Node} {picked : List (List Entity)} (before : List (String × Value))
    (hregular : Regular nodes) (hfit : AllFit S nodes picked) (hsingle : AllSingle nodes picked)
    (hnames : (Keyed.keys before ++ names nodes).Nodup)
    (hfound : ∀ p ∈ flat nodes picked, Keyed.find? p.1 entries = some p.2) :
    Objects.attachAll (Row.named entries) nodes (Row.named before) =
      .ok (Row.named (before ++ relations nodes picked)) := by
  induction nodes using forest_induction generalizing picked before with
  | nil =>
    cases picked with
    | nil => rw [Objects.attachAll, relations, List.append_nil]; exact fun _ _ _ _ h ↦ nomatch h
    | cons es others => exact hfit.elim
  | cons level children rest ihChildren ihRest =>
    rcases picked with _ | ⟨es, others⟩
    · exact hfit.elim
    · obtain ⟨⟨hr, hrChildren⟩, hrRest⟩ := hregular
      obtain ⟨⟨-, hpair, hes⟩, hfitRest⟩ := hfit
      obtain ⟨hsingle, hsingleRest⟩ := hsingle
      have hkeys : level.table.keys.Nodup := (List.nodup_append.mp hr.keys).1
      have hset := Row.setEntry_new (name_notMem_keys hnames)
      have hattach : Objects.attach (Row.named entries) (.mk level children) (Row.named before) =
          .ok (Row.named (before ++ [(level.name, held (.mk level children) es)])) := by
        have hhere : ∀ p ∈ flatOf (.mk level children) es, Keyed.find? p.1 entries = some p.2 :=
          fun p hp ↦ hfound p (List.mem_append_left _ hp)
        rw [flatOf] at hhere
        rw [Objects.attach]
        by_cases hagg : level.aggregated = true
        · obtain ⟨hmany, rfl⟩ := hr.leaf hagg
          rw [if_pos hagg] at hhere ⊢
          rw [Row.get_named, hhere _ (List.mem_singleton_self _), Option.getD_some,
            ofTuples_tuples hS hkeys hr.unlimited hr.fromStart hpair (fun e he ↦ (hes e he).1)
              fun e he ↦ (hes e he).2.1]
          change Except.ok _ = _
          rw [hset, held, Level.value, hmany]
          simp only [relations, List.append_nil]
        · rw [if_neg hagg] at hhere ⊢
          obtain ⟨hlen, hsingleBelow⟩ := hsingle (Bool.eq_false_iff.mpr hagg)
          have hrelated := related_of_single children hlen hkeys
            fun e he ↦ ⟨(hes e he).1, (hes e he).2.1⟩
          obtain ⟨hlength, hfitBelow, hsingleBelow⟩ := headD_fits (t := level.table)
            children (fun e he ↦ ⟨(hes e he).1, (hes e he).2.2⟩) hsingleBelow
          generalize es.headD (.absent level.table children) = e at *
          have hkeys := keys_zip (by rw [hlength, level.table.length_keys])
          have hbelow := ihChildren (level.table.keys.zip e.cells) hrChildren hfitBelow
            hsingleBelow (by rw [hkeys]; exact hr.keys)
            fun p hp ↦ hhere p (List.mem_append_right _ hp)
          rw [cells_named hlength fun p hp ↦ hhere p (List.mem_append_left _ hp), hbelow]
          change Except.ok _ = _
          rw [hrelated, hset]
      have hrest := ihRest (before ++ [(level.name, held (.mk level children) es)])
        hrRest hfitRest hsingleRest
        (nodup_keys_snoc _ hnames) fun p hp ↦ hfound p (List.mem_append_right _ hp)
      rw [Objects.attachAll, hattach]
      rw [List.append_assoc] at hrest
      exact hrest

/-- A flat row has a cell under each of its names. -/
theorem keys_flat {nodes : List Node} {picked : List (List Entity)} (hfit : AllFit S nodes picked)
    (hsingle : AllSingle nodes picked) : Keyed.keys (flat nodes picked) = flatNames nodes := by
  induction nodes using forest_induction generalizing picked with
  | nil =>
    cases picked with
    | nil => rfl
    | cons es others => exact hfit.elim
  | cons level children rest ihChildren ihRest =>
    rcases picked with _ | ⟨es, others⟩
    · exact hfit.elim
    · obtain ⟨⟨-, -, hes⟩, hfitRest⟩ := hfit
      obtain ⟨hsingle, hsingleRest⟩ := hsingle
      have hhere : Keyed.keys (flatOf (.mk level children) es) =
          flatNamesOf (.mk level children) := by
        rw [flatOf, flatNamesOf]
        by_cases hagg : level.aggregated = true
        · rw [if_pos hagg, if_pos hagg]
          rfl
        · rw [if_neg hagg, if_neg hagg]
          obtain ⟨hlength, hfitBelow, hsingleBelow⟩ := headD_fits (t := level.table)
            children (fun e he ↦ ⟨(hes e he).1, (hes e he).2.2⟩)
            (hsingle (Bool.eq_false_iff.mpr hagg)).2
          generalize es.headD (.absent level.table children) = e at *
          have hzip : Keyed.keys ((level.table.keys.map (level.stem ++ ·)).zip e.cells) =
              level.table.keys.map (level.stem ++ ·) :=
            keys_zip (by rw [hlength, List.length_map, level.table.length_keys])
          rw [Keyed.keys, List.map_append]
          exact congrArg₂ (· ++ ·) hzip (ihChildren hfitBelow hsingleBelow)
      rw [flat, flatNames, ← hhere, ← ihRest hfitRest hsingleRest]
      exact List.map_append

/-- What is picked of related objects that fit fits too, and is at most one of each relation that is
not aggregated. -/
theorem fit_of_mem_picks {nodes : List Node} {related picked : List (List Entity)}
    (hfit : AllFit S nodes related) (h : picked ∈ picks nodes related) :
    AllFit S nodes picked ∧ AllSingle nodes picked := by
  induction nodes using forest_induction generalizing related picked with
  | nil =>
    cases related with
    | nil =>
      obtain rfl := List.mem_singleton.mp h
      exact ⟨trivial, trivial⟩
    | cons es others => exact hfit.elim
  | cons level children rest ihChildren ihRest =>
    rcases related with _ | ⟨es, others⟩
    · exact hfit.elim
    · obtain ⟨⟨hone, hpair, hes⟩, hfitRest⟩ := hfit
      obtain ⟨here, hhere, h⟩ := List.mem_flatMap.mp h
      obtain ⟨rest', hrest, rfl⟩ := List.mem_map.mp h
      obtain ⟨hfitRest', hsingleRest⟩ := ihRest hfitRest hrest
      rw [picksOf] at hhere
      by_cases hagg : level.aggregated = true
      · rw [if_pos hagg] at hhere
        obtain rfl := List.mem_singleton.mp hhere
        refine ⟨⟨⟨hone, hpair, hes⟩, hfitRest'⟩, ⟨fun hnot ↦ ?_, hsingleRest⟩⟩
        rw [hagg] at hnot
        cases hnot
      · rw [if_neg hagg] at hhere
        have hsplit : here = [] ∨ ∃ e ∈ es, ∃ r ∈ picks children e.related,
            here = [.mk e.cells r] := by
          split at hhere
          · exact .inl (List.mem_singleton.mp hhere)
          · obtain ⟨e, he, hhere⟩ := List.mem_flatMap.mp hhere
            obtain ⟨r, hr, rfl⟩ := List.mem_map.mp hhere
            exact .inr ⟨e, he, r, hr, rfl⟩
        rcases hsplit with rfl | ⟨e, he, r, hr, rfl⟩
        · exact ⟨⟨⟨fun _ ↦ Nat.zero_le 1, .nil, fun e he ↦ nomatch he⟩, hfitRest'⟩,
            fun _ ↦ ⟨Nat.zero_le 1, fun e he ↦ nomatch he⟩, hsingleRest⟩
        · obtain ⟨hcells, hnull, hfitBelow⟩ := hes e he
          obtain ⟨hfitBelow, hsingleBelow⟩ := ihChildren hfitBelow hr
          refine ⟨⟨⟨fun _ ↦ Nat.le_refl 1, List.pairwise_singleton _ _, ?_⟩, hfitRest'⟩, ?_,
            hsingleRest⟩
          · intro e' he'
            obtain rfl := List.mem_singleton.mp he'
            exact ⟨hcells, hnull, hfitBelow⟩
          · refine fun _ ↦ ⟨Nat.le_refl 1, fun e' he' ↦ ?_⟩
            obtain rfl := List.mem_singleton.mp he'
            exact hsingleBelow

end Node

/-- A flat row is rebuilt into the object with what was picked for it. -/
theorem Objects.ofRow_row {S : Value → Prop} (hS : Value.Comparable S) {t : Table}
    {nodes : List Node} {e : Entity} {picked : List (List Entity)} (hregular : Node.Regular nodes)
    (hkeys : (t.keys ++ Node.names nodes).Nodup) (hflat : (t.keys ++ Node.flatNames nodes).Nodup)
    (hcells : e.HasCells S t) (hfit : Node.AllFit S nodes picked)
    (hsingle : Node.AllSingle nodes picked) :
    ofRow t nodes (e.row t nodes picked) = .ok (Entity.object t nodes (.mk e.cells picked)) := by
  have hzip : Keyed.keys (t.keys.zip e.cells) = t.keys :=
    keys_zip (by rw [hcells.1, t.length_keys])
  have hnodup : (Keyed.keys (t.keys.zip e.cells ++ Node.flat nodes picked)).Nodup := by
    rw [Keyed.keys, List.map_append]
    change (Keyed.keys _ ++ Keyed.keys _).Nodup
    rw [hzip, Node.keys_flat hfit hsingle]
    exact hflat
  have hown : cells "" t (e.row t nodes picked) = Row.named (t.keys.zip e.cells) := by
    refine cells_named hcells.1 fun p hp ↦ ?_
    have hstem : t.keys.map ("" ++ ·) = t.keys := by simp
    rw [hstem] at hp
    exact Keyed.find?_of_mem hnodup (List.mem_append_left _ hp)
  have hattach := Node.attachAll_named hS (t.keys.zip e.cells) hregular hfit hsingle
    (by rw [hzip]; exact hkeys) fun p hp ↦ Keyed.find?_of_mem hnodup (List.mem_append_right _ hp)
  rw [ofRow, hown]
  change (attachAll (Row.named _) nodes _).bind _ = _
  rw [hattach]
  rfl

end Columnar
