import Columnar.Proofs.Fetch.Format
import Columnar.Proofs.Fetch.Limits
import Columnar.Proofs.Fetch.Union

/-!
# Objects from rows within limits

A flat row is rebuilt into an object with limits and without: what it is rebuilt into with limits is
what it is rebuilt into without them, cut (`Objects.exists_ofRow_cut`). As values, objects are cut
as the entities they stand for are (`Entity.cutObject_object`).
-/

namespace Columnar

variable {S : Value → Prop}

/-! ### Flat rows -/

/-- The cells that a flat row has of relations can be compared: those of a level under its stem, and
where it is aggregated those of its tuples, with a cell for each column. -/
def Node.HaveCells (S : Value → Prop) (row : Row) : List Node → Prop :=
  All fun level _ ↦
    if level.aggregated then
      ∃ tuples, (Value.get level.name row).HoldsTuples tuples ∧ ∀ cells ∈ tuples,
        level.table.columns.length ≤ cells.length ∧ ∀ v ∈ cells, S v
    else ∀ key ∈ level.table.keys, S (Value.get (level.stem ++ key) row)

/-- A flat row of a table with relations: its cells can be compared, and there is one for each
column. -/
structure Row.Flat (S : Value → Prop) (t : Table) (nodes : List Node) (row : Row) : Prop where
  own : ∀ key ∈ t.keys, S (Value.get key row)
  related : Node.HaveCells S row nodes

/-! ### Tuples -/

private theorem exists_of_zip {ks : List String} {xs ys : List Value}
    (h : List.Forall₂ (fun x y ↦ x.equals y = true) xs ys) :
    ∀ p ∈ ks.zip xs, ∃ q ∈ ks.zip ys, p.1 = q.1 ∧ p.2.equals q.2 = true := by
  induction h generalizing ks with
  | nil => simp
  | cons hequal _ ih =>
    cases ks with
    | nil => simp
    | cons k ks =>
      refine List.forall_mem_cons.mpr ⟨⟨_, List.mem_cons_self, rfl, hequal⟩, fun p hp ↦ ?_⟩
      obtain ⟨q, hq, hsame⟩ := ih p hp
      exact ⟨q, List.mem_cons_of_mem _ hq, hsame⟩

/-- Cells that are equal make equal objects. -/
theorem equals_of_cells {ks : List String} {xs ys : List Value}
    (h : Value.equalsAll xs ys = true) :
    (Value.map (Row.named (ks.zip xs))).equals (.map (Row.named (ks.zip ys))) = true := by
  have hitems := Value.equalsAll_iff.mp h
  rw [Value.equals, Row.isPartOf_named (exists_of_zip hitems), Bool.and_true, beq_iff_eq,
    Row.named, Row.named, List.length_map, List.length_map, List.length_zip, List.length_zip,
    hitems.length_eq]

/-- The object with the cells of a tuple. -/
private def ofCells (t : Table) (cells : List Value) : Entity := .mk (cells.take t.keys.length) []

theorem object_leaf (t : Table) (cells : List Value) :
    (Entity.mk cells []).object t [] = .map (Row.named (t.keys.zip cells)) :=
  congrArg (fun entries ↦ Value.map (Row.named entries)) (List.append_nil _)

theorem zip_take {t : Table} {cells : List Value}
    (hlength : t.columns.length ≤ cells.length) :
    t.keys.zip (cells.take t.keys.length) = t.keys.zip cells := by
  have hmin : min t.keys.length cells.length = t.keys.length :=
    Nat.min_eq_left (by rw [t.length_keys]; exact hlength)
  have hzip := @List.zip_eq_zip_take_min _ _ t.keys cells
  rw [hmin, List.take_length] at hzip
  exact hzip.symm

private theorem object_ofCells {t : Table} {cells : List Value}
    (hlength : t.columns.length ≤ cells.length) :
    (ofCells t cells).object t [] = Value.map (Row.named (t.keys.zip cells)) := by
  rw [ofCells, object_leaf, zip_take hlength]

/-- The objects that are found in tuples stand for entities that fit. -/
private theorem exists_fit_of_gathered {level : Level} (hmany : level.kind = .many)
    {tuples : List (List Value)} {found : List Row}
    (h : Objects.Gathered level.table.keys tuples found)
    (hcells : ∀ cells ∈ tuples, level.table.columns.length ≤ cells.length ∧ ∀ v ∈ cells, S v) :
    ∃ es : List Entity, found.map Value.map = es.map (Entity.object level.table []) ∧
      (∀ e ∈ es, e.related = []) ∧ Node.Fits S (.mk level []) es := by
  obtain ⟨kept, hkept, rfl⟩ := List.sublist_map_iff.mp h.sublist
  have hmem : ∀ cells ∈ kept, level.table.columns.length ≤ cells.length ∧ ∀ v ∈ cells, S v :=
    fun cells hcell ↦ hcells cells (hkept.subset hcell)
  refine ⟨kept.map (ofCells level.table), ?_, ?_, fun hone ↦ ?_, ?_, ?_⟩
  · rw [List.map_map, List.map_map]
    exact List.map_congr_left fun cells hcell ↦ (object_ofCells (hmem cells hcell).1).symm
  · exact List.forall_mem_map.mpr fun _ _ ↦ rfl
  · rw [hmany] at hone
    cases hone
  · refine List.pairwise_map.mpr
      ((List.pairwise_map.mp h.distinct).imp_of_mem fun {a b} ha hb hdiffer ↦ ?_)
    rw [← object_ofCells (hmem a ha).1, ← object_ofCells (hmem b hb).1, ofCells, ofCells,
      object_leaf, object_leaf] at hdiffer
    rw [Bool.eq_false_iff] at hdiffer ⊢
    exact fun hequal ↦ hdiffer (equals_of_cells hequal)
  · refine List.forall_mem_map.mpr fun cells hcell ↦ ?_
    obtain ⟨hlength, hS⟩ := hmem cells hcell
    obtain ⟨e, he, hnull⟩ := h.present _ (List.mem_map.mpr ⟨cells, hcell, rfl⟩)
    obtain ⟨p, hp, rfl⟩ := List.mem_map.mp he
    rw [← zip_take hlength] at hp
    refine ⟨⟨?_, fun v hv ↦ hS v (List.mem_of_mem_take hv)⟩, ?_, trivial⟩
    · change (cells.take level.table.keys.length).length = _
      rw [List.length_take, level.table.length_keys, Nat.min_eq_left hlength]
    · exact ⟨p.2, (List.of_mem_zip hp).2, hnull⟩

/-- Tuples are rebuilt into entities that fit, of which a relation keeps the first ones. -/
private theorem exists_ofTuples_cut (hS : Value.Comparable S) {level : Level}
    (hmany : level.kind = .many) (hstart : FindOptions.counted level.options.offset = none)
    (hlimit : level.Leaves) {raw : Value} {tuples : List (List Value)}
    (hraw : raw.HoldsTuples tuples)
    (hcells : ∀ cells ∈ tuples, level.table.columns.length ≤ cells.length ∧ ∀ v ∈ cells, S v) :
    ∃ es : List Entity, Node.Fits S (.mk level []) es ∧
      Objects.ofTuples level.unlimited raw = .ok (Node.held (.mk level []) es) ∧
      Objects.ofTuples level raw = .ok (Node.held (.mk level []) (Node.cut (.mk level []) es)) := by
  obtain ⟨items, hitems, htuples⟩ := Value.holdsTuples_iff.mp hraw
  have hquiet : (([] ++ tuples).map fun cells ↦
      Row.named (level.table.keys.zip cells)).Pairwise fun a b ↦
        (Value.map a).signals (.map b) = false := by
    refine List.pairwise_of_forall_mem_list fun a ha b hb ↦ ?_
    obtain ⟨xs, hxs, rfl⟩ := List.mem_map.mp ha
    obtain ⟨ys, hys, rfl⟩ := List.mem_map.mp hb
    rw [Value.signals, Row.signalsIn_named, Bool.and_false]
    intro x hx y hy _
    exact hS.quiet _ _ ((hcells xs hxs).2 _ (List.of_mem_zip hx).2)
      ((hcells ys hys).2 _ (List.of_mem_zip hy).2)
  obtain ⟨found, hfold⟩ := Objects.exists_foldlM Objects.gathered_nil htuples hquiet
  obtain ⟨tuples', htuples', hgathered⟩ :=
    Objects.gathered_of_foldlM Objects.gathered_nil hfold
  obtain rfl : tuples' = tuples :=
    Relator.RightUnique.forall₂ (fun _ _ _ h h' ↦ Except.ok.inj (h.symm.trans h')) htuples' htuples
  obtain ⟨es, hfound, hleaves, hfit⟩ := exists_fit_of_gathered hmany hgathered hcells
  have hread (level' : Level) (htable : level'.table = level.table) :
      Objects.ofTuples level' raw = .ok (.list ((level'.options.page found).map .map)) := by
    rw [Objects.ofTuples, hitems, htable]
    simp only [bind, Except.bind, hfold]
    rfl
  have hunlimited : level.unlimited.kind = .many := hmany
  refine ⟨es, hfit, ?_, ?_⟩
  · rw [hread level.unlimited rfl, level.leaves_unlimited.counts.page_eq_kept hunlimited hstart,
      Level.kept_unlimited, hfound, Node.held_many hmany]
  · have hcut : (level.kept es).map (Entity.cut []) = level.kept es := by
      refine (List.map_congr_left fun e he ↦ ?_).trans (List.map_id _)
      exact Node.cut_leaf (hleaves e ((level.kept_sublist es).subset he))
    rw [hread level rfl, hlimit.counts.page_eq_kept hmany hstart, ← Level.kept_map, hfound,
      Level.kept_map, Node.held_many hmany, Node.cut_mk, hcut]

/-! ### Rows -/

theorem hasCells_cellsIn {t : Table} {stem : String} {row : Row}
    (h : ∀ key ∈ t.keys, S (Value.get (stem ++ key) row)) (related : List (List Entity)) :
    (Entity.mk ((t.cellsIn stem row).map Prod.snd) related).HasCells S t :=
  ⟨(List.length_map _).trans ((List.length_map _).trans t.length_keys),
    List.forall_mem_map.mpr (List.forall_mem_map.mpr h)⟩

namespace Node

/-- No relation begins behind its first row. -/
def FromStart : List Node → Prop :=
  All fun level _ ↦ FindOptions.counted level.options.offset = none

variable {nodes : List Node} {row : Row}

/-- The object that a row holds of a relation, with others related to it: none where its cells are
all null. -/
def ofRow (level : Level) (row : Row) (related : List (List Entity)) : List Entity :=
  if (level.table.cellsIn level.stem row).all fun e ↦ e.2.isNull then []
  else [.mk ((level.table.cellsIn level.stem row).map Prod.snd) related]

private theorem length_ofRow_le (level : Level) (row : Row) (related : List (List Entity)) :
    (ofRow level row related).length ≤ 1 := by
  unfold ofRow
  split <;> simp

private theorem mem_ofRow {level : Level} {row : Row} {related : List (List Entity)} {e : Entity}
    (h : e ∈ ofRow level row related) :
    e = .mk ((level.table.cellsIn level.stem row).map Prod.snd) related ∧
      ∃ v ∈ e.cells, v.isNull = false := by
  unfold ofRow at h
  split at h
  · cases h
  · next hsome =>
    obtain rfl := List.mem_singleton.mp h
    obtain ⟨p, hp, hnull⟩ := List.all_eq_false.mp (Bool.eq_false_iff.mpr hsome)
    exact ⟨rfl, p.2, List.mem_map_of_mem hp, Bool.eq_false_iff.mpr hnull⟩

private theorem cut_ofRow {level : Level} (hlimit : level.Leaves) (children : List Node) (row : Row)
    (related : List (List Entity)) : cut (.mk level children) (ofRow level row related) =
      ofRow level row (cutAll children related) := by
  rw [cut_mk, hlimit.counts.kept_of_length_le (length_ofRow_le level row related)]
  unfold ofRow
  split <;> rfl

private theorem fits_ofRow {level : Level} {children : List Node}
    (hcells : ∀ key ∈ level.table.keys, S (Value.get (level.stem ++ key) row))
    {related : List (List Entity)} (hbelow : AllFit S children related) :
    Fits S (.mk level children) (ofRow level row related) := by
  refine ⟨fun _ ↦ length_ofRow_le level row related, ?_, fun e he ↦ ?_⟩
  · unfold ofRow
    split
    · exact .nil
    · exact List.pairwise_singleton _ _
  · obtain ⟨rfl, hsome⟩ := mem_ofRow he
    refine ⟨hasCells_cellsIn hcells related, hsome, hbelow⟩

/-- What stands for the object that a row holds of a relation is what is held of it. -/
theorem related_cellsIn {level : Level} {children : List Node}
    (hkeys : (level.table.keys ++ names children).Nodup) (row : Row)
    (related : List (List Entity)) :
    Objects.related level (Row.named
        (level.table.cellsIn level.stem row ++ relations children related)) =
      held (.mk level children) (ofRow level row related) := by
  rw [Objects.related_eq, Objects.isAbsent_cellsIn (List.nodup_append.mp hkeys).1]
  unfold ofRow
  split
  · rfl
  · nth_rewrite 1 [← level.table.zip_cellsIn level.stem row]
    rfl

/-- What a row holds of one relation is attached with limits as it is without them, cut. -/
private theorem exists_attach_cut (hS : Value.Comparable S) {level : Level} {children : List Node}
    (hkeys : (level.table.keys ++ names children).Nodup)
    (hleaf : level.aggregated = true → level.kind = .many ∧ children = []) (hlimit : level.Leaves)
    (hstart : FindOptions.counted level.options.offset = none)
    (hcells : if level.aggregated then
        ∃ tuples, (Value.get level.name row).HoldsTuples tuples ∧ ∀ cells ∈ tuples,
          level.table.columns.length ≤ cells.length ∧ ∀ v ∈ cells, S v
      else ∀ key ∈ level.table.keys, S (Value.get (level.stem ++ key) row))
    (hbelow : ∃ ks, AllFit S children ks ∧ AllSingle children ks ∧
      ∀ before : List (String × Value), (Keyed.keys before ++ names children).Nodup →
        Objects.attachAll row (unlimited children) (Row.named before) =
            .ok (Row.named (before ++ relations children ks)) ∧
          Objects.attachAll row children (Row.named before) =
            .ok (Row.named (before ++ relations children (cutAll children ks)))) :
    ∃ es, Fits S (.mk level children) es ∧ Single (.mk level children) es ∧
      ∀ before : List (String × Value), level.name ∉ Keyed.keys before →
        Objects.attach row (.mk level.unlimited (unlimited children)) (Row.named before) =
            .ok (Row.named (before ++ [(level.name, held (.mk level children) es)])) ∧
          Objects.attach row (.mk level children) (Row.named before) =
            .ok (Row.named (before ++ [(level.name, held (.mk level children)
              (cut (.mk level children) es))])) := by
  have hunlimited : level.unlimited.aggregated = level.aggregated := rfl
  by_cases hagg : level.aggregated = true
  · obtain ⟨hmany, rfl⟩ := hleaf hagg
    rw [if_pos hagg] at hcells
    obtain ⟨tuples, hraw, hcells⟩ := hcells
    obtain ⟨es, hfit, hread, hreadCut⟩ :=
      exists_ofTuples_cut hS hmany hstart hlimit hraw hcells
    refine ⟨es, hfit, fun hnot ↦ ?_, fun before hname ↦ ⟨?_, ?_⟩⟩
    · rw [hagg] at hnot
      cases hnot
    · rw [Objects.attach, if_pos (hunlimited.trans hagg), ← Row.setEntry_new hname]
      simp only [bind, Except.bind]
      rw [show level.unlimited.name = level.name from rfl, hread]
      rfl
    · rw [Objects.attach, if_pos hagg, hreadCut, ← Row.setEntry_new hname]
      rfl
  · rw [if_neg hagg] at hcells
    obtain ⟨ks, hfit, hsingle, hread⟩ := hbelow
    obtain ⟨hread, hreadCut⟩ := hread (level.table.cellsIn level.stem row)
      (by rw [level.table.keys_cellsIn]; exact hkeys)
    rw [← Objects.cells_eq] at hread hreadCut
    refine ⟨ofRow level row ks, fits_ofRow hcells hfit, fun _ ↦ ⟨length_ofRow_le level row ks, ?_⟩,
      fun before hname ↦ ⟨?_, ?_⟩⟩
    · intro e he
      obtain ⟨rfl, -⟩ := mem_ofRow he
      exact hsingle
    · rw [Objects.attach, if_neg (by rw [hunlimited]; exact hagg), ← Row.setEntry_new hname]
      simp only [bind, Except.bind]
      rw [show level.unlimited.stem = level.stem from rfl,
        show level.unlimited.table = level.table from rfl, hread, ← related_cellsIn hkeys]
      rfl
    · rw [Objects.attach, if_neg hagg, cut_ofRow hlimit, ← Row.setEntry_new hname, hreadCut,
        ← related_cellsIn hkeys]
      rfl

/-- What a row holds of relations is attached with limits as it is without them, cut. -/
private theorem exists_attachAll_cut (hS : Value.Comparable S) (hapart : KeysApart nodes)
    (hleaves : AggregatesLeaves nodes) (hlimits : LimitsLeave nodes) (hstart : FromStart nodes)
    (hrow : HaveCells S row nodes) :
    ∃ ks, AllFit S nodes ks ∧ AllSingle nodes ks ∧
      ∀ before : List (String × Value), (Keyed.keys before ++ names nodes).Nodup →
        Objects.attachAll row (unlimited nodes) (Row.named before) =
            .ok (Row.named (before ++ relations nodes ks)) ∧
          Objects.attachAll row nodes (Row.named before) =
            .ok (Row.named (before ++ relations nodes (cutAll nodes ks))) := by
  induction nodes using forest_induction with
  | nil =>
    refine ⟨[], trivial, trivial, fun before _ ↦ ?_⟩
    change Except.ok _ = Except.ok (Row.named (before ++ [])) ∧
      Except.ok _ = Except.ok (Row.named (before ++ []))
    rw [List.append_nil]
    exact ⟨rfl, rfl⟩
  | cons level children rest ihChildren ihRest =>
    obtain ⟨⟨hkeys, hapartBelow⟩, hapartRest⟩ := hapart
    obtain ⟨⟨hleaf, hleavesBelow⟩, hleavesRest⟩ := hleaves
    obtain ⟨⟨hlimit, hlimitsBelow⟩, hlimitsRest⟩ := hlimits
    obtain ⟨⟨hstartHere, hstartBelow⟩, hstartRest⟩ := hstart
    obtain ⟨⟨hcells, hrowBelow⟩, hrowRest⟩ := hrow
    obtain ⟨ks, hfitRest, hsingleRest, hrest⟩ :=
      ihRest hapartRest hleavesRest hlimitsRest hstartRest hrowRest
    have hbelow := ihChildren hapartBelow hleavesBelow hlimitsBelow hstartBelow hrowBelow
    obtain ⟨es, hfit, hsingle, hattach⟩ :=
      exists_attach_cut hS hkeys hleaf hlimit hstartHere hcells hbelow
    refine ⟨es :: ks, ⟨hfit, hfitRest⟩, ⟨hsingle, hsingleRest⟩, fun before hnames ↦ ?_⟩
    obtain ⟨hhere, hhereCut⟩ := hattach before (name_notMem_keys hnames)
    have hthere := (hrest _ (nodup_keys_snoc (held (.mk level children) es) hnames)).1
    have hthereCut := (hrest _ (nodup_keys_snoc
      (held (.mk level children) (cut (.mk level children) es)) hnames)).2
    constructor
    · change (do
        let object ← Objects.attach row (.mk level.unlimited (unlimited children))
          (Row.named before)
        Objects.attachAll row (unlimited rest) object) = _
      rw [hhere]
      change Objects.attachAll row (unlimited rest) _ = _
      rw [hthere, List.append_assoc]
      rfl
    · rw [Objects.attachAll, hhereCut]
      change Objects.attachAll row rest _ = _
      rw [hthereCut, List.append_assoc]
      rfl

end Node

/-- A flat row is rebuilt into an object with limits as it is without them, cut. -/
theorem Objects.exists_ofRow_cut (hS : Value.Comparable S) {t : Table} {nodes : List Node}
    (hkeys : (t.keys ++ Node.names nodes).Nodup) (hapart : Node.KeysApart nodes)
    (hleaves : Node.AggregatesLeaves nodes) (hlimits : Node.LimitsLeave nodes)
    (hstart : Node.FromStart nodes) {row : Row} (hrow : row.Flat S t nodes) :
    ∃ e : Entity, e.Fits S t nodes ∧ Node.AllSingle nodes e.related ∧
      ofRow t (Node.unlimited nodes) row = .ok (e.object t nodes) ∧
      ofRow t nodes row = .ok ((e.cut nodes).object t nodes) := by
  obtain ⟨ks, hfit, hsingle, hattach⟩ :=
    Node.exists_attachAll_cut hS hapart hleaves hlimits hstart hrow.related
  obtain ⟨hread, hreadCut⟩ := hattach (t.cellsIn "" row) (by rwa [t.keys_cellsIn])
  have hcells : ∀ key ∈ t.keys, S (Value.get ("" ++ key) row) := by
    simpa only [String.empty_append] using hrow.own
  have hobject (related : List (List Entity)) :
      (Entity.mk ((t.cellsIn "" row).map Prod.snd) related).object t nodes =
        .map (Row.named (t.cellsIn "" row ++ Node.relations nodes related)) := by
    nth_rewrite 2 [← t.zip_cellsIn "" row]
    rfl
  refine ⟨.mk ((t.cellsIn "" row).map Prod.snd) ks, ⟨hasCells_cellsIn hcells ks, hfit⟩, hsingle,
    ?_, ?_⟩
  · rw [ofRow, cells_eq, hread, hobject]
    rfl
  · rw [ofRow, cells_eq, hreadCut, Entity.cut, Entity.cells, Entity.related, hobject]
    rfl

/-! ### Cutting values -/

namespace Node

/-- What is held of a relation is cut as the related objects are. -/
private theorem cutHeld_held {level : Level} {children : List Node} {es : List Entity}
    (hone : level.kind = .one → es.length ≤ 1)
    (hbelow : ∀ e ∈ es, cutObject children (e.object level.table children) =
      (e.cut children).object level.table children) :
    cutHeld (.mk level children) (held (.mk level children) es) =
      held (.mk level children) (cut (.mk level children) es) := by
  rw [cut_mk]
  cases hkind : level.kind with
  | one =>
    rw [held_one hkind, held_one hkind, Level.kept_of_one hkind]
    rcases es with _ | ⟨e, es⟩
    · cases children <;> rfl
    · exact hbelow e List.mem_cons_self
  | many =>
    rw [held_many hkind, held_many hkind, List.map_map]
    change Value.list ((level.kept _).map _) = _
    rw [Level.kept_map, List.map_map]
    exact congrArg Value.list (List.map_congr_left fun e he ↦
      hbelow e ((level.kept_sublist es).subset he))

/-- What an object holds of relations is cut as the related objects are. -/
private theorem cutObject_named {nodes : List Node} (hapart : KeysApart nodes)
    {ps : List (List Entity)} (hp : AllFit S nodes ps) (before : List (String × Value))
    (hnames : (Keyed.keys before ++ names nodes).Nodup) :
    cutObject nodes (.map (Row.named (before ++ relations nodes ps))) =
      .map (Row.named (before ++ relations nodes (cutAll nodes ps))) := by
  induction nodes using forest_induction generalizing ps before with
  | nil =>
    cases ps with
    | nil => rfl
    | cons es others => exact hp.elim
  | cons level children rest ihChildren ihRest =>
    rcases ps with _ | ⟨es, others⟩
    · exact hp.elim
    obtain ⟨⟨hkeys, hapartBelow⟩, hapartRest⟩ := hapart
    obtain ⟨⟨hone, -, hes⟩, hpRest⟩ := hp
    have hname := name_notMem_keys hnames
    have hheld : cutHeld (.mk level children) (held (.mk level children) es) =
        held (.mk level children) (cut (.mk level children) es) := by
      refine cutHeld_held hone fun e he ↦ ?_
      obtain ⟨hcells, -, hfit⟩ := hes e he
      refine ihChildren hapartBelow hfit _ ?_
      rwa [keys_zip (hcells.1.trans level.table.length_keys.symm)]
    have hrest := ihRest hapartRest hpRest _
      (nodup_keys_snoc (held (.mk level children) (cut (.mk level children) es)) hnames)
    change cutObject rest (.map (Value.setEntry (.text level.name) (cutHeld (.mk level children)
      (Value.get level.name (Row.named (before ++
        (level.name, held (.mk level children) es) :: relations rest others))))
      (Row.named (before ++
        (level.name, held (.mk level children) es) :: relations rest others)))) = _
    rw [Row.get_named, Keyed.find?_between hname, Option.getD_some, hheld, Row.setEntry_named,
      Keyed.set_between hname]
    simp only [List.append_assoc] at hrest
    exact hrest

end Node

/-- The object of an entity is cut as the entity is. -/
theorem Entity.cutObject_object {t : Table} {nodes : List Node}
    (hkeys : (t.keys ++ Node.names nodes).Nodup) (hapart : Node.KeysApart nodes) {e : Entity}
    (he : e.Fits S t nodes) :
    Node.cutObject nodes (e.object t nodes) = (e.cut nodes).object t nodes := by
  refine Node.cutObject_named hapart he.2 _ ?_
  rwa [keys_zip (he.1.1.trans t.length_keys.symm)]

end Columnar
