import Columnar.Proofs.Fetch.Joining
import Columnar.Proofs.Fetch.Rebuilt
import Columnar.Proofs.Fetch.RoundTrip

/-!
# Limits row by row

Rows are rebuilt into objects and merged, and after every row each relation to many is cut to its
limit. What comes out is what rows make without limits, cut in the end: an item that was cut off and
appears again is added behind those that were kept, and cut off again (`Merge.ofRows_cut`).
-/

namespace Columnar

/-- Rows, rebuilt into objects and merged. -/
def Merge.ofRows (t : Table) (nodes : List Node) (rows : List Row) : Traced (List Value) := do
  byIdentity t nodes (← liftM (rows.mapM (Objects.ofRow t nodes)))

variable {S : Value → Prop} {t : Table} {nodes : List Node}

/-! ### Grouped entities -/

/-- Adds an entity to those grouped by their keys. -/
private def group (join : Entity → Entity → Entity) (found : List (String × Entity))
    (x : String × Entity) : List (String × Entity) :=
  match Keyed.find? x.1 found with
  | some e => Keyed.set x.1 (join e x.2) found
  | none => found ++ [x]

/-- A property of grouped entities stays when one is added. -/
private theorem forall_mem_group {P : Entity → Prop} {join : Entity → Entity → Entity}
    {found : List (String × Entity)} {x : String × Entity} (hx : P x.2)
    (hfound : ∀ y ∈ found, P y.2) (hjoin : ∀ e, P e → P (join e x.2)) :
    ∀ y ∈ group join found x, P y.2 := by
  intro y hy
  unfold group at hy
  split at hy
  · next e he =>
    have hmem : (_, e) ∈ found := Keyed.mem_of_find? he
    rcases Keyed.mem_set hy with heq | hy
    · rw [heq]
      exact hjoin e (hfound _ hmem)
    · exact hfound y hy
  · rcases List.mem_append.mp hy with hy | hy
    · exact hfound y hy
    · rw [List.mem_singleton.mp hy]
      exact hx

/-- Objects are added as the entities they stand for are grouped, when they are united as these are
joined. -/
private theorem add_mapValues {object : Entity → Value} {join : Entity → Entity → Entity}
    {found : List (String × Entity)} {x : String × Entity}
    (hkey : Identity.key t (object x.2) = .ok x.1)
    (hunite : ∀ y ∈ found, Merge.unite nodes (object y.2) (object x.2) =
      .ok (object (join y.2 x.2))) :
    Merge.add t nodes (Keyed.mapValues object found) (object x.2) =
      .ok (Keyed.mapValues object (group join found x)) := by
  rw [Merge.add, hkey]
  simp only [bind, Except.bind, Keyed.find?_mapValues]
  unfold group
  cases hfind : Keyed.find? x.1 found with
  | none =>
    simp only [Option.map_none, Keyed.mapValues, List.map_append]
    rfl
  | some e =>
    have hunited : Merge.unite nodes (object e) (object x.2) = .ok (object (join e x.2)) :=
      hunite _ (Keyed.mem_of_find? hfind)
    simp only [Option.map_some, hunited, ← Keyed.set_mapValues]
    rfl

/-- Objects are merged as the entities they stand for are grouped. -/
private theorem foldlM_add_mapValues {P : Entity → Prop} (object : Entity → Value)
    {join : Entity → Entity → Entity} {items found : List (String × Entity)}
    (hitems : ∀ x ∈ items, P x.2 ∧ Identity.key t (object x.2) = .ok x.1)
    (hjoin : ∀ e, P e → ∀ x ∈ items, P (join e x.2))
    (hunite : ∀ e, P e → ∀ x ∈ items, Merge.unite nodes (object e) (object x.2) =
      .ok (object (join e x.2))) (hfound : ∀ y ∈ found, P y.2) :
    (items.map fun x ↦ object x.2).foldlM (Merge.add t nodes) (Keyed.mapValues object found) =
        .ok (Keyed.mapValues object (items.foldl (group join) found)) ∧
      ∀ y ∈ items.foldl (group join) found, P y.2 := by
  induction items generalizing found with
  | nil => exact ⟨rfl, hfound⟩
  | cons x items ih =>
    obtain ⟨⟨hx, hkey⟩, hitems⟩ := List.forall_mem_cons.mp hitems
    have hadd := add_mapValues (t := t) hkey fun y hy ↦ hunite y.2 (hfound y hy) x (by simp)
    have hgroup : ∀ y ∈ group join found x, P y.2 :=
      forall_mem_group hx hfound fun e he ↦ hjoin e he x (by simp)
    obtain ⟨hfold, hall⟩ := ih hitems (fun e he x hx ↦ hjoin e he x (by simp [hx]))
      (fun e he x hx ↦ hunite e he x (by simp [hx])) hgroup
    refine ⟨?_, hall⟩
    rw [List.map_cons, List.foldlM_cons, hadd]
    exact hfold

/-! ### Without limits -/

private theorem object_unlimited (e : Entity) :
    e.object t (Node.unlimited nodes) = e.object t nodes := by
  rw [Entity.object, Entity.entries, Node.relations_unlimited]
  rfl

/-- Objects are united without limits as the entities they stand for are joined. -/
private theorem unite_unlimited (hS : Value.Equated S)
    (hkeys : (t.keys ++ Node.names nodes).Nodup) (hapart : Node.KeysApart nodes)
    (hleaves : Node.AggregatesLeaves nodes) {e item : Entity}
    (he : e.Fits S t nodes) (hitem : item.Fits S t nodes)
    (hsingle : Node.AllSingle nodes item.related) :
    Merge.unite (Node.unlimited nodes) (e.object t nodes) (item.object t nodes) =
      .ok ((e.join (Node.unlimited nodes) item).object t nodes) := by
  have hapart' : Node.KeysApart (Node.unlimited nodes) :=
    Node.all_unlimited (fun _ _ h ↦ by rwa [Node.names_unlimited]) hapart
  have hleaves' : Node.AggregatesLeaves (Node.unlimited nodes) := by
    refine Node.all_unlimited (fun level children h hagg ↦ ?_) hleaves
    obtain ⟨hmany, rfl⟩ := h hagg
    exact ⟨hmany, rfl⟩
  have hlimits' : Node.LimitsLeave (Node.unlimited nodes) :=
    Node.all_unlimited (fun level _ _ ↦ level.leaves_unlimited) hapart
  have hunite := Entity.unite_object hS (by rwa [Node.names_unlimited]) hapart' hleaves'
    hlimits'.counts ⟨he.1, Node.allFit_unlimited.mpr he.2⟩
    ⟨hitem.1, Node.allFit_unlimited.mpr hitem.2⟩ (Node.single_unlimited hsingle)
    (Node.within_unlimited nodes e.related)
  rwa [object_unlimited, object_unlimited, object_unlimited] at hunite

/-- What two objects are united into is cut as they are, and united within limits. -/
private theorem unite_cut (hS : Value.Equated S) (hkeys : (t.keys ++ Node.names nodes).Nodup)
    (hapart : Node.KeysApart nodes) (hleaves : Node.AggregatesLeaves nodes)
    (hlimits : Node.LimitsLeave nodes) {e item : Entity} (he : e.Fits S t nodes)
    (hitem : item.Fits S t nodes) (hsingle : Node.AllSingle nodes item.related) :
    Merge.unite nodes ((e.cut nodes).object t nodes) ((item.cut nodes).object t nodes) =
      .ok (((e.join (Node.unlimited nodes) item).cut nodes).object t nodes) := by
  have hjoin : (e.join (Node.unlimited nodes) item).cut nodes =
      (e.cut nodes).join nodes (item.cut nodes) :=
    congrArg (Entity.mk e.cells) (Node.cutAll_joinAll hS hleaves hlimits he.2 hitem.2 hsingle)
  rw [hjoin]
  exact Entity.unite_object hS hkeys hapart hleaves hlimits.counts ⟨he.1, Node.fit_cutAll he.2⟩
    ⟨hitem.1, Node.fit_cutAll hitem.2⟩ (Node.single_cutAll hsingle)
    (Node.within_cutAll nodes e.related)

/-! ### All rows -/

/-- A row is rebuilt into the object of an entity and, within limits, into that of the entity cut;
both have the same key. -/
private structure RebuiltAs (S : Value → Prop) (t : Table) (nodes : List Node)
    (x : String × Entity) (row : Row) : Prop where
  fits : x.2.Fits S t nodes
  single : Node.AllSingle nodes x.2.related
  whole : Objects.ofRow t (Node.unlimited nodes) row = .ok (x.2.object t nodes)
  cut : Objects.ofRow t nodes row = .ok ((x.2.cut nodes).object t nodes)
  key : Identity.key t (x.2.object t nodes) = .ok x.1
  keyCut : Identity.key t ((x.2.cut nodes).object t nodes) = .ok x.1

private theorem exists_rebuiltAs (hS : Value.Comparable S)
    (hkeys : (t.keys ++ Node.names nodes).Nodup) (hapart : Node.KeysApart nodes)
    (hleaves : Node.AggregatesLeaves nodes) (hlimits : Node.LimitsLeave nodes)
    (hstart : Node.FromStart nodes) {primary : List String}
    (hprimary : t.primaryKeys = .ok primary) {row : Row} (hrow : row.Flat S t nodes) :
    ∃ x, RebuiltAs S t nodes x row := by
  obtain ⟨e, hfits, hsingle, hwhole, hcut⟩ :=
    Objects.exists_ofRow_cut hS hkeys hapart hleaves hlimits hstart hrow
  obtain ⟨key, hkey⟩ := exists_identity hprimary e
  have hlength : e.cells.length = t.keys.length := hfits.1.1.trans t.length_keys.symm
  have hsame (others : List (String × Value)) :
      Identity.key t (.map (Row.named (t.keys.zip e.cells ++ others))) = .ok key :=
    (key_named hprimary (List.nodup_append.mp hkeys).1 hlength _ _).trans hkey
  exact ⟨(key, e), hfits, hsingle, hwhole, hcut, hsame _, hsame _⟩

/-- Rows that are rebuilt are merged when their objects can be added one by one. -/
private theorem ofRows_eq (object : Entity → Value) {items : List (String × Entity)}
    {rows : List Row} {grouped : List (String × Entity)}
    (hrows : List.Forall₂ (fun x row ↦ Objects.ofRow t nodes row = .ok (object x.2)) items rows)
    (hmerge : (items.map fun x ↦ object x.2).foldlM (Merge.add t nodes) [] =
      .ok (Keyed.mapValues object grouped)) :
    (Merge.ofRows t nodes rows).result = .ok (grouped.map fun x ↦ object x.2) := by
  have hread : rows.mapM (Objects.ofRow t nodes) = .ok (items.map fun x ↦ object x.2) :=
    Succeeding.mapM_of_forall₂ (List.forall₂_map_right_iff.mpr hrows.flip)
  rw [Merge.ofRows, Traced.result_bind]
  change Except.bind (rows.mapM (Objects.ofRow t nodes)) _ = _
  rw [hread]
  change (Merge.byIdentity t nodes _).result = _
  rw [Merge.byIdentity, Traced.result_bind]
  change Except.bind (List.foldlM _ [] _) _ = _
  rw [hmerge]
  exact congrArg Except.ok (List.map_map ..)

/-- Limits are applied row by row: merging flat rows within limits gives what merging them without
limits gives, with each collection cut to its first items. -/
theorem Merge.ofRows_cut (hS : Value.Equated S) {c : Catalog} {id : TableId}
    {requests : List (String × Choice)} (hplan : (Plan.root c id requests).result = .ok nodes)
    (hlimits : Node.LimitsLeave nodes) (hstart : Node.FromStart nodes)
    (hkeys : ((c.table id).keys ++ Node.names nodes).Nodup) (hapart : Node.KeysApart nodes)
    {primary : List String} (hprimary : (c.table id).primaryKeys = .ok primary) {rows : List Row}
    (hrows : ∀ row ∈ rows, row.Flat S (c.table id) nodes) :
    ∃ whole, (Merge.ofRows (c.table id) (Node.unlimited nodes) rows).result = .ok whole ∧
      (Merge.ofRows (c.table id) nodes rows).result =
        .ok (whole.map (Node.cutObject nodes)) := by
  generalize c.table id = t at *
  have hleaves := Plan.aggregatesLeaves_of_root hplan
  obtain ⟨items, hitems⟩ := Succeeding.exists_forall₂ fun row hrow ↦
    exists_rebuiltAs hS.toComparable hkeys hapart hleaves hlimits hstart hprimary (hrows row hrow)
  have hrebuilt : ∀ x ∈ items, ∃ row, RebuiltAs S t nodes x row := fun x hx ↦
    (Succeeding.exists_of_forall₂ hitems hx).imp fun _ h ↦ h.2
  have hjoin : ∀ e : Entity, e.Fits S t nodes → ∀ x ∈ items,
      (e.join (Node.unlimited nodes) x.2).Fits S t nodes := by
    intro e he x hx
    obtain ⟨row, hx⟩ := hrebuilt x hx
    exact ⟨he.1, Node.allFit_unlimited.mp (Node.fit_joinAll (Node.allFit_unlimited.mpr he.2)
      (Node.allFit_unlimited.mpr hx.fits.2))⟩
  -- Both runs group the same entities: the one without limits shows them whole, the other cut.
  have hunite : ∀ e : Entity, e.Fits S t nodes → ∀ x ∈ items,
      Merge.unite (Node.unlimited nodes) (e.object t nodes) (x.2.object t nodes) =
        .ok ((e.join (Node.unlimited nodes) x.2).object t nodes) := by
    intro e he x hx
    obtain ⟨row, hx⟩ := hrebuilt x hx
    exact unite_unlimited hS hkeys hapart hleaves he hx.fits hx.single
  have huniteCut : ∀ e : Entity, e.Fits S t nodes → ∀ x ∈ items,
      Merge.unite nodes ((e.cut nodes).object t nodes) ((x.2.cut nodes).object t nodes) =
        .ok (((e.join (Node.unlimited nodes) x.2).cut nodes).object t nodes) := by
    intro e he x hx
    obtain ⟨row, hx⟩ := hrebuilt x hx
    exact unite_cut hS hkeys hapart hleaves hlimits he hx.fits hx.single
  have hnone : ∀ y ∈ ([] : List (String × Entity)), y.2.Fits S t nodes := nofun
  obtain ⟨hwhole, hfits⟩ := foldlM_add_mapValues (Entity.object t nodes)
    (fun x hx ↦ (hrebuilt x hx).elim fun _ h ↦ ⟨h.fits, h.key⟩) hjoin hunite hnone
  obtain ⟨hcut, -⟩ := foldlM_add_mapValues (fun e ↦ (e.cut nodes).object t nodes)
    (fun x hx ↦ (hrebuilt x hx).elim fun _ h ↦ ⟨h.fits, h.keyCut⟩) hjoin huniteCut hnone
  refine ⟨_, ofRows_eq _ (hitems.imp fun _ _ h ↦ h.whole) hwhole, ?_⟩
  rw [ofRows_eq (fun e ↦ (e.cut nodes).object t nodes) (hitems.imp fun _ _ h ↦ h.cut) hcut,
    List.map_map]
  refine congrArg Except.ok (List.map_congr_left fun x hx ↦ ?_)
  exact (Entity.cutObject_object hkeys hapart (hfits x hx)).symm

/-! ### Routes with stops and alerts -/

private def labelled (table : String) : Column :=
  { name := "name", type := "String", table := some table }

private def listOf (name : String) : Table := { name, columns := [("name", labelled name)] }

private def toNamed (kind : RelationKind) (target : TableId) (source name : String) : Relation :=
  { kind, target, fields := [labelled source], references := [labelled name] }

private def transit : Catalog :=
  { entries := #[
      { table := listOf "routes",
        relations := [("line", toNamed .one 1 "routes" "lines"),
          ("alerts", toNamed .many 3 "routes" "alerts")] },
      { table := listOf "lines",
        relations := [("stops", toNamed .many 2 "lines" "stops")] },
      { table := listOf "stops" },
      { table := listOf "alerts" }] }

/-- The line of a route with two stops, and one alert. -/
private def twoStops : List (String × Choice) :=
  [("line", .fields [("with", .tree [("stops", .fields [("limit", .plain (.int 2))])])]),
    ("alerts", .fields [("limit", .plain (.int 1))])]

private def stopsAndAlerts : List Node :=
  [.mk { name := "line", kind := .one, table := listOf "lines", stem := "line_"
         condition := Expr.eq (.column (labelled "routes")) (.column (labelled "lines"))
         options := { related := some [("stops", .fields [("limit", .plain (.int 2))])] }
         aggregated := false }
      [.mk { name := "stops", kind := .many, table := listOf "stops", stem := "line__stops_"
             condition := Expr.eq (.column (labelled "lines")) (.column (labelled "stops"))
             options := { limit := some 2 }, aggregated := false } []],
    .mk { name := "alerts", kind := .many, table := listOf "alerts", stem := "alerts_"
          condition := Expr.eq (.column (labelled "routes")) (.column (labelled "alerts"))
          options := { limit := some 1 }, aggregated := true } []]

/-- A row of a route with one stop of its line and with some alerts. -/
private def stopping (stop : String) (alerts : List String) : Row :=
  Row.named [("name", .text "east"), ("line_name", .text "blue"), ("line__stops_name", .text stop),
    ("alerts", .list (alerts.map fun alert ↦ .tuple [.text alert]))]

/-- The third stop and the second alert appear again after they were cut off. -/
private def fiveRows : List Row :=
  [stopping "port" ["late", "full"], stopping "park" ["full"], stopping "mill" ["late"],
    stopping "port" ["full", "late"], stopping "mill" ["full"]]

private theorem flat_stopping (stop : String) (alerts : List String) :
    (stopping stop alerts).Flat isText (transit.table 0) stopsAndAlerts := by
  refine ⟨?_, ⟨?_, ⟨?_, trivial⟩, trivial⟩, ⟨?_, trivial⟩, trivial⟩
  · exact List.forall_mem_singleton.mpr ⟨"east", rfl⟩
  · exact List.forall_mem_singleton.mpr ⟨"blue", rfl⟩
  · exact List.forall_mem_singleton.mpr ⟨stop, rfl⟩
  · refine ⟨alerts.map fun alert ↦ [.text alert], .of_list ?_, ?_⟩
    · exact List.forall₂_map_left_iff.mpr (List.forall₂_map_right_iff.mpr
        (List.forall₂_same.mpr fun _ _ ↦ .tuple _))
    · refine List.forall_mem_map.mpr fun alert _ ↦ ⟨Nat.le_refl 1, ?_⟩
      exact List.forall_mem_singleton.mpr ⟨alert, rfl⟩

theorem equated_isText : Value.Equated isText where
  toComparable := comparable_isText
  trans := by
    rintro _ _ _ ⟨a, rfl⟩ ⟨b, rfl⟩ ⟨c, rfl⟩ hab hbc
    rwa [eq_of_beq (a := a) hab]

/-- Of the stops of a line two are kept and of its alerts one, though those that are cut off appear
again. -/
theorem Merge.ofRows_cut_stops :
    (∃ whole, (Merge.ofRows (transit.table 0) (Node.unlimited stopsAndAlerts) fiveRows).result =
        .ok whole ∧
      (Merge.ofRows (transit.table 0) stopsAndAlerts fiveRows).result =
        .ok (whole.map (Node.cutObject stopsAndAlerts))) ∧
    (Merge.ofRows (transit.table 0) stopsAndAlerts fiveRows).result = .ok [
      .map (Row.named [("name", .text "east"),
        ("line", .map (Row.named [("name", .text "blue"),
          ("stops", .list [.map (Row.named [("name", .text "port")]),
            .map (Row.named [("name", .text "park")])])])),
        ("alerts", .list [.map (Row.named [("name", .text "late")])])])] := by
  have hplan : (Plan.root transit 0 twoStops).result = .ok stopsAndAlerts := rfl
  have hprimary : (transit.table 0).primaryKeys = .ok ["name"] := rfl
  have hlimits : Node.LimitsLeave stopsAndAlerts :=
    ⟨⟨nofun, ⟨fun _ h ↦ by cases h; decide, trivial⟩, trivial⟩,
      ⟨fun _ h ↦ by cases h; decide, trivial⟩, trivial⟩
  have hstart : Node.FromStart stopsAndAlerts :=
    ⟨⟨rfl, ⟨rfl, trivial⟩, trivial⟩, ⟨rfl, trivial⟩, trivial⟩
  have hapart : Node.KeysApart stopsAndAlerts :=
    ⟨⟨by decide, ⟨by decide, trivial⟩, trivial⟩, ⟨by decide, trivial⟩, trivial⟩
  refine ⟨ofRows_cut equated_isText hplan hlimits hstart (by decide) hapart hprimary ?_, rfl⟩
  intro row hrow
  simp only [fiveRows, List.mem_cons, List.not_mem_nil, or_false] at hrow
  rcases hrow with rfl | rfl | rfl | rfl | rfl <;> exact flat_stopping _ _

end Columnar
