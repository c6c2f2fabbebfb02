import Columnar.Proofs.Fetch.Collected
import Columnar.Proofs.Fetch.Incremental
import Columnar.Proofs.Fetch.Run

/-!
# Collections of a fetch

The objects of a fetch are those that its rows make together: all rows with one primary key where
fetching multiplies rows, otherwise each row alone (`Fetch.outcome_findMany_shown`).
-/

namespace Columnar

variable {S : Value → Prop}

namespace Keyed

variable {α : Type} {f g : String → α} {names : List String} {name : String}

private theorem keys_tabulated (names : List String) :
    keys (names.map fun k ↦ (k, f k)) = names := by
  rw [keys, List.map_map]
  exact List.map_id _

private theorem find?_tabulated (hn : names.Nodup) (h : name ∈ names) :
    find? name (names.map fun k ↦ (k, f k)) = some (f name) :=
  find?_of_mem (by rwa [keys_tabulated]) (List.mem_map.mpr ⟨name, h, rfl⟩)

/-- A name is set where it stands among others whose values stay. -/
private theorem set_tabulated (hn : names.Nodup) (h : name ∈ names)
    (hother : ∀ k ∈ names, k ≠ name → g k = f k) :
    set name (g name) (names.map fun k ↦ (k, f k)) = names.map fun k ↦ (k, g k) := by
  obtain ⟨before, after, rfl⟩ := List.append_of_mem h
  obtain ⟨-, hafter, hapart⟩ := List.nodup_append.mp hn
  have hbefore : name ∉ before := fun hmem ↦ hapart name hmem name List.mem_cons_self rfl
  have hafter : name ∉ after := (List.nodup_cons.mp hafter).1
  have hkeys : name ∉ keys (before.map fun k ↦ (k, f k)) := by
    rwa [keys_tabulated]
  have hsame {others : List String} (hsub : others ⊆ before ++ name :: after)
      (hnot : name ∉ others) : (others.map fun k ↦ (k, f k)) = others.map fun k ↦ (k, g k) := by
    refine List.map_congr_left fun k hk ↦ ?_
    rw [hother k (hsub hk) fun hkey ↦ hnot (hkey ▸ hk)]
  rw [List.map_append, List.map_cons, set_between hkeys,
    hsame (List.subset_append_left _ _) hbefore,
    hsame (fun k hk ↦ List.mem_append_right _ (List.mem_cons_of_mem _ hk)) hafter,
    List.map_append, List.map_cons]

end Keyed

/-! ### Rows of one object -/

namespace Entity

variable {t : Table} {nodes : List Node} {row : Row} {rows : List Row}

/-- Flat rows make an entity that fits. -/
private theorem fits_ofRows {first : Row} (hrows : ∀ row ∈ first :: rows, row.Flat S t nodes) :
    (ofRows t nodes (first :: rows)).Fits S t nodes := by
  have hcells : ∀ key ∈ t.keys, S (Value.get ("" ++ key) first) := by
    simpa only [String.empty_append] using (hrows first List.mem_cons_self).own
  exact ⟨hasCells_cellsIn hcells _, Node.fit_gatherAll fun row hrow ↦ (hrows row hrow).related⟩

/-- With one more row of the same object, the entity of the others is joined with that of the
row. -/
private theorem unite_ofRows (hS : Value.Equated S) (hkeys : (t.keys ++ Node.names nodes).Nodup)
    (hapart : Node.KeysApart nodes) (hleaves : Node.AggregatesLeaves nodes)
    (hcount : Node.LimitsCount nodes) (hne : rows ≠ [])
    (hrows : ∀ row ∈ rows, row.Flat S t nodes) (hrow : row.Flat S t nodes) :
    Merge.unite nodes ((ofRows t nodes rows).object t nodes)
        ((ofRows t nodes [row]).object t nodes) =
      .ok ((ofRows t nodes (rows ++ [row])).object t nodes) := by
  obtain ⟨first, others, rfl⟩ := List.exists_cons_of_ne_nil hne
  have hjoin : (ofRows t nodes (first :: others)).join nodes (ofRows t nodes [row]) =
      ofRows t nodes (first :: others ++ [row]) :=
    congrArg (Entity.mk _) (Node.joinAll_gatherAll hS hleaves hcount
      (fun row hmem ↦ (hrows row hmem).related) hrow.related)
  rw [← hjoin]
  exact unite_object hS hkeys hapart hleaves hcount (fits_ofRows hrows)
    (fits_ofRows (List.forall_mem_singleton.mpr hrow))
    (Node.single_gatherAll hS.toComparable hcount hrow.related)
    (Node.within_gatherAll nodes _)

end Entity

namespace Fetch

variable {t : Table} {nodes : List Node} {row : Row} {rows : List Row}

/-- The primary key of the object of a row, as one text. -/
def rowKey (t : Table) (row : Row) : String :=
  ((Entity.ofRows t [] [row]).identity t).toOption.getD ""

/-- The rows of one object each: those with the same primary key where fetching multiplies rows,
otherwise single ones. -/
def bundles (t : Table) (nodes : List Node) (rows : List Row) : List (List Row) :=
  if Node.anyMultiplies nodes then
    (Collection.firsts (· == ·) (rows.map (rowKey t))).map fun key ↦
      rows.filter (rowKey t · == key)
  else rows.map ([·])

/-- The objects that rows with the same key make, each under the key. -/
private def keyed (t : Table) (nodes : List Node) (rows : List Row) : List (String × Value) :=
  (Collection.firsts (· == ·) (rows.map (rowKey t))).map fun key ↦
    (key, (Entity.ofRows t nodes (rows.filter (rowKey t · == key))).object t nodes)

/-- The key of an object is that of its first row. -/
private theorem key_ofRows {primary : List String} (hprimary : t.primaryKeys = .ok primary)
    (hn : t.keys.Nodup) (nodes : List Node) (row : Row) :
    Identity.key t ((Entity.ofRows t nodes [row]).object t nodes) = .ok (rowKey t row) := by
  obtain ⟨name, hname⟩ := exists_identity hprimary (Entity.ofRows t [] [row])
  have hlength : ((t.cellsIn "" row).map Prod.snd).length = t.keys.length := by
    rw [List.length_map]
    exact List.length_map _
  rw [rowKey, hname]
  exact (key_named hprimary hn hlength _ _).trans hname

/-- An object is added to those of its key. -/
private theorem add_keyed (hS : Value.Equated S) (hkeys : (t.keys ++ Node.names nodes).Nodup)
    (hapart : Node.KeysApart nodes) (hleaves : Node.AggregatesLeaves nodes)
    (hcount : Node.LimitsCount nodes) {primary : List String}
    (hprimary : t.primaryKeys = .ok primary) (hrows : ∀ row ∈ rows, row.Flat S t nodes)
    (hrow : row.Flat S t nodes) :
    Merge.add t nodes (keyed t nodes rows) ((Entity.ofRows t nodes [row]).object t nodes) =
      .ok (keyed t nodes (rows ++ [row])) := by
  have hbundle (key : String) (hdiffer : key ≠ rowKey t row) :
      (rows ++ [row]).filter (rowKey t · == key) = rows.filter (rowKey t · == key) := by
    have hnot : ¬ (rowKey t row == key) = true := fun h ↦ hdiffer (eq_of_beq h).symm
    exact Collection.filter_snoc_of_neg (p := (rowKey t · == key)) hnot rows
  have hown : (rows ++ [row]).filter (rowKey t · == rowKey t row) =
      rows.filter (rowKey t · == rowKey t row) ++ [row] :=
    Collection.filter_snoc_of_pos (p := (rowKey t · == rowKey t row)) (beq_self_eq_true _) rows
  have hkey := key_ofRows hprimary (List.nodup_append.mp hkeys).1 nodes row
  rw [Merge.add, hkey, keyed, keyed, List.map_append, List.map_singleton,
    Collection.firsts_append, Collection.putAll_cons, Collection.putAll_nil, Collection.put_first]
  simp only [bind, Except.bind]
  by_cases hmem : rowKey t row ∈ Collection.firsts (· == ·) (rows.map (rowKey t))
  · have hthere : (Collection.firsts (· == ·) (rows.map (rowKey t))).any (· == rowKey t row) =
        true := List.any_eq_true.mpr ⟨_, hmem, beq_self_eq_true _⟩
    have hne : rows.filter (rowKey t · == rowKey t row) ≠ [] := by
      obtain ⟨other, hother, hequal⟩ := List.mem_map.mp (Collection.mem_of_mem_firsts hmem)
      exact List.ne_nil_of_mem (List.mem_filter.mpr ⟨hother, beq_iff_eq.mpr hequal⟩)
    have hunite := Entity.unite_ofRows hS hkeys hapart hleaves hcount hne
      (fun row hmem ↦ hrows row (List.mem_of_mem_filter hmem)) hrow
    have hdistinct : (Collection.firsts (· == ·) (rows.map (rowKey t))).Nodup :=
      (Collection.pairwise_firsts _).imp fun hdiffer hequal ↦ by
        rw [beq_iff_eq.mpr hequal] at hdiffer
        cases hdiffer
    rw [if_pos hthere, Keyed.find?_tabulated hdistinct hmem]
    simp only [hunite]
    refine congrArg Except.ok ?_
    rw [← hown]
    exact Keyed.set_tabulated (g := fun key ↦
      (Entity.ofRows t nodes ((rows ++ [row]).filter (rowKey t · == key))).object t nodes)
      hdistinct hmem fun key _ hdiffer ↦ by rw [hbundle key hdiffer]
  · have hnot : ¬ (Collection.firsts (· == ·) (rows.map (rowKey t))).any (· == rowKey t row) =
        true := by
      rw [List.any_eq_true]
      rintro ⟨key, hkey, hequal⟩
      exact hmem (eq_of_beq hequal ▸ hkey)
    have hnone : rows.filter (rowKey t · == rowKey t row) = [] :=
      List.filter_eq_nil_iff.mpr fun other hother hequal ↦ hmem
        (Collection.mem_firsts.mpr (List.mem_map.mpr ⟨other, hother, eq_of_beq hequal⟩))
    rw [if_neg hnot, Keyed.find?_eq_none (by rwa [Keyed.keys_tabulated]), List.map_append,
      List.map_singleton, hown, hnone]
    refine congrArg (fun before ↦ Except.ok (before ++ [_])) (List.map_congr_left fun key hkey ↦ ?_)
    rw [hbundle key fun hequal ↦ hmem (hequal ▸ hkey)]

/-- The objects of rows are merged into those that the rows with the same key make. -/
private theorem foldlM_add_keyed (hS : Value.Equated S)
    (hkeys : (t.keys ++ Node.names nodes).Nodup) (hapart : Node.KeysApart nodes)
    (hleaves : Node.AggregatesLeaves nodes) (hcount : Node.LimitsCount nodes)
    {primary : List String} (hprimary : t.primaryKeys = .ok primary)
    (hrows : ∀ row ∈ rows, row.Flat S t nodes) :
    (rows.map fun row ↦ (Entity.ofRows t nodes [row]).object t nodes).foldlM
      (Merge.add t nodes) [] = .ok (keyed t nodes rows) := by
  induction rows using List.reverseRecOn with
  | nil => rfl
  | append_singleton rows row ih =>
    obtain ⟨hrows, hlast⟩ := List.forall_mem_append.mp hrows
    have hadd := add_keyed hS hkeys hapart hleaves hcount hprimary hrows
      (hlast row List.mem_cons_self)
    have hlast : [(Entity.ofRows t nodes [row]).object t nodes].foldlM (Merge.add t nodes)
        (keyed t nodes rows) = .ok (keyed t nodes (rows ++ [row])) :=
      Succeeding.bind_eq_ok.mpr ⟨_, hadd, rfl⟩
    rw [List.map_append, List.foldlM_append, ih hrows]
    exact hlast

/-- Rows that can be compared make the objects of their bundles. -/
theorem objects_shown (hS : Value.Equated S) (hkeys : (t.keys ++ Node.names nodes).Nodup)
    (hapart : Node.KeysApart nodes) (hleaves : Node.AggregatesLeaves nodes)
    (hcount : Node.LimitsCount nodes) (hskip : Node.OffsetsSkip nodes)
    (hprimary : Node.anyMultiplies nodes = true → ∃ primary, t.primaryKeys = .ok primary)
    (hrows : ∀ row ∈ rows, row.Flat S t nodes) :
    (objects t nodes rows).result =
      .ok ((bundles t nodes rows).map fun bundle ↦
        (Entity.ofRows t nodes bundle).object t nodes) := by
  have hread : rows.mapM (Objects.ofRow t nodes) =
      .ok (rows.map fun row ↦ (Entity.ofRows t nodes [row]).object t nodes) :=
    Succeeding.mapM_of_forall₂ (List.forall₂_map_right_iff.mpr (List.forall₂_same.mpr
      fun row hrow ↦ Objects.ofRow_gathered hS.toComparable hkeys hapart hleaves hcount hskip
        (hrows row hrow)))
  rw [objects, Traced.result_bind]
  change Except.bind (rows.mapM (Objects.ofRow t nodes)) _ = _
  rw [hread, bundles]
  simp only [Except.bind]
  split
  · next hmany =>
    obtain ⟨primary, hprimary⟩ := hprimary hmany
    rw [Merge.byIdentity, Traced.result_bind]
    change Except.bind (List.foldlM _ [] _) _ = _
    rw [foldlM_add_keyed hS hkeys hapart hleaves hcount hprimary hrows]
    change Except.ok ((keyed t nodes rows).map Prod.snd) = _
    rw [keyed, List.map_map, List.map_map]
    rfl
  · rw [List.map_map]
    rfl

/-- What is built has the plan of the relations that were requested. -/
private theorem plan_of_build {c : Catalog} {id : TableId} {r : Request} {q : Query}
    {options : FindOptions} (h : (build c id r).result = .ok (q, nodes, options)) :
    (Plan.root c id (options.related.getD [])).result = .ok nodes := by
  obtain ⟨options', -, h⟩ := Traced.result_bind_eq_ok.mp h
  obtain ⟨nodes', hplan, h⟩ := Traced.result_bind_eq_ok.mp h
  obtain ⟨q', -, h⟩ := Traced.result_bind_eq_ok.mp h
  obtain ⟨rfl, hrest⟩ := Prod.mk.inj (Except.ok.inj h)
  obtain ⟨rfl, rfl⟩ := Prod.mk.inj hrest
  exact hplan

/-- A fetch answers the objects that the bundles of its rows make, and each collection in them is
what its relation shows of the rows that hold the object above: the page of all that these rows
hold, in the order in which it is first seen, unless something keeps the relation from it. -/
theorem outcome_findMany_shown {σ : Type} {c : Catalog} {id : TableId} {r : Request} {q : Query}
    {options : FindOptions} {s : Statement} {client : Client σ} {cache : TemplateCache} {st : σ}
    (hS : Value.Equated S) (hbuild : (build c id r).result = .ok (q, nodes, options))
    (hs : q.compile.result = .ok s) (hown : cache.Own q)
    (hanswer : (client.query s.sql s.params st).1 = .ok rows)
    (hcount : Node.LimitsCount nodes) (hskip : Node.OffsetsSkip nodes)
    (hkeys : ((c.table id).keys ++ Node.names nodes).Nodup) (hapart : Node.KeysApart nodes)
    (hprimary : Node.anyMultiplies nodes = true →
      ∃ primary, (c.table id).primaryKeys = .ok primary)
    (hrows : ∀ row ∈ rows, row.Flat S (c.table id) nodes) :
    ((findMany client c id r).outcome (cache, st)).1 =
        .ok ((bundles (c.table id) nodes rows).map fun bundle ↦
          (Entity.ofRows (c.table id) nodes bundle).object (c.table id) nodes) ∧
      Node.All (fun level _ ↦ level.kind = .many → ∀ bundle ⊆ rows, level.Pages bundle →
        level.shown bundle = level.page (level.distinct bundle)) nodes := by
  have hleaves := Plan.aggregatesLeaves_of_root (plan_of_build hbuild)
  refine ⟨?_, Node.all_shown_eq_page hS fun row hrow ↦ (hrows row hrow).related⟩
  rw [outcome_findMany hbuild hs hown hanswer]
  exact objects_shown hS hkeys hapart hleaves hcount hskip hprimary hrows

/-! ### Shops with wares and pets -/

private def lettered (table : String) : Column :=
  { name := "name", type := "String", table := some table }

private def letters (name : String) : Table := { name, columns := [("name", lettered name)] }

private def leading (kind : RelationKind) (target : TableId) (source name : String) : Relation :=
  { kind, target, fields := [lettered source], references := [lettered name] }

/-- Shops with an owner, who has pets, and with wares. -/
private def market : Catalog :=
  { entries := #[
      { table := letters "shops",
        relations := [("owner", leading .one 1 "shops" "owners"),
          ("wares", leading .many 3 "shops" "wares")] },
      { table := letters "owners", relations := [("pets", leading .many 2 "owners" "pets")] },
      { table := letters "pets" },
      { table := letters "wares" }] }

/-- Options of relations with a limit and an offset, as far as they are given. -/
private def paged (limit offset : Option Int) : Choice :=
  .fields [("limit", .plain (limit.elim .null .int)), ("offset", .plain (offset.elim .null .int))]

private def petsLevel (limit offset : Option Int) : Level :=
  { name := "pets", kind := .many, table := letters "pets", stem := "owner__pets_"
    condition := Expr.eq (.column (lettered "owners")) (.column (lettered "pets"))
    options := { limit, offset }, aggregated := false }

private def waresLevel (limit offset : Option Int) : Level :=
  { name := "wares", kind := .many, table := letters "wares", stem := "wares_"
    condition := Expr.eq (.column (lettered "shops")) (.column (lettered "wares"))
    options := { limit, offset }, aggregated := true }

/-- A request of a shop's wares, and one of the pets of its owner besides. -/
private def waresOnly (wares : Choice) : Request := { related := .tree [("wares", wares)] }

private def waresAndPets (wares pets : Choice) : Request :=
  { related := .tree [("owner", .fields [("with", .tree [("pets", pets)])]), ("wares", wares)] }

private def text (s : String) : Value := .map (Row.named [("name", .text s)])

private def shop (pet : String) (wares : List String) : Row :=
  Row.named [("name", .text "corner"), ("owner_name", .text "ada"), ("owner__pets_name", .text pet),
    ("wares", .list (wares.map fun ware ↦ .tuple [.text ware]))]

/-- A client that answers every query with the same rows. -/
private def showing (rows : List Row) : Client Unit where
  query _ _ st := (.ok rows, st)
  command _ _ st := (.ok (), st)
  now _ := 0
  sleep _ st := st

private def bareCache : TemplateCache := { capacity := 1, positive := Nat.one_pos }

/-- The shops that a fetch answers where its client has these rows. -/
private def shops (r : Request) (rows : List Row) : Except Failure (List Value) :=
  ((findMany (showing rows) market 0 r).outcome (bareCache, ())).1

private def shopWith (pets wares : List String) : Value :=
  .map (Row.named [("name", .text "corner"),
    ("owner", .map (Row.named [("name", .text "ada"), ("pets", .list (pets.map text))])),
    ("wares", .list (wares.map text))])

private def ownerNode (limit offset : Option Int) : Node :=
  .mk { name := "owner", kind := .one, table := letters "owners", stem := "owner_"
        condition := Expr.eq (.column (lettered "shops")) (.column (lettered "owners"))
        options := { related := some [("pets", paged limit offset)] }, aggregated := false }
    [.mk (petsLevel limit offset) []]

/-- A request whose query is built and compiled. -/
private def Fetches (r : Request) (nodes : List Node) : Prop :=
  ∃ q options s, (build market 0 r).result = .ok (q, nodes, options) ∧ q.compile.result = .ok s

private theorem own_bareCache (q : Query) : bareCache.Own q :=
  fun _ _ _ hfound ↦ by cases hfound

private theorem shops_eq {r : Request} {nodes : List Node} (h : Fetches r nodes)
    (rows : List Row) : shops r rows = (objects (market.table 0) nodes rows).result := by
  obtain ⟨q, options, s, hbuild, hs⟩ := h
  exact outcome_findMany hbuild hs (own_bareCache q) rfl

private def threeWares : List String := ["tea", "salt", "rice"]

private theorem flat_shop (limit offset limit' offset' : Option Int) (pet : String)
    (wares : List String) : (shop pet wares).Flat isText (market.table 0)
      [ownerNode limit offset, .mk (waresLevel limit' offset') []] := by
  refine ⟨?_, ⟨?_, ⟨?_, trivial⟩, trivial⟩, ⟨?_, trivial⟩, trivial⟩
  · exact List.forall_mem_singleton.mpr ⟨"corner", rfl⟩
  · exact List.forall_mem_singleton.mpr ⟨"ada", rfl⟩
  · exact List.forall_mem_singleton.mpr ⟨pet, rfl⟩
  · refine ⟨wares.map fun ware ↦ [.text ware], .of_list ?_, ?_⟩
    · exact List.forall₂_map_left_iff.mpr (List.forall₂_map_right_iff.mpr
        (List.forall₂_same.mpr fun _ _ ↦ .tuple _))
    · refine List.forall_mem_map.mpr fun ware _ ↦ ⟨Nat.le_refl 1, ?_⟩
      exact List.forall_mem_singleton.mpr ⟨ware, rfl⟩

/-- Of two pets the first one is shown, and of three wares the second one, which is the page of all
that the rows hold. -/
theorem outcome_findMany_shown_wares :
    shops (waresAndPets (paged (some 1) (some 1)) (paged (some 1) none))
        [shop "rex" threeWares, shop "tom" threeWares] = .ok [shopWith ["rex"] ["salt"]] ∧
      (waresLevel (some 1) (some 1)).shown [shop "rex" threeWares, shop "tom" threeWares] =
        (waresLevel (some 1) (some 1)).page
          ((waresLevel (some 1) (some 1)).distinct
            [shop "rex" threeWares, shop "tom" threeWares]) := by
  have hfetches : Fetches (waresAndPets (paged (some 1) (some 1)) (paged (some 1) none))
      [ownerNode (some 1) none, .mk (waresLevel (some 1) (some 1)) []] := ⟨_, _, _, rfl, rfl⟩
  obtain ⟨q, options, s, hbuild, hs⟩ := hfetches
  have hcount : Node.LimitsCount
      [ownerNode (some 1) none, .mk (waresLevel (some 1) (some 1)) []] :=
    ⟨⟨nofun, ⟨fun _ _ h ↦ by cases h; decide, trivial⟩, trivial⟩,
      ⟨fun _ _ h ↦ by cases h; decide, trivial⟩, trivial⟩
  have hskip : Node.OffsetsSkip
      [ownerNode (some 1) none, .mk (waresLevel (some 1) (some 1)) []] :=
    ⟨⟨nofun, ⟨nofun, trivial⟩, trivial⟩, ⟨fun _ _ h ↦ by cases h; decide, trivial⟩, trivial⟩
  have hapart : Node.KeysApart [ownerNode (some 1) none, .mk (waresLevel (some 1) (some 1)) []] :=
    ⟨⟨by decide, ⟨by decide, trivial⟩, trivial⟩, ⟨by decide, trivial⟩, trivial⟩
  have hflat : ∀ row ∈ [shop "rex" threeWares, shop "tom" threeWares],
      row.Flat isText (market.table 0)
        [ownerNode (some 1) none, .mk (waresLevel (some 1) (some 1)) []] := by
    intro row hrow
    simp only [List.mem_cons, List.not_mem_nil, or_false] at hrow
    rcases hrow with rfl | rfl <;> exact flat_shop _ _ _ _ _ _
  have hquery : ((showing [shop "rex" threeWares, shop "tom" threeWares]).query
      s.sql s.params ()).1 = .ok [shop "rex" threeWares, shop "tom" threeWares] := rfl
  obtain ⟨hanswer, -, ⟨hwares, -⟩, -⟩ := outcome_findMany_shown equated_isText hbuild hs
    (own_bareCache q) hquery hcount hskip (by decide) hapart (fun _ ↦ ⟨["name"], rfl⟩) hflat
  refine ⟨hanswer, hwares rfl _ (List.Subset.refl _) ⟨by decide, nofun, fun _ _ ↦ ?_⟩⟩
  intro row hrow row' hrow'
  simp only [List.mem_cons, List.not_mem_nil, or_false] at hrow hrow'
  rcases hrow with rfl | rfl <;> rcases hrow' with rfl | rfl <;> rfl

/-- A limit of zero is no limit; an offset is not applied to pets; and an offset of wares is applied
to each row alone, so that wares which come in another order are shown in spite of it. -/
theorem not_findMany_shown :
    (shops (waresOnly (paged (some 0) none)) [shop "rex" ["tea", "salt"]] =
        .ok [.map (Row.named [("name", .text "corner"),
          ("wares", .list [text "tea", text "salt"])])] ∧
      (waresLevel (some 0) none).page
        ((waresLevel (some 0) none).distinct [shop "rex" ["tea", "salt"]]) = []) ∧
    (shops (waresAndPets (paged none none) (paged none (some 1)))
          [shop "rex" ["tea"], shop "tom" ["tea"]] = .ok [shopWith ["rex", "tom"] ["tea"]] ∧
      (petsLevel none (some 1)).page
        ((petsLevel none (some 1)).distinct [shop "rex" ["tea"], shop "tom" ["tea"]]) =
          [[.text "tom"]]) ∧
    shops (waresAndPets (paged none (some 1)) (paged none none))
          [shop "rex" ["tea", "salt"], shop "tom" ["salt", "tea"]] =
        .ok [shopWith ["rex", "tom"] ["salt", "tea"]] ∧
      (waresLevel none (some 1)).page ((waresLevel none (some 1)).distinct
        [shop "rex" ["tea", "salt"], shop "tom" ["salt", "tea"]]) = [[.text "salt"]] := by
  have hzero : Fetches (waresOnly (paged (some 0) none)) [.mk (waresLevel (some 0) none) []] :=
    ⟨_, _, _, rfl, rfl⟩
  have hpets : Fetches (waresAndPets (paged none none) (paged none (some 1)))
      [ownerNode none (some 1), .mk (waresLevel none none) []] := ⟨_, _, _, rfl, rfl⟩
  have hwares : Fetches (waresAndPets (paged none (some 1)) (paged none none))
      [ownerNode none none, .mk (waresLevel none (some 1)) []] := ⟨_, _, _, rfl, rfl⟩
  rw [shops_eq hzero, shops_eq hpets, shops_eq hwares]
  exact ⟨⟨rfl, rfl⟩, ⟨rfl, rfl⟩, rfl, rfl⟩

end Fetch

end Columnar
