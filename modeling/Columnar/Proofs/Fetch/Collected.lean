import Columnar.Proofs.Fetch.Found

/-!
# Collections of several rows

What is shown of a relation is told by all rows of an object together, though rows are merged one by
one: with one more row, what the others make of relations is joined with what the row makes of them
(`Node.joinAll_gatherAll`). What is shown is the page of all that the rows hold, unless the limit is
zero, a relation that is not aggregated has an offset, or an aggregated one has an offset while the
rows hold different objects (`Level.shown_eq_page`).
-/

namespace Columnar

variable {S : Value → Prop}

/-- Cells that are equal to the same ones are equal to each other. -/
private theorem equalsAll_meet (hS : Value.Equated S) (xs ys zs : List Value)
    (hx : ∀ v ∈ xs, S v) (hy : ∀ v ∈ ys, S v) (hz : ∀ v ∈ zs, S v)
    (hxy : Value.equalsAll xs ys = true) (hxz : Value.equalsAll xs zs = true) :
    Value.equalsAll ys zs = true :=
  hS.equalsAll_trans hy hx hz (hS.equalsAll_symm hx hy hxy) hxz

namespace Level

variable {level : Level} {row : Row} {rows : List Row}

/-- Of a relation that is not aggregated the first objects that rows hold are shown. -/
theorem shown_eq_kept (hagg : level.aggregated = false) (rows : List Row) :
    level.shown rows = level.kept (level.distinct rows) := by
  have hoffered : level.offered = level.found := funext fun row ↦ offered_eq_found hagg row
  rw [shown, distinct, hoffered]

/-- What rows hold of a relation can be compared. -/
theorem comparable_of_mem_found (hrows : ∀ row ∈ rows, level.CellsIn S row) :
    ∀ cells ∈ rows.flatMap level.found, ∀ v ∈ cells, S v := by
  intro cells hmem
  obtain ⟨row, hrow, hmem⟩ := List.mem_flatMap.mp hmem
  exact (of_mem_found (hrows row hrow) hmem).1.2

/-- Cells that differ from all that rows hold are held by none of the rows. -/
theorem filter_holds_eq_nil (hS : Value.Equated S) (hrows : ∀ row ∈ rows, level.CellsIn S row)
    {cells : List Value} (hcells : ∀ v ∈ cells, S v)
    (h : ∀ other ∈ level.distinct rows, Value.equalsAll other cells = false) :
    rows.filter (level.holds cells) = [] := by
  have hfound := comparable_of_mem_found hrows
  refine List.filter_eq_nil_iff.mpr fun row hrow hholds ↦ ?_
  obtain ⟨own, hown, hequal⟩ := List.any_eq_true.mp hholds
  have hmem : own ∈ rows.flatMap level.found := List.mem_flatMap.mpr ⟨row, hrow, hown⟩
  obtain ⟨other, hother, hsame⟩ := Collection.exists_same_of_firsts
    (P := fun cells : List Value ↦ ∀ v ∈ cells, S v) (fun _ h ↦ hS.equalsAll_refl h) hfound own hmem
  have hotherS := hfound other (Collection.mem_of_mem_firsts hother)
  have hagree := hS.equalsAll_trans hotherS (hfound own hmem) hcells hsame
    (hS.equalsAll_symm hcells (hfound own hmem) hequal)
  rw [h other hother] at hagree
  cases hagree

end Level

namespace Node

variable {nodes : List Node} {row : Row} {rows : List Row}

/-! ### One more row -/

/-- With one more row the object of a relation to one is that of the others, or that of the row. -/
private theorem join_gather_one (hS : Value.Comparable S) {level : Level} {children : List Node}
    (hkind : level.kind = .one) (hagg : level.aggregated = false) (hcounts : level.Counts)
    (hrow : level.CellsIn S row)
    (hbelow : ∀ rows' ⊆ rows, joinAll children (gatherAll children rows')
      (gatherAll children [row]) = gatherAll children (rows' ++ [row])) :
    join (.mk level children) (gather (.mk level children) rows)
        (gather (.mk level children) [row]) =
      gather (.mk level children) (rows ++ [row]) := by
  rw [join_of_one hkind, gather_singleton hS hagg hcounts hrow, gather_one hkind, gather_one hkind,
    List.flatMap_append, List.flatMap_singleton]
  rcases level.found_cases hagg row with hfound | ⟨cells, hfound⟩
  · have hnot : ¬ level.present row = true := by
      rw [Level.present, hfound]
      exact Bool.false_ne_true
    rw [hfound, List.append_nil, Collection.filter_snoc_of_neg hnot]
    cases (rows.flatMap level.found).take 1 <;> rfl
  · have hsome : level.present row = true := by
      rw [Level.present, hfound]
      rfl
    rw [hfound, Collection.filter_snoc_of_pos hsome]
    rcases hall : rows.flatMap level.found with _ | ⟨first, others⟩
    · have hnone : rows.filter level.present = [] := by
        refine List.filter_eq_nil_iff.mpr fun other hother hsome ↦ ?_
        rw [Level.present, List.flatMap_eq_nil_iff.mp hall other hother] at hsome
        cases hsome
      rw [hnone]
      rfl
    · exact congrArg (fun related ↦ [Entity.mk first related])
        (hbelow _ (List.filter_subset_self _))

/-- With one more row each object of a relation to many that is not aggregated is joined with that
of the row, or the latter comes last. -/
private theorem join_gather_many (hS : Value.Equated S) {level : Level} {children : List Node}
    (hkind : level.kind = .many) (hagg : level.aggregated = false) (hcounts : level.Counts)
    (hrows : ∀ row ∈ rows, level.CellsIn S row) (hrow : level.CellsIn S row)
    (hbelow : ∀ rows' ⊆ rows, joinAll children (gatherAll children rows')
      (gatherAll children [row]) = gatherAll children (rows' ++ [row])) :
    join (.mk level children) (gather (.mk level children) rows)
        (gather (.mk level children) [row]) =
      gather (.mk level children) (rows ++ [row]) := by
  have hdistinct : level.distinct (rows ++ [row]) =
      Collection.putAll Value.equalsAll (fun x _ ↦ x) (level.distinct rows) (level.found row) := by
    rw [Level.distinct, List.flatMap_append, Collection.firsts_append, List.flatMap_singleton]
    rfl
  rw [join_of_many hkind, gather_singleton hS.toComparable hagg hcounts hrow, gather_many hkind,
    gather_many hkind, Level.shown_eq_kept hagg, Level.shown_eq_kept hagg, hdistinct]
  rcases level.found_cases hagg row with hfound | ⟨cells, hfound⟩
  · rw [hfound, List.map_nil, Collection.putAll_nil, Collection.putAll_nil, Level.kept_map,
      Level.kept_kept]
    refine List.map_congr_left fun cells _ ↦ ?_
    have hnot : ¬ level.holds cells row = true := by
      rw [Level.holds, hfound]
      exact Bool.false_ne_true
    rw [Collection.filter_snoc_of_neg hnot]
  · have hcells : ∀ v ∈ cells, S v :=
      (Level.of_mem_found hrow (hfound ▸ List.mem_cons_self)).1.2
    have hall := Level.comparable_of_mem_found hrows
    have hS' : ∀ other ∈ level.distinct rows, ∀ v ∈ other, S v := fun other hother ↦
      hall other (Collection.mem_of_mem_firsts hother)
    have hholds (other : List Value) : level.holds other row = Value.equalsAll other cells := by
      rw [Level.holds, hfound, List.any_cons, List.any_nil, Bool.or_false]
    rw [hfound, List.map_singleton, ← Level.kept_map, ← Level.kept_map, ← Level.kept_putAll]
    refine congrArg level.kept (Collection.put_map (fun _ _ ↦ rfl) ?_ ?_ ?_ ?_)
    · intro other _ hsame
      rw [Collection.filter_snoc_of_pos ((hholds other).trans hsame)]
      exact congrArg (Entity.mk other) (hbelow _ (List.filter_subset_self _))
    · intro other _ hdiffer
      have hnot : ¬ level.holds other row = true := by
        rw [hholds, hdiffer]
        exact Bool.false_ne_true
      rw [Collection.filter_snoc_of_neg hnot]
    · refine (Collection.pairwise_firsts _).imp_of_mem fun {x y} hx hy hdiffer hsame ↦ ?_
      refine Bool.eq_false_iff.mpr fun hsame' ↦ ?_
      have hagree := hS.equalsAll_trans (hS' x hx) hcells (hS' y hy) hsame
        (hS.equalsAll_symm (hS' y hy) hcells hsame')
      rw [hdiffer] at hagree
      cases hagree
    · intro hdiffer
      have hself : level.holds cells row = true :=
        (hholds cells).trans (hS.equalsAll_refl hcells)
      rw [Collection.filter_snoc_of_pos hself,
        Level.filter_holds_eq_nil hS hrows hcells hdiffer]
      rfl

/-- With one more row the objects of an aggregated relation are those shown before and those that
the row shows, cut again. -/
private theorem join_gather_leaves (hS : Value.Equated S) {level : Level}
    (hkind : level.kind = .many) (hrows : ∀ row ∈ rows, level.CellsIn S row)
    (hrow : level.CellsIn S row) :
    join (.mk level []) (gather (.mk level []) rows) (gather (.mk level []) [row]) =
      gather (.mk level []) (rows ++ [row]) := by
  have hgather (rows : List Row) :
      gather (.mk level []) rows = (level.shown rows).map (Entity.mk · []) :=
    gather_many hkind [] rows
  have hjoin : (Collection.putAll Value.equalsAll (fun x _ ↦ x) (level.shown rows)
      (level.shown [row])).map (Entity.mk · []) =
        Collection.putAll Entity.same (Entity.join []) ((level.shown rows).map (Entity.mk · []))
          ((level.shown [row]).map (Entity.mk · [])) :=
    Collection.map_putAll (fun _ _ ↦ rfl) fun _ _ ↦ rfl
  have hoffered : ∀ cells ∈ level.offered row, ∀ v ∈ cells, S v := fun cells hmem ↦
    (Level.of_mem_found hrow (Level.mem_found_of_mem_offered hmem)).1.2
  have hothers : ∀ cells ∈ Collection.firsts Value.equalsAll (rows.flatMap level.offered),
      ∀ v ∈ cells, S v := by
    intro cells hmem
    obtain ⟨other, hother, hmem⟩ := List.mem_flatMap.mp (Collection.mem_of_mem_firsts hmem)
    exact (Level.of_mem_found (hrows other hother) (Level.mem_found_of_mem_offered hmem)).1.2
  have hcut : level.kept (Collection.putAll Value.equalsAll (fun x _ ↦ x)
      (Collection.firsts Value.equalsAll (rows.flatMap level.offered)) (level.offered row)) =
        level.kept (Collection.putAll Value.equalsAll (fun x _ ↦ x)
          (Collection.firsts Value.equalsAll (rows.flatMap level.offered))
          (level.kept (level.offered row))) :=
    Level.kept_putAll_kept (fun _ _ _ ↦ rfl) (fun _ h ↦ hS.equalsAll_refl h) (equalsAll_meet hS)
      hothers hoffered (level.pairwise_offered row)
  rw [join_of_many hkind, hgather, hgather, hgather, ← hjoin, Level.kept_map,
    level.shown_singleton, Level.shown, ← Level.kept_putAll, ← hcut, Level.shown,
    List.flatMap_append, Collection.firsts_append, List.flatMap_singleton]

/-- What rows make of relations is joined with what one more row makes. -/
theorem joinAll_gatherAll (hS : Value.Equated S) (hleaves : AggregatesLeaves nodes)
    (hcount : LimitsCount nodes) (hrows : ∀ row ∈ rows, HaveCells S row nodes)
    (hrow : HaveCells S row nodes) :
    joinAll nodes (gatherAll nodes rows) (gatherAll nodes [row]) =
      gatherAll nodes (rows ++ [row]) := by
  induction nodes using forest_induction generalizing rows with
  | nil => rfl
  | cons level children rest ihChildren ihRest =>
    obtain ⟨⟨hleaf, hleavesBelow⟩, hleavesRest⟩ := hleaves
    obtain ⟨⟨hcounts, hcountBelow⟩, hcountRest⟩ := hcount
    obtain ⟨⟨hcells, hcellsBelow⟩, hcellsRest⟩ := hrow
    have hrowsHere : ∀ row ∈ rows, level.CellsIn S row := fun row hmem ↦ (hrows row hmem).1.1
    have hbelow : ∀ rows' ⊆ rows, joinAll children (gatherAll children rows')
        (gatherAll children [row]) = gatherAll children (rows' ++ [row]) := fun rows' hsub ↦
      ihChildren hleavesBelow hcountBelow (fun row hmem ↦ (hrows row (hsub hmem)).1.2) hcellsBelow
    have hhere : join (.mk level children) (gather (.mk level children) rows)
        (gather (.mk level children) [row]) = gather (.mk level children) (rows ++ [row]) := by
      cases hagg : level.aggregated with
      | true =>
        obtain ⟨hmany, rfl⟩ := hleaf hagg
        exact join_gather_leaves hS hmany hrowsHere hcells
      | false =>
        cases hkind : level.kind with
        | one => exact join_gather_one hS.toComparable hkind hagg hcounts hcells hbelow
        | many => exact join_gather_many hS hkind hagg hcounts hrowsHere hcells hbelow
    have hrest := ihRest hleavesRest hcountRest (fun row hmem ↦ (hrows row hmem).2) hcellsRest
    change join (.mk level children) (gather (.mk level children) rows)
      (gather (.mk level children) [row]) :: joinAll rest _ _ = _
    rw [hhere, hrest]
    rfl

end Node

/-! ### Pages -/

namespace Level

variable {level : Level} {rows : List Row}

/-- A relation shows a page of all that rows hold of it: its limit is not zero; where it is not
aggregated it has no offset; and where it is aggregated and has one, each row holds the same. -/
structure Pages (level : Level) (rows : List Row) : Prop where
  limit : level.options.limit ≠ some 0
  start : level.aggregated = false → FindOptions.counted level.options.offset = none
  alike : level.aggregated = true → FindOptions.counted level.options.offset ≠ none →
    ∀ row ∈ rows, ∀ row' ∈ rows, level.distinct [row] = level.distinct [row']

/-- Of what is behind its offset a page has what a relation keeps, unless the limit is zero. -/
private theorem page_eq_kept {α : Type} (hkind : level.kind = .many)
    (hlimit : level.options.limit ≠ some 0) (items : List α) :
    level.page items = level.kept (items.drop (level.options.offset.getD 0).toNat) := by
  rw [page, kept, hkind]
  rcases h : level.options.limit with _ | n
  · rfl
  · have hzero : n ≠ 0 := by
      rintro rfl
      exact hlimit h
    rw [FindOptions.counted, Option.filter_some, if_pos (decide_eq_true hzero)]

/-- An offset that does not count drops nothing. -/
private theorem drop_offset {α : Type} (h : FindOptions.counted level.options.offset = none)
    (items : List α) : items.drop (level.options.offset.getD 0).toNat = items := by
  rcases hoffset : level.options.offset with _ | n
  · rfl
  · rw [hoffset, FindOptions.counted, Option.filter_some] at h
    split at h
    · cases h
    · next hzero =>
      obtain rfl : n = 0 := of_not_not fun hn ↦ hzero (decide_eq_true hn)
      rfl

/-- What is first seen in rows is what is first seen among the first of each row. -/
private theorem distinct_eq (hS : Value.Equated S) (hrows : ∀ row ∈ rows, level.CellsIn S row) :
    Collection.firsts Value.equalsAll (rows.flatMap fun row ↦ level.distinct [row]) =
      level.distinct rows := by
  simp only [distinct_singleton]
  exact Collection.firsts_flatMap_firsts (P := fun cells : List Value ↦ ∀ v ∈ cells, S v)
    (fun _ h ↦ hS.equalsAll_refl h) (equalsAll_meet hS) fun row hrow cells hmem ↦
      (of_mem_found (hrows row hrow) hmem).1.2

/-- Where all rows hold the same, an offset leaves what it leaves of one row. -/
private theorem firsts_offered_of_alike (hS : Value.Equated S) (hagg : level.aggregated = true)
    (hrows : ∀ row ∈ rows, level.CellsIn S row)
    (halike : ∀ row ∈ rows, ∀ row' ∈ rows, level.distinct [row] = level.distinct [row']) :
    Collection.firsts Value.equalsAll (rows.flatMap level.offered) =
      (level.distinct rows).drop (level.options.offset.getD 0).toNat := by
  rw [← distinct_eq hS hrows]
  rcases rows with _ | ⟨row, others⟩
  · exact List.drop_nil.symm
  · have hrefl : ∀ cells ∈ level.distinct [row], Value.equalsAll cells cells = true := by
      intro cells hmem
      rw [distinct_singleton] at hmem
      exact hS.equalsAll_refl (of_mem_found (hrows row List.mem_cons_self)
        (Collection.mem_of_mem_firsts hmem)).1.2
    have hsame : ∀ row' ∈ row :: others, level.distinct [row'] = level.distinct [row] :=
      fun row' hmem ↦ halike row' hmem row List.mem_cons_self
    have hoffered : ∀ row' ∈ row :: others, level.offered row' = level.offered row := by
      intro row' hmem
      rw [offered, offered, hsame row' hmem]
    have hapart : (level.distinct [row]).Pairwise fun a b ↦ Value.equalsAll a b = false :=
      Collection.pairwise_firsts _
    have hbehind : level.offered row =
        (level.distinct [row]).drop (level.options.offset.getD 0).toNat := by
      rw [offered, unskipped, if_pos hagg]
    rw [Collection.firsts_flatMap_eq hrefl hapart hsame, ← hbehind]
    refine Collection.firsts_flatMap_eq (fun cells hmem ↦ hrefl cells ?_)
      (level.pairwise_offered row) hoffered
    rw [hbehind] at hmem
    exact List.mem_of_mem_drop hmem

/-- Where it is that of all rows, the page of a relation is what it shows. -/
theorem shown_eq_page (hS : Value.Equated S) (hkind : level.kind = .many)
    (hrows : ∀ row ∈ rows, level.CellsIn S row) (h : level.Pages rows) :
    level.shown rows = level.page (level.distinct rows) := by
  rw [page_eq_kept hkind h.limit, shown]
  refine congrArg level.kept ?_
  cases hagg : level.aggregated with
  | false =>
    have hoffered : level.offered = level.found := funext fun row ↦ offered_eq_found hagg row
    rw [drop_offset (h.start hagg), hoffered]
    rfl
  | true =>
    by_cases hoffset : FindOptions.counted level.options.offset = none
    · have hoffered : level.offered = fun row ↦ level.distinct [row] := by
        funext row
        rw [offered, unskipped, if_pos hagg, drop_offset hoffset]
      rw [drop_offset hoffset, hoffered]
      exact distinct_eq hS hrows
    · exact firsts_offered_of_alike hS hagg hrows (h.alike hagg hoffset)

end Level

/-- Relations show the pages of all that rows hold of them, as far as nothing keeps them from it. -/
theorem Node.all_shown_eq_page (hS : Value.Equated S) {nodes : List Node} {rows : List Row}
    (hrows : ∀ row ∈ rows, HaveCells S row nodes) :
    All (fun level _ ↦ level.kind = .many → ∀ bundle ⊆ rows, level.Pages bundle →
      level.shown bundle = level.page (level.distinct bundle)) nodes := by
  induction nodes using forest_induction with
  | nil => exact trivial
  | cons level children rest ihChildren ihRest =>
    refine ⟨⟨fun hkind bundle hsub hpages ↦ ?_, ihChildren fun row hrow ↦ (hrows row hrow).1.2⟩,
      ihRest fun row hrow ↦ (hrows row hrow).2⟩
    exact Level.shown_eq_page hS hkind (fun row hrow ↦ (hrows row (hsub hrow)).1.1) hpages

end Columnar
