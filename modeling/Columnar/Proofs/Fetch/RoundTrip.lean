import Columnar.Proofs.Fetch.Planned
import Columnar.Proofs.Fetch.Whole

/-!
# Round trip

Objects that were flattened to rows come back from the rows in any order, whole, in the order of
their first rows, and with related objects in some order (`Fetch.objects_of_rows`). Row by row,
what has been found is a part of each object that had a row (`Found`).
-/

namespace Columnar

/-! ### Identity -/

section Identity

variable {t : Table}

private theorem mem_keys_of_keysOf {entries keys : List String} (h : t.keysOf entries = .ok keys)
    {k : String} (hk : k ∈ keys) : k ∈ t.keys := by
  induction entries generalizing keys with
  | nil =>
    cases h
    cases hk
  | cons entry rest ih =>
    rw [Table.keysOf] at h
    rcases hentry : t.keyOf entry with e | key <;> rw [hentry] at h
    · cases h
    · rcases hrest : t.keysOf rest with e | keys <;> rw [hrest] at h
      · cases h
      · cases h
        rcases List.mem_cons.mp hk with rfl | hk
        · rw [Table.keyOf] at hentry
          split at hentry
          · next hcontains =>
            cases hentry
            exact List.contains_iff_mem.mp hcontains
          · split at hentry
            · next found hfound =>
              cases hentry
              exact List.mem_map.mpr ⟨found, List.mem_of_find?_eq_some hfound, rfl⟩
            · cases hentry
        · exact ih hrest hk

/-- The primary key is made of columns. -/
private theorem mem_keys_of_primaryKeys {keys : List String} (h : t.primaryKeys = .ok keys)
    {k : String} (hk : k ∈ keys) : k ∈ t.keys := by
  rw [Table.primaryKeys] at h
  rcases hkeys : t.keysOf t.options.primaryKey with e | declared <;> rw [hkeys] at h
  · cases h
  · cases h
    split at hk
    · exact List.mem_of_mem_take hk
    · exact mem_keys_of_keysOf hkeys hk

/-- The primary key of a row is that of its cells, whatever else the row holds. -/
theorem key_named {keys : List String} (hprimary : t.primaryKeys = .ok keys)
    (hn : t.keys.Nodup) {cells : List Value} (hlen : cells.length = t.keys.length)
    (others others' : List (String × Value)) :
    Identity.key t (.map (Row.named (t.keys.zip cells ++ others))) =
      Identity.key t (.map (Row.named (t.keys.zip cells ++ others'))) := by
  have hget : ∀ k ∈ keys, Value.get k (Row.named (t.keys.zip cells ++ others)) =
      Value.get k (Row.named (t.keys.zip cells ++ others')) := by
    intro k hk
    have hmem : k ∈ Keyed.keys (t.keys.zip cells) := by
      rw [keys_zip hlen]
      exact mem_keys_of_primaryKeys hprimary hk
    obtain ⟨p, hp, rfl⟩ := List.mem_map.mp hmem
    rw [Row.get_named, Row.get_named, find?_cells hlen hn hp, find?_cells hlen hn hp]
  have hparts : (keys.map fun k ↦
      Identity.part (Value.get k (Row.named (t.keys.zip cells ++ others)))) =
      keys.map fun k ↦ Identity.part (Value.get k (Row.named (t.keys.zip cells ++ others'))) :=
    List.map_congr_left fun k hk ↦ by rw [hget k hk]
  rw [Identity.key, Identity.key, hprimary]
  change (if keys.isEmpty = true then Except.ok "" else Except.ok _) =
    if keys.isEmpty = true then Except.ok "" else Except.ok _
  rw [hparts]

/-- Where the primary key is valid, every object has an identity. -/
theorem exists_identity {keys : List String} (hprimary : t.primaryKeys = .ok keys)
    (e : Entity) : ∃ name, e.identity t = .ok name := by
  rw [Entity.identity, Identity.key, hprimary]
  change ∃ name, (if keys.isEmpty = true then Except.ok "" else Except.ok _) = Except.ok name
  split <;> exact ⟨_, rfl⟩

end Identity

/-! ### Row by row -/

/-- Objects of a table that can be fetched with their relations and told apart. -/
private structure Fetchable (S : Value → Prop) (t : Table) (nodes : List Node)
    (roots : List Entity) : Prop where
  regular : Node.Regular nodes
  keys : (t.keys ++ Node.names nodes).Nodup
  flat : (t.keys ++ Node.flatNames nodes).Nodup
  primary : ∃ keys, t.primaryKeys = .ok keys
  fits : ∀ e ∈ roots, e.Fits S t nodes
  distinct : (roots.map (Entity.identity t)).Nodup

/-- The part of an object that a row shows, given with what was picked for the row. -/
private def shown (x : Entity × List (List Entity)) : Entity := .mk x.1.cells x.2

/-- One of two objects is met before the other. -/
private def Before (done : List (Entity × List (List Entity))) (a b : Entity) : Prop :=
  ∃ before after, done = before ++ after ∧ a ∈ before.map Prod.fst ∧ b ∉ before.map Prod.fst

/-- What has been found after some rows: each object that was met, with a part of it that holds
whatever was picked, in the order in which they were met. -/
private structure Found (t : Table) (nodes : List Node) (roots : List Entity)
    (done : List (Entity × List (List Entity))) (found : List (Entity × Entity)) : Prop where
  known : ∀ x ∈ found, x.1 ∈ roots ∧ x.1.PartOf nodes x.2
  once : (found.map Prod.fst).Nodup
  met : ∀ x ∈ found, x.1 ∈ done.map Prod.fst
  holds : ∀ y ∈ done, ∃ x ∈ found, x.1 = y.1 ∧ (shown y).Below nodes x.2
  ordered : (found.map Prod.fst).Pairwise (Before done)

/-- What has been found, as the merge keeps it. -/
private def grouped (t : Table) (nodes : List Node) (name : Entity → String)
    (found : List (Entity × Entity)) : List (String × Value) :=
  found.map fun x ↦ (name x.1, x.2.object t nodes)

section Run

variable {S : Value → Prop} {t : Table} {nodes : List Node} {roots : List Entity}

private theorem Before.snoc {done : List (Entity × List (List Entity))} {a b : Entity}
    (h : Before done a b) (y : Entity × List (List Entity)) : Before (done ++ [y]) a b := by
  obtain ⟨before, after, rfl, ha, hb⟩ := h
  exact ⟨before, after ++ [y], List.append_assoc .., ha, hb⟩

/-- Part of an object has the object's identity. -/
private theorem key_object (h : Fetchable S t nodes roots) {e p : Entity} (he : e ∈ roots)
    (hp : p.cells = e.cells) : Identity.key t (p.object t nodes) = e.identity t := by
  obtain ⟨keys, hprimary⟩ := h.primary
  have hlen : e.cells.length = t.keys.length := by rw [(h.fits e he).1.1, t.length_keys]
  rw [Entity.object, Entity.entries, hp]
  exact key_named hprimary (List.nodup_append.mp h.keys).1 hlen _ _

variable {name : Entity → String} {done : List (Entity × List (List Entity))}
  {found : List (Entity × Entity)} {y : Entity × List (List Entity)}

/-- Objects of one identity are the same. -/
private theorem eq_of_name (h : Fetchable S t nodes roots)
    (hname : ∀ e ∈ roots, e.identity t = .ok (name e)) {a b : Entity} (ha : a ∈ roots)
    (hb : b ∈ roots) (hab : name a = name b) : a = b := by
  apply List.inj_on_of_nodup_map h.distinct ha hb
  rw [hname a ha, hname b hb, hab]

/-- A row of an object that was met adds what it shows to the part that was found. -/
private theorem exists_add_met (hS : Value.Comparable S) (h : Fetchable S t nodes roots)
    (hname : ∀ e ∈ roots, e.identity t = .ok (name e)) (hfound : Found t nodes roots done found)
    (hy : y.1 ∈ roots) (hpick : y.1.PartOf nodes (shown y)) (hmet : y.1 ∈ found.map Prod.fst) :
    ∃ found', Merge.add t nodes (grouped t nodes name found) ((shown y).object t nodes) =
        .ok (grouped t nodes name found') ∧
      Found t nodes roots (done ++ [y]) found' := by
  obtain ⟨⟨e, p⟩, hmem, heq⟩ := List.mem_map.mp hmet
  obtain rfl : e = y.1 := heq
  obtain ⟨before, after, rfl⟩ := List.append_of_mem hmem
  obtain ⟨-, hpart⟩ := hfound.known _ hmem
  obtain ⟨r, hunite, hpartR, hbelow, hbelow'⟩ :=
    Entity.unites hS h.regular h.keys (h.fits _ hy) p (shown y) hpart hpick
  have hfst (q : Entity) : (before ++ (y.1, q) :: after).map Prod.fst =
      before.map Prod.fst ++ y.1 :: after.map Prod.fst := by
    rw [List.map_append, List.map_cons]
  have hfirst : name y.1 ∉ Keyed.keys (grouped t nodes name before) := by
    intro hkey
    obtain ⟨entry, hentry, heq⟩ := List.mem_map.mp hkey
    obtain ⟨x, hx, rfl⟩ := List.mem_map.mp hentry
    have hsame := eq_of_name h hname (hfound.known x (by simp [hx])).1 hy heq
    have honce := hfound.once
    rw [hfst, List.nodup_append] at honce
    exact honce.2.2 x.1 (List.mem_map.mpr ⟨x, hx, rfl⟩) y.1 (by simp) hsame
  have hgrouped (q : Entity) : grouped t nodes name (before ++ (y.1, q) :: after) =
      grouped t nodes name before ++ (name y.1, q.object t nodes) ::
        grouped t nodes name after := by
    rw [grouped, List.map_append, List.map_cons]
    rfl
  refine ⟨before ++ (y.1, r) :: after, ?_, ?_, ?_, ?_, ?_, ?_⟩
  · rw [Merge.add, key_object h hy hpick.1, hname y.1 hy, hgrouped, hgrouped]
    simp only [bind, Except.bind, Keyed.find?_between hfirst, hunite, Keyed.set_between hfirst]
    rfl
  · intro x hx
    rcases List.mem_append.mp hx with hx | hx
    · exact hfound.known x (by simp [hx])
    · rcases List.mem_cons.mp hx with rfl | hx
      · exact ⟨hy, hpartR⟩
      · exact hfound.known x (by simp [hx])
  · rw [hfst, ← hfst p]
    exact hfound.once
  · intro x hx
    have hmem : x.1 ∈ (before ++ (y.1, p) :: after).map Prod.fst := by
      rw [hfst, ← hfst r]
      exact List.mem_map.mpr ⟨x, hx, rfl⟩
    obtain ⟨x', hx', heq⟩ := List.mem_map.mp hmem
    rw [List.map_append, ← heq]
    exact List.mem_append_left _ (hfound.met x' hx')
  · have hholds {z : Entity} {a : Entity} {x : Entity × Entity}
        (hx : x ∈ before ++ (y.1, p) :: after) (hsame : x.1 = a) (hz : z.Below nodes x.2) :
        ∃ x ∈ before ++ (y.1, r) :: after, x.1 = a ∧ z.Below nodes x.2 := by
      rcases List.mem_append.mp hx with hx | hx
      · exact ⟨x, by simp [hx], hsame, hz⟩
      · rcases List.mem_cons.mp hx with rfl | hx
        · exact ⟨(y.1, r), by simp, hsame, hz.trans hbelow⟩
        · exact ⟨x, by simp [hx], hsame, hz⟩
    intro y' hy'
    rcases List.mem_append.mp hy' with hy' | hy'
    · obtain ⟨x, hx, hsame, hz⟩ := hfound.holds y' hy'
      exact hholds hx hsame hz
    · obtain rfl := List.mem_singleton.mp hy'
      exact ⟨(y'.1, r), by simp, rfl, hbelow'⟩
  · rw [hfst, ← hfst p]
    exact hfound.ordered.imp fun hab ↦ hab.snoc y

/-- A row of an object that was not met adds it at the end. -/
private theorem exists_add_new (hS : Value.Comparable S) (h : Fetchable S t nodes roots)
    (hname : ∀ e ∈ roots, e.identity t = .ok (name e)) (hfound : Found t nodes roots done found)
    (hy : y.1 ∈ roots) (hpick : y.1.PartOf nodes (shown y)) (hnew : y.1 ∉ found.map Prod.fst) :
    ∃ found', Merge.add t nodes (grouped t nodes name found) ((shown y).object t nodes) =
        .ok (grouped t nodes name found') ∧
      Found t nodes roots (done ++ [y]) found' := by
  have hnone : Keyed.find? (name y.1) (grouped t nodes name found) = none := by
    refine Keyed.find?_eq_none fun hmem ↦ ?_
    obtain ⟨entry, hentry, heq⟩ := List.mem_map.mp hmem
    obtain ⟨x, hx, rfl⟩ := List.mem_map.mp hentry
    have hsame := eq_of_name h hname (hfound.known x hx).1 hy heq
    exact hnew (List.mem_map.mpr ⟨x, hx, hsame⟩)
  refine ⟨found ++ [(y.1, shown y)], ?_, ?_, ?_, ?_, ?_, ?_⟩
  · rw [Merge.add, key_object h hy hpick.1, hname y.1 hy]
    simp only [bind, Except.bind, hnone]
    rw [grouped, grouped, List.map_append]
    rfl
  · intro x hx
    rcases List.mem_append.mp hx with hx | hx
    · exact hfound.known x hx
    · obtain rfl := List.mem_singleton.mp hx
      exact ⟨hy, hpick⟩
  · rw [List.map_append, List.map_cons, List.map_nil, ← List.concat_eq_append, List.nodup_concat]
    exact ⟨hnew, hfound.once⟩
  · intro x hx
    rw [List.map_append, List.mem_append]
    rcases List.mem_append.mp hx with hx | hx
    · exact .inl (hfound.met x hx)
    · obtain rfl := List.mem_singleton.mp hx
      exact .inr (by simp)
  · intro y' hy'
    rcases List.mem_append.mp hy' with hy' | hy'
    · obtain ⟨x, hx, hsame, hbelow⟩ := hfound.holds y' hy'
      exact ⟨x, by simp [hx], hsame, hbelow⟩
    · obtain rfl := List.mem_singleton.mp hy'
      exact ⟨(y'.1, shown y'), by simp, rfl, hpick.below_refl hS (h.fits _ hy)⟩
  · rw [List.map_append, List.pairwise_append]
    refine ⟨hfound.ordered.imp fun hab ↦ hab.snoc y, List.pairwise_singleton _ _, ?_⟩
    intro a ha b hb
    obtain rfl : b = y.1 := by simpa using hb
    obtain ⟨x, hx, rfl⟩ := List.mem_map.mp ha
    refine ⟨done, [y], rfl, hfound.met x hx, fun hmem ↦ hnew ?_⟩
    obtain ⟨y', hy', hsame⟩ := List.mem_map.mp hmem
    obtain ⟨x', hx', hsame', -⟩ := hfound.holds y' hy'
    exact List.mem_map.mpr ⟨x', hx', hsame'.trans hsame⟩

/-- Every row adds what it shows of its object. -/
private theorem exists_add (hS : Value.Comparable S) (h : Fetchable S t nodes roots)
    (hname : ∀ e ∈ roots, e.identity t = .ok (name e)) (hfound : Found t nodes roots done found)
    (hy : y.1 ∈ roots) (hpick : y.2 ∈ Node.picks nodes y.1.related) :
    ∃ found', Merge.add t nodes (grouped t nodes name found) ((shown y).object t nodes) =
        .ok (grouped t nodes name found') ∧
      Found t nodes roots (done ++ [y]) found' := by
  have hpart : y.1.PartOf nodes (shown y) :=
    ⟨rfl, Node.allPart_of_mem_picks (h.fits _ hy).2 hpick⟩
  by_cases hmet : y.1 ∈ found.map Prod.fst
  · exact exists_add_met hS h hname hfound hy hpart hmet
  · exact exists_add_new hS h hname hfound hy hpart hmet

/-- After all rows what they show has been found. -/
private theorem exists_foldlM_add (hS : Value.Comparable S) (h : Fetchable S t nodes roots)
    (hname : ∀ e ∈ roots, e.identity t = .ok (name e)) (hfound : Found t nodes roots done found)
    {later : List (Entity × List (List Entity))}
    (hlater : ∀ y ∈ later, y.1 ∈ roots ∧ y.2 ∈ Node.picks nodes y.1.related) :
    ∃ found', (later.map fun y ↦ (shown y).object t nodes).foldlM (Merge.add t nodes)
        (grouped t nodes name found) = .ok (grouped t nodes name found') ∧
      Found t nodes roots (done ++ later) found' := by
  induction later generalizing done found with
  | nil =>
    rw [List.append_nil]
    exact ⟨found, rfl, hfound⟩
  | cons y later ih =>
    obtain ⟨hy, hpick⟩ := hlater y (by simp)
    obtain ⟨found', hadd, hfound'⟩ := exists_add hS h hname hfound hy hpick
    obtain ⟨found'', hfold, hfound''⟩ := ih hfound' fun y' hy' ↦ hlater y' (by simp [hy'])
    rw [List.append_assoc] at hfound''
    refine ⟨found'', ?_, hfound''⟩
    rw [List.map_cons, List.foldlM_cons, hadd]
    exact hfold

end Run

/-! ### All rows -/

/-- Some row of one object comes before all rows of another. -/
def Entity.Precedes (t : Table) (nodes : List Node) (rows : List Row) (a b : Entity) : Prop :=
  ∃ before after, rows = before ++ after ∧ (∃ row ∈ before, row ∈ a.rows t nodes) ∧
    ∀ row ∈ before, row ∉ b.rows t nodes

section Rows

variable {S : Value → Prop} {t : Table} {nodes : List Node} {roots : List Entity}

/-- The flat row that was made of an object with what was picked for it. -/
private def rowOf (t : Table) (nodes : List Node) (x : Entity × List (List Entity)) : Row :=
  x.1.row t nodes x.2

private theorem key_rowOf (h : Fetchable S t nodes roots) {x : Entity × List (List Entity)}
    (hx : x.1 ∈ roots) : Identity.key t (.map (rowOf t nodes x)) = x.1.identity t := by
  obtain ⟨keys, hprimary⟩ := h.primary
  have hlen : x.1.cells.length = t.keys.length := by rw [(h.fits _ hx).1.1, t.length_keys]
  exact key_named hprimary (List.nodup_append.mp h.keys).1 hlen _ _

/-- Objects come in the order of their first rows. -/
private theorem precedes_of_before (h : Fetchable S t nodes roots)
    {all : List (Entity × List (List Entity))}
    (hall : ∀ x ∈ all, x.1 ∈ roots ∧ x.2 ∈ Node.picks nodes x.1.related) {a b : Entity}
    (hb : b ∈ roots) (hab : Before all a b) :
    Entity.Precedes t nodes (all.map (rowOf t nodes)) a b := by
  obtain ⟨before, after, rfl, hmem, hnot⟩ := hab
  refine ⟨before.map (rowOf t nodes), after.map (rowOf t nodes), List.map_append, ?_, ?_⟩
  · obtain ⟨x, hx, rfl⟩ := List.mem_map.mp hmem
    have hpick := (hall x (by simp [hx])).2
    exact ⟨_, List.mem_map.mpr ⟨x, hx, rfl⟩, List.mem_map.mpr ⟨x.2, hpick, rfl⟩⟩
  · intro row hrow hrow'
    obtain ⟨x, hx, rfl⟩ := List.mem_map.mp hrow
    obtain ⟨q, -, heq⟩ := List.mem_map.mp hrow'
    have hroot := (hall x (by simp [hx])).1
    -- equal rows have one identity
    have hsame : b.identity t = x.1.identity t := by
      rw [← key_rowOf h hroot, ← heq]
      exact (key_rowOf h (x := (b, q)) hb).symm
    obtain rfl := List.inj_on_of_nodup_map h.distinct hb hroot hsame
    exact hnot (List.mem_map.mpr ⟨x, hx, rfl⟩)

/-- Rows in any order are those of objects with picks in some order. -/
private theorem exists_all {rows : List Row}
    (h : rows.Perm (roots.flatMap (Entity.rows t nodes))) :
    ∃ all : List (Entity × List (List Entity)), rows = all.map (rowOf t nodes) ∧
      all.Perm (roots.flatMap fun e ↦ (Node.picks nodes e.related).map (e, ·)) := by
  have hmap : roots.flatMap (Entity.rows t nodes) =
      (roots.flatMap fun e ↦ (Node.picks nodes e.related).map (e, ·)).map (rowOf t nodes) := by
    rw [List.map_flatMap]
    refine congrArg (roots.flatMap ·) (funext fun e ↦ ?_)
    rw [List.map_map]
    rfl
  rw [hmap] at h
  have hcomp := congrFun (congrFun (List.eq_map_comp_perm (rowOf t nodes)) rows)
    (roots.flatMap fun e ↦ (Node.picks nodes e.related).map (e, ·))
  exact hcomp.mpr h

/-- Each row is rebuilt into what it shows. -/
private theorem mapM_ofRow (hS : Value.Comparable S) (h : Fetchable S t nodes roots)
    {all : List (Entity × List (List Entity))}
    (hall : ∀ x ∈ all, x.1 ∈ roots ∧ x.2 ∈ Node.picks nodes x.1.related) :
    (all.map (rowOf t nodes)).mapM (Objects.ofRow t nodes) =
      .ok (all.map fun x ↦ (shown x).object t nodes) := by
  induction all with
  | nil => rfl
  | cons x all ih =>
    obtain ⟨hroot, hpick⟩ := hall x (by simp)
    obtain ⟨hcells, hfit⟩ := h.fits x.1 hroot
    obtain ⟨hfit, hsingle⟩ := Node.fit_of_mem_picks hfit hpick
    have hrow := Objects.ofRow_row hS h.regular h.keys h.flat hcells hfit hsingle
    rw [List.map_cons, List.mapM_cons]
    change (do
      let y ← Objects.ofRow t nodes (x.1.row t nodes x.2)
      let ys ← (all.map (rowOf t nodes)).mapM (Objects.ofRow t nodes)
      return y :: ys) = _
    rw [hrow, ih fun x hx ↦ hall x (by simp [hx])]
    rfl

/-- What has been found after all rows is every object, whole. -/
private theorem whole_of_found (hS : Value.Comparable S) (h : Fetchable S t nodes roots)
    {all : List (Entity × List (List Entity))} {found : List (Entity × Entity)}
    (hall : ∀ e ∈ roots, ∀ q ∈ Node.picks nodes e.related, (e, q) ∈ all)
    (hfound : Found t nodes roots all found) :
    (found.map Prod.fst).Perm roots ∧ ∀ x ∈ found, x.1.Similar nodes x.2 := by
  have hrow {e : Entity} (he : e ∈ roots) {q : List (List Entity)}
      (hq : q ∈ Node.picks nodes e.related) :
      ∃ p, (e, p) ∈ found ∧ (shown (e, q)).Below nodes p := by
    obtain ⟨⟨e', p⟩, hx, heq, hbelow⟩ := hfound.holds (e, q) (hall e he q hq)
    obtain rfl : e' = e := heq
    exact ⟨p, hx, hbelow⟩
  constructor
  · refine (List.perm_ext_iff_of_nodup hfound.once (List.Nodup.of_map _ h.distinct)).mpr fun e ↦
      ⟨fun he ↦ ?_, fun he ↦ ?_⟩
    · obtain ⟨x, hx, rfl⟩ := List.mem_map.mp he
      exact (hfound.known x hx).1
    · obtain ⟨q, hq⟩ := Node.exists_mem_picks nodes e.related
      obtain ⟨p, hx, -⟩ := hrow he hq
      exact List.mem_map.mpr ⟨_, hx, rfl⟩
  · intro x hx
    obtain ⟨hroot, hpart⟩ := hfound.known x hx
    refine ⟨hpart.1, Node.allSimilar_of_picks hS (h.fits x.1 hroot).2 hpart.2 fun q hq ↦ ?_⟩
    obtain ⟨p, hx', hbelow⟩ := hrow hroot hq
    -- there is one part of each object
    have heq := List.inj_on_of_nodup_map hfound.once hx hx' rfl
    rw [heq]
    exact hbelow.2

end Rows

/-- Objects that were flattened to rows come back from the rows in any order: one for each, in the
order of their first rows, with everything that was related to it, in some order where a relation
to many is not aggregated. -/
theorem Fetch.objects_of_rows {S : Value → Prop} (hS : Value.Comparable S) {c : Catalog}
    {id : TableId} {requests : List (String × Choice)} {nodes : List Node}
    (hplan : (Plan.root c id requests).result = .ok nodes)
    (hmany : Node.anyMultiplies nodes = true) (hpages : Node.Unpaged nodes)
    (hkeys : ((c.table id).keys ++ Node.names nodes).Nodup) (hbelow : Node.KeysApart nodes)
    (hflat : ((c.table id).keys ++ Node.flatNames nodes).Nodup) {primary : List String}
    (hprimary : (c.table id).primaryKeys = .ok primary) {roots : List Entity}
    (hroots : ∀ e ∈ roots, e.Fits S (c.table id) nodes)
    (hdistinct : (roots.map (Entity.identity (c.table id))).Nodup) {rows : List Row}
    (hrows : rows.Perm (roots.flatMap (Entity.rows (c.table id) nodes))) :
    ∃ order found, order.Perm roots ∧
      order.Pairwise (Entity.Precedes (c.table id) nodes rows) ∧
      List.Forall₂ (Entity.Similar nodes) order found ∧
      (objects (c.table id) nodes rows).result =
        .ok (found.map (Entity.object (c.table id) nodes)) := by
  generalize c.table id = t at *
  have h : Fetchable S t nodes roots :=
    { regular := Node.regular_of hbelow hpages (Plan.aggregatesLeaves_of_root hplan)
      keys := hkeys
      flat := hflat
      primary := ⟨primary, hprimary⟩
      fits := hroots
      distinct := hdistinct }
  obtain ⟨all, rfl, hall⟩ := exists_all hrows
  have hmem (x : Entity × List (List Entity)) :
      x ∈ all ↔ x.1 ∈ roots ∧ x.2 ∈ Node.picks nodes x.1.related := by
    rw [hall.mem_iff, List.mem_flatMap]
    constructor
    · rintro ⟨e, he, hx⟩
      obtain ⟨q, hq, rfl⟩ := List.mem_map.mp hx
      exact ⟨he, hq⟩
    · rintro ⟨he, hq⟩
      exact ⟨x.1, he, List.mem_map.mpr ⟨x.2, hq, rfl⟩⟩
  have hall' : ∀ x ∈ all, x.1 ∈ roots ∧ x.2 ∈ Node.picks nodes x.1.related :=
    fun x hx ↦ (hmem x).mp hx
  let name (e : Entity) : String := (e.identity t).toOption.getD ""
  have hname : ∀ e ∈ roots, e.identity t = .ok (name e) := by
    intro e _
    obtain ⟨text, htext⟩ := exists_identity hprimary e
    change _ = Except.ok ((e.identity t).toOption.getD "")
    rw [htext]
    rfl
  have hnone : Found t nodes roots [] [] := ⟨nofun, .nil, nofun, nofun, .nil⟩
  obtain ⟨found, hfold, hfound⟩ := exists_foldlM_add hS h hname hnone hall'
  obtain ⟨hperm, hsimilar⟩ := whole_of_found hS h (fun e he q hq ↦ (hmem (e, q)).mpr ⟨he, hq⟩)
    hfound
  refine ⟨found.map Prod.fst, found.map Prod.snd, hperm, ?_, ?_, ?_⟩
  · refine hfound.ordered.imp_of_mem fun _ hb hab ↦ ?_
    exact precedes_of_before h hall' (hperm.mem_iff.mp hb) hab
  · rw [List.forall₂_map_left_iff, List.forall₂_map_right_iff, List.forall₂_same]
    exact hsimilar
  · have hvalues : (grouped t nodes name found).map Prod.snd =
        (found.map Prod.snd).map (Entity.object t nodes) := by
      rw [grouped, List.map_map, List.map_map]
      rfl
    rw [objects, Traced.result_bind, mapM_ofRow hS h hall']
    simp only [hmany, if_true]
    change (Merge.byIdentity t nodes _).result = _
    rw [Merge.byIdentity, Traced.result_bind, ← hvalues]
    change Except.bind (List.foldlM _ (grouped t nodes name []) _) _ = _
    rw [hfold]
    rfl

/-! ### People with badges and tags -/

private def named (table : String) : Column :=
  { name := "name", type := "String", table := some table }

private def tableOf (name : String) : Table := { name, columns := [("name", named name)] }

private def byName (kind : RelationKind) (target : TableId) (source name : String) : Relation :=
  { kind, target, fields := [named source], references := [named name] }

private def people : Catalog :=
  { entries := #[
      { table := tableOf "people",
        relations := [("profile", byName .one 1 "people" "profiles"),
          ("tags", byName .many 3 "people" "tags")] },
      { table := tableOf "profiles",
        relations := [("badges", byName .many 2 "profiles" "badges")] },
      { table := tableOf "badges" },
      { table := tableOf "tags" }] }

private def withBadges : List (String × Choice) :=
  [("profile", .fields [("with", .tree [("badges", .plain (.bool true))])]),
    ("tags", .plain (.bool true))]

private def levelOf (name : String) (kind : RelationKind) (source table stem : String)
    (aggregated : Bool) (options : FindOptions) : Level :=
  { name, kind, table := tableOf table, stem, aggregated, options,
    condition := Expr.eq (.column (named source)) (.column (named table)) }

private def planned : List Node :=
  [.mk (levelOf "profile" .one "people" "profiles" "profile_" false
      { related := some [("badges", .plain (.bool true))] })
      [.mk (levelOf "badges" .many "profiles" "badges" "profile__badges_" false {}) []],
    .mk (levelOf "tags" .many "people" "tags" "tags_" true {}) []]

private def adaAndBob : List Entity :=
  [.mk [.text "ada"] [[.mk [.text "chess"] [[.mk [.text "gold"] [], .mk [.text "iron"] []]]],
      [.mk [.text "red"] [], .mk [.text "blue"] []]],
    .mk [.text "bob"] [[], []]]

def isText (v : Value) : Prop := ∃ s, v = .text s

theorem comparable_isText : Value.Comparable isText where
  quiet := by
    rintro _ _ ⟨a, rfl⟩ ⟨b, rfl⟩
    rfl
  refl := by
    rintro _ ⟨a, rfl⟩
    exact beq_self_eq_true a
  symm := by
    rintro _ _ ⟨a, rfl⟩ ⟨b, rfl⟩ h
    rw [eq_of_beq (a := a) h]
    exact beq_self_eq_true b

private theorem adaAndBob_fit : ∀ e ∈ adaAndBob, e.Fits isText (people.table 0) planned := by
  intro e he
  simp only [adaAndBob, List.mem_cons, List.not_mem_nil, or_false] at he
  rcases he with rfl | rfl
  · simp [Entity.Fits, Entity.HasCells, Entity.cells, Entity.related, isText, planned,
      Node.AllFit, Node.Fits, Value.equalsAll, levelOf, tableOf, Value.isNull, people,
      Catalog.table, Catalog.entry]
    decide
  · simp [Entity.Fits, Entity.HasCells, Entity.cells, Entity.related, isText, planned,
      Node.AllFit, Node.Fits, levelOf, tableOf, people, Catalog.table, Catalog.entry]

private theorem adaAndBob_distinct :
    (adaAndBob.map (Entity.identity (people.table 0))).Nodup := by
  change [(.ok "ada" : Except Failure String), .ok "bob"].Nodup
  simp

/-- Two people come back from their rows in reverse order. -/
theorem Fetch.objects_of_rows_people :
    ∃ order found, order.Perm adaAndBob ∧
      order.Pairwise (Entity.Precedes (people.table 0) planned
        (adaAndBob.flatMap (Entity.rows (people.table 0) planned)).reverse) ∧
      List.Forall₂ (Entity.Similar planned) order found ∧
      (objects (people.table 0) planned
        (adaAndBob.flatMap (Entity.rows (people.table 0) planned)).reverse).result =
          .ok (found.map (Entity.object (people.table 0) planned)) := by
  have hplan : (Plan.root people 0 withBadges).result = .ok planned := rfl
  have hprimary : (people.table 0).primaryKeys = .ok ["name"] := rfl
  refine objects_of_rows comparable_isText hplan rfl ?_ (by decide) ?_ (by decide) hprimary
    adaAndBob_fit adaAndBob_distinct (List.reverse_perm _)
  · exact ⟨⟨⟨rfl, rfl⟩, ⟨⟨rfl, rfl⟩, trivial⟩, trivial⟩, ⟨⟨rfl, rfl⟩, trivial⟩, trivial⟩
  · exact ⟨⟨by decide, ⟨by decide, trivial⟩, trivial⟩, ⟨by decide, trivial⟩, trivial⟩

end Columnar
