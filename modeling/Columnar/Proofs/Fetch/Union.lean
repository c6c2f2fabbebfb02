import Columnar.Proofs.Fetch.Parts
import Mathlib.Data.List.Nodup

/-!
# Uniting parts

Of objects that are known in part, parts of the same one are united (`exists_uniteAll`): the result
is part of that object too, and holds whatever the two parts did. An item of a collection finds the
part of its own object there, if there is one, and no other (`exists_put`).
-/

namespace Columnar

namespace Entity

/-- An object is known in part. -/
def PartOf (nodes : List Node) (e p : Entity) : Prop :=
  p.cells = e.cells ∧ Node.AllPart nodes e.related p.related

/-- One part of an object holds whatever another does. -/
def Below (nodes : List Node) (p r : Entity) : Prop :=
  p.cells = r.cells ∧ Node.AllBelow nodes p.related r.related

/-- Parts of an object can be united. -/
def Unites (t : Table) (nodes : List Node) (e : Entity) : Prop :=
  ∀ p k, e.PartOf nodes p → e.PartOf nodes k → ∃ r,
    Merge.unite nodes (p.object t nodes) (k.object t nodes) = .ok (r.object t nodes) ∧
      e.PartOf nodes r ∧ p.Below nodes r ∧ k.Below nodes r

variable {S : Value → Prop} {t : Table} {nodes : List Node}

theorem Below.trans {p r s : Entity} (h : p.Below nodes r) (h' : r.Below nodes s) :
    p.Below nodes s :=
  ⟨h.1.trans h'.1, Node.allBelow_trans h.2 h'.2⟩

/-- Part of an object that fits fits too. -/
theorem PartOf.fits (hS : Value.Comparable S) {e p : Entity} (hp : e.PartOf nodes p)
    (he : e.Fits S t nodes) : p.Fits S t nodes := by
  obtain ⟨hcells, hpart⟩ := hp
  refine ⟨?_, Node.fit_of_part hS he.2 hpart⟩
  rw [HasCells, hcells]
  exact he.1

theorem PartOf.below_refl (hS : Value.Comparable S) {e p : Entity} (hp : e.PartOf nodes p)
    (he : e.Fits S t nodes) : p.Below nodes p :=
  ⟨rfl, Node.allBelow_refl (hp.fits hS he).2⟩

/-- Of two parts of one object that are equal the first holds whatever the second does. -/
theorem PartOf.below_of_equals (hS : Value.Comparable S) (hregular : Node.Regular nodes)
    (hkeys : (t.keys ++ Node.names nodes).Nodup) {e p k : Entity} (he : e.Fits S t nodes)
    (hp : e.PartOf nodes p) (hk : e.PartOf nodes k)
    (h : (p.object t nodes).equals (k.object t nodes) = true) : k.Below nodes p := by
  obtain ⟨-, hrelations⟩ := Node.equals_object hkeys (hp.fits hS he) (hk.fits hS he) h
  exact ⟨hk.1.trans hp.1.symm, Node.allBelow_of_equals hS hregular
    (List.nodup_append.mp hkeys).2.1 he.2 hp.2 hk.2 hrelations⟩

end Entity

/-! ### Collections -/

/-- Objects that can be told apart, and parts of which can be united. -/
structure Unitable (S : Value → Prop) (t : Table) (nodes : List Node) (es : List Entity) :
    Prop where
  apart : es.Pairwise fun a b ↦ Value.equalsAll a.cells b.cells = false
  fits : ∀ e ∈ es, e.Fits S t nodes
  unites : ∀ e ∈ es, e.Unites t nodes

section Put

variable {S : Value → Prop} {t : Table} {nodes : List Node} {es : List Entity}

/-- Parts of objects agree in the columns of their table when they are parts of the same one. -/
private theorem sameColumns_parts (hS : Value.Comparable S)
    (hkeys : (t.keys ++ Node.names nodes).Nodup) (hes : Unitable S t nodes es)
    {e e' p k : Entity} (he : e ∈ es) (hp : e.PartOf nodes p) (he' : e' ∈ es)
    (hk : e'.PartOf nodes k) :
    ∃ same, Merge.sameColumns t (p.object t nodes) (k.object t nodes) = .ok same ∧
      (same = true → e = e') ∧ (same = false → p.cells ≠ k.cells) := by
  have hfitP := (hp.fits hS (hes.fits e he)).1
  have hfitK := (hk.fits hS (hes.fits e' he')).1
  refine ⟨_, Node.sameColumns_object hS hkeys hfitP hfitK, fun hsame ↦ ?_, fun hsame heq ↦ ?_⟩
  · rw [hp.1, hk.1] at hsame
    exact eq_of_equalsAll hS hes.apart (fun e he ↦ (hes.fits e he).1) he he' hsame
  · rw [heq, hS.equalsAll_refl hfitK.2] at hsame
    cases hsame

/-- An item that is part of an object is united with the part of that object in the collection, or
stands at its end when there is none. -/
theorem exists_put (hS : Value.Comparable S) (hregular : Node.Regular nodes)
    (hkeys : (t.keys ++ Node.names nodes).Nodup) (hes : Unitable S t nodes es)
    {e k : Entity} (he : e ∈ es) (hk : e.PartOf nodes k) {ps : List Entity}
    (hps : ∀ p ∈ ps, ∃ e ∈ es, e.PartOf nodes p) :
    ∃ rs : List Entity, Merge.put t (Merge.unite nodes) (.ok ()) (k.object t nodes)
        (ps.map (Entity.object t nodes)) = .ok (rs.map (Entity.object t nodes)) ∧
      (∀ r ∈ rs, ∃ e ∈ es, e.PartOf nodes r) ∧
      (rs.map Entity.cells = ps.map Entity.cells ∧ k.cells ∈ ps.map Entity.cells ∨
        rs.map Entity.cells = ps.map Entity.cells ++ [k.cells] ∧
          k.cells ∉ ps.map Entity.cells) ∧
      (∀ p ∈ ps, ∃ r ∈ rs, p.Below nodes r) ∧ ∃ r ∈ rs, k.Below nodes r := by
  induction ps with
  | nil =>
    refine ⟨[k], rfl, ?_, .inr ⟨rfl, nofun⟩, nofun, k, by simp, hk.below_refl hS (hes.fits e he)⟩
    intro r hr
    obtain rfl := List.mem_singleton.mp hr
    exact ⟨e, he, hk⟩
  | cons p ps ih =>
    obtain ⟨e', he', hp⟩ := hps p (by simp)
    have hpsRest : ∀ p ∈ ps, ∃ e ∈ es, e.PartOf nodes p := fun p hp ↦ hps p (by simp [hp])
    have hpsBelow : ∀ p ∈ ps, ∃ r ∈ ps, p.Below nodes r := by
      intro p hp
      obtain ⟨e, he, hpart⟩ := hpsRest p hp
      exact ⟨p, hp, hpart.below_refl hS (hes.fits e he)⟩
    obtain ⟨same, hsame, heq, hne⟩ := sameColumns_parts hS hkeys hes he' hp he hk
    rw [List.map_cons, Merge.put, hsame]
    cases same with
    | true =>
      obtain rfl := heq rfl
      have hcells : k.cells = p.cells := hk.1.trans hp.1.symm
      have hfits := hes.fits e' he
      -- the first part of the same object either is the item already, or takes it in
      have hfirst : ∃ r, (do
            if (p.object t nodes).isNull then
              return p.object t nodes :: ps.map (Entity.object t nodes) ++ [k.object t nodes]
            else if ← (p.object t nodes).same (k.object t nodes) then
              return p.object t nodes :: ps.map (Entity.object t nodes)
            else
              return (← Merge.unite nodes (p.object t nodes) (k.object t nodes)) ::
                ps.map (Entity.object t nodes) : Except Failure (List Value)) =
            .ok ((r :: ps).map (Entity.object t nodes)) ∧
          e'.PartOf nodes r ∧ p.Below nodes r ∧ k.Below nodes r := by
        rw [if_neg (show ¬ (p.object t nodes).isNull = true from Bool.false_ne_true),
          Node.same_object hS hregular.keysApart hkeys (hp.fits hS hfits) (hk.fits hS hfits)]
        cases hequal : (p.object t nodes).equals (k.object t nodes) with
        | true =>
          exact ⟨p, rfl, hp, hp.below_refl hS hfits,
            hp.below_of_equals hS hregular hkeys hfits hk hequal⟩
        | false =>
          obtain ⟨r, hunite, hpart, hbelow, hbelow'⟩ := hes.unites e' he p k hp hk
          refine ⟨r, ?_, hpart, hbelow, hbelow'⟩
          simp only [bind, Except.bind, hunite]
          rfl
      obtain ⟨r, hput, hpart, hbelow, hbelow'⟩ := hfirst
      refine ⟨r :: ps, hput, ?_, .inl ⟨?_, ?_⟩, ?_, r, by simp, hbelow'⟩
      · intro r' hr'
        rcases List.mem_cons.mp hr' with rfl | hr'
        · exact ⟨e', he, hpart⟩
        · exact hpsRest r' hr'
      · rw [List.map_cons, List.map_cons, hbelow.1]
      · rw [hcells]
        simp
      · intro p' hp'
        rcases List.mem_cons.mp hp' with rfl | hp'
        · exact ⟨r, by simp, hbelow⟩
        · obtain ⟨r', hr', hbelow⟩ := hpsBelow p' hp'
          exact ⟨r', by simp [hr'], hbelow⟩
    | false =>
      obtain ⟨rs, hput, hparts, hcells, hbelow, r, hr, hbelow'⟩ := ih hpsRest
      refine ⟨p :: rs, ?_, ?_, ?_, ?_, r, by simp [hr], hbelow'⟩
      · simp only [bind, Except.bind, hput]
        rfl
      · intro r' hr'
        rcases List.mem_cons.mp hr' with rfl | hr'
        · exact ⟨e', he', hp⟩
        · exact hparts r' hr'
      · have hother : k.cells ≠ p.cells := fun h ↦ hne rfl h.symm
        simp only [List.map_cons, List.mem_cons, hother, false_or, List.cons_append,
          List.cons.injEq, true_and]
        exact hcells
      · intro p' hp'
        rcases List.mem_cons.mp hp' with rfl | hp'
        · exact ⟨p', by simp, hp.below_refl hS (hes.fits e' he')⟩
        · obtain ⟨r', hr', hbelow⟩ := hbelow p' hp'
          exact ⟨r', by simp [hr'], hbelow⟩

/-- Items that are parts of objects are all taken in; none of those that were there is lost, and
no object gets a second part. -/
theorem exists_foldlM_put (hS : Value.Comparable S) (hregular : Node.Regular nodes)
    (hkeys : (t.keys ++ Node.names nodes).Nodup) (hes : Unitable S t nodes es)
    {ps ks : List Entity} (hnodup : (ps.map Entity.cells).Nodup)
    (hps : ∀ p ∈ ps, ∃ e ∈ es, e.PartOf nodes p) (hks : ∀ k ∈ ks, ∃ e ∈ es, e.PartOf nodes k) :
    ∃ rs : List Entity, (ks.map (Entity.object t nodes)).foldlM
        (fun xs item ↦ Merge.put t (Merge.unite nodes) (.ok ()) item xs)
        (ps.map (Entity.object t nodes)) = .ok (rs.map (Entity.object t nodes)) ∧
      (rs.map Entity.cells).Nodup ∧ (∀ r ∈ rs, ∃ e ∈ es, e.PartOf nodes r) ∧
      (ks.map Entity.cells ⊆ ps.map Entity.cells →
        rs.map Entity.cells = ps.map Entity.cells) ∧
      (∀ p ∈ ps, ∃ r ∈ rs, p.Below nodes r) ∧ ∀ k ∈ ks, ∃ r ∈ rs, k.Below nodes r := by
  induction ks generalizing ps with
  | nil =>
    refine ⟨ps, rfl, hnodup, hps, fun _ ↦ rfl, fun p hp ↦ ?_, nofun⟩
    obtain ⟨e, he, hpart⟩ := hps p hp
    exact ⟨p, hp, hpart.below_refl hS (hes.fits e he)⟩
  | cons k ks ih =>
    obtain ⟨e, he, hk⟩ := hks k (by simp)
    obtain ⟨qs, hput, hqs, hcells, hbelow, q, hq, hbelowK⟩ :=
      exists_put hS hregular hkeys hes he hk hps
    have hnodup' : (qs.map Entity.cells).Nodup := by
      rcases hcells with ⟨heq, -⟩ | ⟨heq, hnot⟩
      · rw [heq]
        exact hnodup
      · rw [heq, ← List.concat_eq_append, List.nodup_concat]
        exact ⟨hnot, hnodup⟩
    obtain ⟨rs, hfold, hnodupRs, hrs, hsame, hbelow', hbelowKs⟩ :=
      ih hnodup' hqs fun k hk ↦ hks k (by simp [hk])
    refine ⟨rs, ?_, hnodupRs, hrs, ?_, ?_, ?_⟩
    · rw [List.map_cons, List.foldlM_cons, hput]
      exact hfold
    · intro hsub
      obtain ⟨hmem, hsub⟩ := List.cons_subset.mp hsub
      rcases hcells with ⟨heq, -⟩ | ⟨-, hnot⟩
      · rw [← heq] at hsub ⊢
        exact hsame hsub
      · exact absurd hmem hnot
    · intro p hp
      obtain ⟨q, hq, hpq⟩ := hbelow p hp
      obtain ⟨r, hr, hqr⟩ := hbelow' q hq
      exact ⟨r, hr, hpq.trans hqr⟩
    · intro k' hk'
      rcases List.mem_cons.mp hk' with rfl | hk'
      · obtain ⟨r, hr, hqr⟩ := hbelow' q hq
        exact ⟨r, hr, hbelowK.trans hqr⟩
      · exact hbelowKs k' hk'

end Put

/-- Items are put into a list one by one. -/
theorem Merge.putAll_list {t : Table} {unite : Value → Value → Except Failure Value}
    {present items united : List Value}
    (h : items.foldlM (fun xs item ↦ put t unite (.ok ()) item xs) present = .ok united) :
    putAll t unite (.list present) items = .ok (.list united) := by
  cases items with
  | nil =>
    cases h
    rfl
  | cons item items =>
    change (do
      let united ← (item :: items).foldlM (fun xs item ↦ put t unite (.ok ()) item xs) present
      return likewise (.list present) united) = _
    rw [h]
    rfl

/-! ### Trees -/

namespace Node

variable {S : Value → Prop}

/-- Values that stand for the same row are united relation by relation. -/
theorem unite_map (nodes : List Node) (x y : Row) :
    Merge.unite nodes (.map x) (.map y) = (Merge.uniteAll nodes x y).map .map := by
  cases nodes with
  | nil => rfl
  | cons n rest =>
    rw [Merge.unite, Merge.uniteAll]
    change (do let z ← Merge.uniteNode n x y; return Value.map (← Merge.uniteAll rest z y)) = _
    cases Merge.uniteNode n x y <;> rfl

theorem held_one {level : Level} (hkind : level.kind = .one) (children : List Node)
    (es : List Entity) : held (.mk level children) es =
      (es.map (Entity.object level.table children)).headD .null := by
  change level.value _ = _
  rw [Level.value, hkind]
  rfl

theorem held_many {level : Level} (hkind : level.kind = .many) (children : List Node)
    (es : List Entity) : held (.mk level children) es =
      .list (es.map (Entity.object level.table children)) := by
  change level.value _ = _
  rw [Level.value, hkind]
  rfl

/-- What is held of a relation after what another object holds of it was united with it. -/
def uniteHeld (level : Level) (children : List Node) (old new : Value) :
    Except Failure Value :=
  match level.kind with
  | .one =>
    if old.isNull then .ok new
    else if new.isNull then .ok old
    else Merge.unite children old new
  | .many => do
    let items ← new.itemsIfAny
    Merge.cut level.options.limit (← Merge.putAll level.table (Merge.unite children) old items)

/-- Uniting a relation changes what is held of it, and nothing else. -/
private theorem uniteNode_between {level : Level} (children : List Node)
    {before incoming : List (String × Value)} (after : List (String × Value)) (old : Value)
    {new : Value}
    (hname : level.name ∉ Keyed.keys before)
    (hfound : Keyed.find? level.name incoming = some new) :
    Merge.uniteNode (.mk level children) (Row.named (before ++ (level.name, old) :: after))
        (Row.named incoming) =
      (uniteHeld level children old new).map fun v ↦
        Row.named (before ++ (level.name, v) :: after) := by
  have hold := Keyed.find?_between hname old after
  have hset (v : Value) : Value.setEntry (.text level.name) v
      (Row.named (before ++ (level.name, old) :: after)) =
        Row.named (before ++ (level.name, v) :: after) := by
    rw [Row.setEntry_named, Keyed.set_between hname]
  rw [Merge.uniteNode, uniteHeld]
  cases level.kind with
  | one =>
    simp only [Row.get_named, hold, hfound, Option.getD_some, hset]
    split
    · rfl
    · split
      · rfl
      · cases Merge.unite children old new <;> rfl
  | many =>
    simp only [Row.get_named, Row.find?_named, hold, hfound, Option.getD_some, hset]
    cases new.itemsIfAny with
    | error e => rfl
    | ok items =>
      change (do
        let collection ← Merge.putAll level.table (Merge.unite children) old items
        return Row.named (before ++ (level.name, ← Merge.cut level.options.limit collection) ::
          after)) = Except.map _ (do
            Merge.cut level.options.limit
              (← Merge.putAll level.table (Merge.unite children) old items))
      cases Merge.putAll level.table (Merge.unite children) old items with
      | error e => rfl
      | ok collection =>
        change (do return Row.named (before ++ (level.name,
          ← Merge.cut level.options.limit collection) :: after)) =
            Except.map _ (Merge.cut level.options.limit collection)
        cases Merge.cut level.options.limit collection <;> rfl

/-- Of relations the first is united before the others, in its place. -/
theorem uniteAll_between {level : Level} {children rest : List Node}
    {before before' after after' : List (String × Value)} {old new : Value}
    (hname : level.name ∉ Keyed.keys before) (hname' : level.name ∉ Keyed.keys before') :
    Merge.uniteAll (.mk level children :: rest)
        (Row.named (before ++ (level.name, old) :: after))
        (Row.named (before' ++ (level.name, new) :: after')) =
      (uniteHeld level children old new).bind fun v ↦ Merge.uniteAll rest
        (Row.named ((before ++ [(level.name, v)]) ++ after))
        (Row.named ((before' ++ [(level.name, new)]) ++ after')) := by
  have hnode := uniteNode_between children after old hname
    (Keyed.find?_between hname' new after')
  rw [Merge.uniteAll]
  simp only [bind, Except.bind, hnode, List.append_assoc, List.singleton_append]
  cases uniteHeld level children old new <;> rfl

private theorem fits_of_part (hS : Value.Comparable S) {n : Node} {es ps : List Entity}
    (hfit : Fits S n es) (hp : Part n es ps) : Fits S n ps := by
  have hfit' : AllFit S [n] [es] := ⟨hfit, trivial⟩
  have hp' : AllPart [n] [es] [ps] := ⟨hp, trivial⟩
  exact (fit_of_part hS hfit' hp').1

/-- Parts of related objects are parts of one object each, and of no object twice. -/
private theorem parts_of_part (hS : Value.Comparable S) {level : Level} {children : List Node}
    {es ps : List Entity} (hfit : Fits S (.mk level children) es)
    (hp : Part (.mk level children) es ps) :
    (ps.map Entity.cells).Nodup ∧ ∀ p ∈ ps, ∃ e ∈ es, e.PartOf children p := by
  obtain ⟨-, hpair, hes⟩ := hfit
  rw [Part] at hp
  by_cases hagg : level.aggregated = true
  · rw [if_pos hagg] at hp
    subst hp
    exact ⟨nodup_cells hS hpair fun e he ↦ (hes e he).1,
      fun e he ↦ ⟨e, he, rfl, allPart_refl hS (hes e he).2.2⟩⟩
  · rw [if_neg hagg] at hp
    exact hp

private theorem eq_nil_of_allPart {related ps : List (List Entity)}
    (h : AllPart [] related ps) : ps = [] := by
  cases related <;> cases ps <;> first | rfl | exact h.elim

/-- Objects without related ones are known as a whole by their cells. -/
private theorem eq_of_cells {es rs : List Entity} (hes : ∀ e ∈ es, e.related = [])
    (hrs : ∀ r ∈ rs, r.related = []) (h : rs.map Entity.cells = es.map Entity.cells) :
    rs = es := by
  have hmk {xs : List Entity} (hxs : ∀ x ∈ xs, x.related = []) :
      (xs.map Entity.cells).map (Entity.mk · []) = xs := by
    rw [List.map_map]
    refine (List.map_congr_left fun x hx ↦ ?_).trans (List.map_id xs)
    obtain ⟨cells, related⟩ := x
    exact congrArg _ (hxs _ hx).symm
  rw [← hmk hrs, h, hmk hes]

/-- Parts of one object each, of no object twice, are parts of related objects; where these are
aggregated there have to be parts of all of them, in order. -/
private theorem part_of_parts (hS : Value.Comparable S) {level : Level} {children : List Node}
    (hr : level.Regular children) {es rs : List Entity} (hfit : Fits S (.mk level children) es)
    (hnodup : (rs.map Entity.cells).Nodup) (hrs : ∀ r ∈ rs, ∃ e ∈ es, e.PartOf children r)
    (hall : level.aggregated = true → rs.map Entity.cells = es.map Entity.cells) :
    Part (.mk level children) es rs := by
  rw [Part]
  by_cases hagg : level.aggregated = true
  · rw [if_pos hagg]
    obtain ⟨-, rfl⟩ := hr.leaf hagg
    refine eq_of_cells (fun e he ↦ ?_) (fun r hmem ↦ ?_) (hall hagg)
    · exact eq_nil_of_allPart (allPart_refl hS (hfit.2.2 e he).2.2)
    · obtain ⟨e, -, -, hpart⟩ := hrs r hmem
      exact eq_nil_of_allPart hpart
  · rw [if_neg hagg]
    exact ⟨hnodup, hrs⟩

/-- Parts of the objects related to one object are united. -/
private theorem exists_uniteHeld (hS : Value.Comparable S) {level : Level} {children : List Node}
    (hr : level.Regular children) (hrChildren : Regular children) {es ps ks : List Entity}
    (hfit : Fits S (.mk level children) es) (hp : Part (.mk level children) es ps)
    (hk : Part (.mk level children) es ks)
    (hunites : ∀ e ∈ es, e.Unites level.table children) :
    ∃ rs, uniteHeld level children (held (.mk level children) ps)
        (held (.mk level children) ks) = .ok (held (.mk level children) rs) ∧
      Part (.mk level children) es rs ∧ Below (.mk level children) ps rs ∧
      Below (.mk level children) ks rs := by
  have hes : Unitable S level.table children es :=
    ⟨hfit.2.1, fun e he ↦ ⟨(hfit.2.2 e he).1, (hfit.2.2 e he).2.2⟩, hunites⟩
  have hrefl {xs : List Entity} (hxs : Part (.mk level children) es xs) :
      Below (.mk level children) xs xs := by
    intro x hx
    obtain ⟨e, he, hpart⟩ := (parts_of_part hS hfit hxs).2 x hx
    exact ⟨x, hx, hpart.below_refl hS (hes.fits e he)⟩
  obtain ⟨hnodup, hps⟩ := parts_of_part hS hfit hp
  obtain ⟨hnodupK, hks⟩ := parts_of_part hS hfit hk
  rw [uniteHeld]
  cases hkind : level.kind with
  | one =>
    rw [held_one hkind, held_one hkind]
    have hlen := hfit.1 hkind
    have hlenP := (fits_of_part hS hfit hp).1 hkind
    have hlenK := (fits_of_part hS hfit hk).1 hkind
    rcases ps with _ | ⟨p, _ | ⟨p', ps⟩⟩
    · exact ⟨ks, by rw [held_one hkind]; rfl, hk, nofun, hrefl hk⟩
    · rcases ks with _ | ⟨k, _ | ⟨k', ks⟩⟩
      · exact ⟨[p], by rw [held_one hkind]; rfl, hp, hrefl hp, nofun⟩
      · obtain ⟨e, he, hpart⟩ := hps p (by simp)
        obtain ⟨e', he', hpart'⟩ := hks k (by simp)
        obtain rfl : e = e' := by
          rcases es with _ | ⟨e₁, _ | ⟨e₂, es⟩⟩
          · cases he
          · rw [List.mem_singleton.mp he, List.mem_singleton.mp he']
          · simp only [List.length_cons] at hlen
            omega
        obtain ⟨r, hunite, hpartR, hbelow, hbelow'⟩ := hunites e he p k hpart hpart'
        refine ⟨[r], ?_, ?_, ?_, ?_⟩
        · rw [held_one hkind]
          exact hunite
        · refine part_of_parts hS hr hfit (List.nodup_singleton _) ?_ fun hagg ↦ ?_
          · intro r' hr'
            obtain rfl := List.mem_singleton.mp hr'
            exact ⟨e, he, hpartR⟩
          · rw [(hr.leaf hagg).1] at hkind
            cases hkind
        · intro p' hp'
          obtain rfl := List.mem_singleton.mp hp'
          exact ⟨r, by simp, hbelow⟩
        · intro k' hk'
          obtain rfl := List.mem_singleton.mp hk'
          exact ⟨r, by simp, hbelow'⟩
      · simp only [List.length_cons] at hlenK
        omega
    · simp only [List.length_cons] at hlenP
      omega
  | many =>
    rw [held_many hkind, held_many hkind]
    obtain ⟨rs, hfold, hnodupR, hrs, hsame, hbelow, hbelow'⟩ :=
      exists_foldlM_put hS hrChildren hr.keys hes hnodup hps hks
    refine ⟨rs, ?_, ?_, hbelow, hbelow'⟩
    · simp only [Value.itemsIfAny_list, bind, Except.bind, Merge.putAll_list hfold]
      rw [Merge.cut, hr.unlimited, held_many hkind]
    · refine part_of_parts hS hr hfit hnodupR hrs fun hagg ↦ ?_
      have hps : ps = es := by simpa only [Part, if_pos hagg] using hp
      have hks : ks = es := by simpa only [Part, if_pos hagg] using hk
      rw [hps, hks] at hsame
      exact hsame (List.Subset.refl _)

/-- Parts of an object can be united when parts of what is related to it can. -/
private theorem unites_of_uniteAll {t : Table} {nodes : List Node}
    (hkeys : (t.keys ++ names nodes).Nodup) {e : Entity} (he : e.HasCells S t)
    (h : ∀ {ps ks : List (List Entity)}, AllPart nodes e.related ps →
      AllPart nodes e.related ks → ∀ before before' : List (String × Value),
      (Keyed.keys before ++ names nodes).Nodup → (Keyed.keys before' ++ names nodes).Nodup →
      ∃ rs, Merge.uniteAll nodes (Row.named (before ++ relations nodes ps))
          (Row.named (before' ++ relations nodes ks)) =
            .ok (Row.named (before ++ relations nodes rs)) ∧
        AllPart nodes e.related rs ∧ AllBelow nodes ps rs ∧ AllBelow nodes ks rs) :
    e.Unites t nodes := by
  intro p k hp hk
  have hzip {x : Entity} (hx : e.PartOf nodes x) :
      Keyed.keys (t.keys.zip x.cells) = t.keys :=
    keys_zip (by rw [hx.1, he.1, t.length_keys])
  obtain ⟨rs, hunite, hpart, hbelow, hbelow'⟩ := h hp.2 hk.2 (t.keys.zip p.cells)
    (t.keys.zip k.cells) (by rw [hzip hp]; exact hkeys) (by rw [hzip hk]; exact hkeys)
  refine ⟨.mk p.cells rs, ?_, ⟨hp.1, hpart⟩, ⟨rfl, hbelow⟩, ⟨hk.1.trans hp.1.symm, hbelow'⟩⟩
  rw [Entity.object, Entity.object, unite_map, Entity.entries, Entity.entries, hunite]
  rfl

/-- Parts of one object are united: what comes out is part of it too, and holds whatever the two
parts did. -/
theorem exists_uniteAll (hS : Value.Comparable S) {nodes : List Node} (hregular : Regular nodes)
    {related ps ks : List (List Entity)} (hfit : AllFit S nodes related)
    (hp : AllPart nodes related ps) (hk : AllPart nodes related ks)
    (before before' : List (String × Value)) (hnames : (Keyed.keys before ++ names nodes).Nodup)
    (hnames' : (Keyed.keys before' ++ names nodes).Nodup) :
    ∃ rs, Merge.uniteAll nodes (Row.named (before ++ relations nodes ps))
        (Row.named (before' ++ relations nodes ks)) =
          .ok (Row.named (before ++ relations nodes rs)) ∧
      AllPart nodes related rs ∧ AllBelow nodes ps rs ∧ AllBelow nodes ks rs := by
  induction nodes using forest_induction generalizing related ps ks before before' with
  | nil =>
    have hpb := allBelow_refl (fit_of_part hS hfit hp)
    obtain rfl := eq_nil_of_allPart hp
    obtain rfl := eq_nil_of_allPart hk
    exact ⟨[], rfl, hp, hpb, hpb⟩
  | cons level children rest ihChildren ihRest =>
    rcases related with _ | ⟨es, others⟩
    · exact hfit.elim
    rcases ps with _ | ⟨ps, othersP⟩
    · exact hp.elim
    rcases ks with _ | ⟨ks, othersK⟩
    · exact hk.elim
    obtain ⟨⟨hr, hrChildren⟩, hrRest⟩ := hregular
    have hunites : ∀ e ∈ es, e.Unites level.table children := by
      intro e he
      obtain ⟨hhas, -, hbelow⟩ := hfit.1.2.2 e he
      exact unites_of_uniteAll hr.keys hhas fun hp hk before before' hnames hnames' ↦
        ihChildren hrChildren hbelow hp hk before before' hnames hnames'
    obtain ⟨rs, hheld, hpart, hbelowP, hbelowK⟩ :=
      exists_uniteHeld hS hr hrChildren hfit.1 hp.1 hk.1 hunites
    obtain ⟨othersR, hrest, hpart', hbelowP', hbelowK'⟩ := ihRest hrRest hfit.2 hp.2 hk.2
      (before ++ [(level.name, held (.mk level children) rs)])
      (before' ++ [(level.name, held (.mk level children) ks)]) (nodup_keys_snoc _ hnames)
      (nodup_keys_snoc _ hnames')
    refine ⟨rs :: othersR, ?_, ⟨hpart, hpart'⟩, ⟨hbelowP, hbelowP'⟩, hbelowK, hbelowK'⟩
    change Merge.uniteAll (.mk level children :: rest)
      (Row.named (before ++ (level.name, held (.mk level children) ps) :: relations rest othersP))
      (Row.named (before' ++ (level.name, held (.mk level children) ks) ::
        relations rest othersK)) = _
    rw [uniteAll_between (name_notMem_keys hnames) (name_notMem_keys hnames'), hheld]
    change Merge.uniteAll rest _ _ = _
    rw [hrest, List.append_assoc]
    rfl

end Node

/-- Parts of an object that fits can be united. -/
theorem Entity.unites {S : Value → Prop} (hS : Value.Comparable S) {t : Table}
    {nodes : List Node} (hregular : Node.Regular nodes)
    (hkeys : (t.keys ++ Node.names nodes).Nodup) {e : Entity} (he : e.Fits S t nodes) :
    e.Unites t nodes :=
  Node.unites_of_uniteAll hkeys he.1 fun hp hk before before' hnames hnames' ↦
    Node.exists_uniteAll hS hregular he.2 hp hk before before' hnames hnames'

end Columnar
