import Columnar.Proofs.Fetch.Limits
import Columnar.Proofs.Fetch.Union

/-!
# Uniting within limits

Objects that are within limits are united as the entities they stand for are joined
(`unite_object`): an item of a collection that equals the one it meets is joined with it without a
change, and a collection that items were put into is cut to what the relation keeps.
-/

namespace Columnar

variable {S : Value → Prop}

/-- An item is put into a collection as its entity is. -/
private theorem put_object (hS : Value.Comparable S) {t : Table} {nodes : List Node}
    (hapart : Node.KeysApart nodes) (hkeys : (t.keys ++ Node.names nodes).Nodup) {item : Entity}
    (hitem : item.Fits S t nodes) {es : List Entity} (hes : ∀ e ∈ es, e.Fits S t nodes)
    (hunite : ∀ e ∈ es, Merge.unite nodes (e.object t nodes) (item.object t nodes) =
      .ok ((e.join nodes item).object t nodes))
    (hequal : ∀ e ∈ es, (e.object t nodes).equals (item.object t nodes) = true →
      e.join nodes item = e) :
    Merge.put t (Merge.unite nodes) (.ok ()) (item.object t nodes)
        (es.map (Entity.object t nodes)) =
      .ok ((Collection.put Entity.same (Entity.join nodes) item es).map
        (Entity.object t nodes)) := by
  induction es with
  | nil => rfl
  | cons e es ih =>
    obtain ⟨he, hes⟩ := List.forall_mem_cons.mp hes
    obtain ⟨huniteE, hunite⟩ := List.forall_mem_cons.mp hunite
    obtain ⟨hequalE, hequal⟩ := List.forall_mem_cons.mp hequal
    have hsame : Merge.sameColumns t (e.object t nodes) (item.object t nodes) =
        .ok (e.same item) := Node.sameColumns_object hS hkeys he.1 hitem.1
    have hpresent : (e.object t nodes).isNull = false := rfl
    rw [List.map_cons, Merge.put, hsame, Collection.put]
    simp only [bind, Except.bind]
    cases e.same item with
    | false =>
      rw [if_neg Bool.false_ne_true, if_neg Bool.false_ne_true, ih hes hunite hequal]
      rfl
    | true =>
      rw [if_pos rfl, if_pos rfl, hpresent, if_neg Bool.false_ne_true,
        Node.same_object hS hapart hkeys he hitem]
      cases hequals : (e.object t nodes).equals (item.object t nodes) with
      | true =>
        rw [hequalE hequals]
        rfl
      | false =>
        rw [huniteE]
        rfl

namespace Node

variable {nodes : List Node}

private theorem eq_nil_of_allFit {related : List (List Entity)} (h : AllFit S [] related) :
    related = [] := by
  cases related with
  | nil => rfl
  | cons es others => exact h.elim

/-- Objects are united when what is related to them is. -/
private theorem unite_of_uniteAll {t : Table} (hkeys : (t.keys ++ names nodes).Nodup)
    {e item : Entity} (he : e.HasCells S t) (hitem : item.HasCells S t)
    (h : ∀ before before' : List (String × Value), (Keyed.keys before ++ names nodes).Nodup →
      (Keyed.keys before' ++ names nodes).Nodup →
      Merge.uniteAll nodes (Row.named (before ++ relations nodes e.related))
          (Row.named (before' ++ relations nodes item.related)) =
        .ok (Row.named (before ++ relations nodes (joinAll nodes e.related item.related)))) :
    Merge.unite nodes (e.object t nodes) (item.object t nodes) =
      .ok ((e.join nodes item).object t nodes) := by
  have hzip {x : Entity} (hx : x.HasCells S t) : Keyed.keys (t.keys.zip x.cells) = t.keys :=
    keys_zip (by rw [hx.1, t.length_keys])
  rw [Entity.object, Entity.object, unite_map, Entity.entries, Entity.entries,
    h _ _ (by rw [hzip he]; exact hkeys) (by rw [hzip hitem]; exact hkeys)]
  rfl

/-- Items are put into a collection as their entities are, where there is one item at most or
nothing is related to any. -/
private theorem foldlM_put_object (hS : Value.Comparable S) {level : Level} {children : List Node}
    (hapart : KeysApart children) (hkeys : (level.table.keys ++ names children).Nodup)
    (hleaf : level.aggregated = true → children = []) {es items : List Entity}
    (hes : ∀ e ∈ es, e.Fits S level.table children)
    (hitems : ∀ item ∈ items, item.Fits S level.table children)
    (hsingle : level.aggregated = false → items.length ≤ 1)
    (hunite : ∀ e ∈ es, ∀ item ∈ items, Merge.unite children (e.object level.table children)
      (item.object level.table children) = .ok ((e.join children item).object level.table children))
    (hequal : ∀ e ∈ es, ∀ item ∈ items, (e.object level.table children).equals
      (item.object level.table children) = true → e.join children item = e) :
    (items.map (Entity.object level.table children)).foldlM
        (fun xs item ↦ Merge.put level.table (Merge.unite children) (.ok ()) item xs)
        (es.map (Entity.object level.table children)) =
      .ok ((Collection.putAll Entity.same (Entity.join children) es items).map
        (Entity.object level.table children)) := by
  by_cases hagg : level.aggregated = true
  · obtain rfl := hleaf hagg
    have hjoin {e : Entity} (he : e.Fits S level.table []) (item : Entity) : e.join [] item = e :=
      join_leaf (eq_nil_of_allFit he.2) item
    clear hunite hequal hsingle
    induction items generalizing es with
    | nil => rfl
    | cons item items ih =>
      obtain ⟨hitem, hitems⟩ := List.forall_mem_cons.mp hitems
      have hput := put_object hS hapart hkeys hitem hes
        (fun e he ↦ by rw [hjoin (hes e he)]; rfl) fun e he _ ↦ hjoin (hes e he) item
      rw [List.map_cons, List.foldlM_cons, hput]
      refine ih (fun e he ↦ ?_) hitems
      exact Collection.forall_mem_put hitem hes (fun e _ he ↦ by rw [hjoin he]; exact he) e he
  · rcases items with _ | ⟨item, _ | ⟨item', items⟩⟩
    · rfl
    · rw [List.map_singleton, List.foldlM_cons, put_object hS hapart hkeys (hitems item (by simp))
        hes (fun e he ↦ hunite e he item (by simp)) fun e he ↦ hequal e he item (by simp)]
      rfl
    · have hlen := hsingle (Bool.eq_false_iff.mpr hagg)
      simp only [List.length_cons] at hlen
      omega

/-- What is held of a relation is united as the related objects are joined. -/
private theorem uniteHeld_join (hS : Value.Comparable S) {level : Level} {children : List Node}
    (hapart : KeysApart children) (hkeys : (level.table.keys ++ names children).Nodup)
    (hleaf : level.aggregated = true → children = []) (hlimit : level.Counts)
    {es items : List Entity} (hone : level.kind = .one → es.length ≤ 1)
    (hes : ∀ e ∈ es, e.Fits S level.table children)
    (hitems : ∀ item ∈ items, item.Fits S level.table children)
    (hsingle : level.aggregated = false → items.length ≤ 1) (hkept : level.kept es = es)
    (hunite : ∀ e ∈ es, ∀ item ∈ items, Merge.unite children (e.object level.table children)
      (item.object level.table children) = .ok ((e.join children item).object level.table children))
    (hequal : ∀ e ∈ es, ∀ item ∈ items, (e.object level.table children).equals
      (item.object level.table children) = true → e.join children item = e) :
    uniteHeld level children (held (.mk level children) es) (held (.mk level children) items) =
      .ok (held (.mk level children) (join (.mk level children) es items)) := by
  unfold uniteHeld
  cases hkind : level.kind with
  | one =>
    rw [join_of_one hkind, held_one hkind, held_one hkind, held_one hkind]
    rcases es with _ | ⟨e, es⟩
    · rfl
    · obtain rfl : es = [] := by
        have hlen := hone hkind
        rw [List.length_cons] at hlen
        exact List.eq_nil_of_length_eq_zero (by omega)
      rcases items with _ | ⟨item, items⟩
      · rfl
      · exact hunite e (by simp) item (by simp)
  | many =>
    rw [join_of_many hkind, held_many hkind, held_many hkind, held_many hkind]
    have hput := Merge.putAll_list
      (foldlM_put_object hS hapart hkeys hleaf hes hitems hsingle hunite hequal)
    simp only [Value.itemsIfAny_list, bind, Except.bind, hput]
    rw [hlimit.cut_list hkind, Level.kept_map]

/-- Relations of objects within limits are united as the related objects are joined. -/
theorem uniteAll_joinAll (hS : Value.Equated S) (hapart : KeysApart nodes)
    (hleaves : AggregatesLeaves nodes) (hlimits : LimitsCount nodes)
    {ps ks : List (List Entity)} (hp : AllFit S nodes ps) (hk : AllFit S nodes ks)
    (hsingle : AllSingle nodes ks) (hwithin : AllWithin nodes ps)
    (before before' : List (String × Value)) (hnames : (Keyed.keys before ++ names nodes).Nodup)
    (hnames' : (Keyed.keys before' ++ names nodes).Nodup) :
    Merge.uniteAll nodes (Row.named (before ++ relations nodes ps))
        (Row.named (before' ++ relations nodes ks)) =
      .ok (Row.named (before ++ relations nodes (joinAll nodes ps ks))) := by
  induction nodes using forest_induction generalizing ps ks before before' with
  | nil =>
    cases ps with
    | nil => rfl
    | cons es others => exact hp.elim
  | cons level children rest ihChildren ihRest =>
    rcases ps with _ | ⟨es, others⟩
    · exact hp.elim
    rcases ks with _ | ⟨items, others'⟩
    · exact hk.elim
    obtain ⟨⟨hkeys, hapartBelow⟩, hapartRest⟩ := hapart
    obtain ⟨⟨hleaf, hleavesBelow⟩, hleavesRest⟩ := hleaves
    obtain ⟨⟨hlimit, hlimitsBelow⟩, hlimitsRest⟩ := hlimits
    obtain ⟨⟨hone, -, hes⟩, hpRest⟩ := hp
    obtain ⟨⟨-, -, hitems⟩, hkRest⟩ := hk
    obtain ⟨⟨hkept, hwithinBelow⟩, hwithinRest⟩ := hwithin
    have hsingleBelow := single_below (fun hagg ↦ (hleaf hagg).2) hsingle.1
    have hunite : ∀ e ∈ es, ∀ item ∈ items, Merge.unite children
        (e.object level.table children) (item.object level.table children) =
          .ok ((e.join children item).object level.table children) := by
      intro e he item hmem
      obtain ⟨hcells, -, hbelow⟩ := hes e he
      obtain ⟨hcells', -, hbelow'⟩ := hitems item hmem
      exact unite_of_uniteAll hkeys hcells hcells' fun before before' hnames hnames' ↦
        ihChildren hapartBelow hleavesBelow hlimitsBelow hbelow hbelow' (hsingleBelow item hmem)
          (hwithinBelow e he) before before' hnames hnames'
    have hequal : ∀ e ∈ es, ∀ item ∈ items, (e.object level.table children).equals
        (item.object level.table children) = true → e.join children item = e := by
      intro e he item hmem hequals
      obtain ⟨hcells, -, hbelow⟩ := hes e he
      obtain ⟨hcells', -, hbelow'⟩ := hitems item hmem
      exact (same_of_equals hS hapartBelow hkeys ⟨hcells, hbelow⟩ ⟨hcells', hbelow'⟩
        (hwithinBelow e he) hequals).2
    have hheld := uniteHeld_join hS.toComparable hapartBelow hkeys (fun hagg ↦ (hleaf hagg).2)
      hlimit hone (fun e he ↦ ⟨(hes e he).1, (hes e he).2.2⟩)
      (fun item hmem ↦ ⟨(hitems item hmem).1, (hitems item hmem).2.2⟩)
      (fun hagg ↦ (hsingle.1 hagg).1) hkept hunite hequal
    have hrest := ihRest hapartRest hleavesRest hlimitsRest hpRest hkRest hsingle.2 hwithinRest
      (before ++ [(level.name, held (.mk level children) (join (.mk level children) es items))])
      (before' ++ [(level.name, held (.mk level children) items)]) (nodup_keys_snoc _ hnames)
      (nodup_keys_snoc _ hnames')
    change Merge.uniteAll (.mk level children :: rest)
      (Row.named (before ++ (level.name, held (.mk level children) es) :: relations rest others))
      (Row.named (before' ++ (level.name, held (.mk level children) items) ::
        relations rest others')) = _
    rw [uniteAll_between (name_notMem_keys hnames) (name_notMem_keys hnames'), hheld]
    change Merge.uniteAll rest _ _ = _
    rw [hrest, List.append_assoc]
    rfl

end Node

/-- Objects within limits are united as the entities they stand for are joined. -/
theorem Entity.unite_object (hS : Value.Equated S) {t : Table} {nodes : List Node}
    (hkeys : (t.keys ++ Node.names nodes).Nodup) (hapart : Node.KeysApart nodes)
    (hleaves : Node.AggregatesLeaves nodes) (hlimits : Node.LimitsCount nodes) {e item : Entity}
    (he : e.Fits S t nodes) (hitem : item.Fits S t nodes)
    (hsingle : Node.AllSingle nodes item.related) (hwithin : Node.AllWithin nodes e.related) :
    Merge.unite nodes (e.object t nodes) (item.object t nodes) =
      .ok ((e.join nodes item).object t nodes) :=
  Node.unite_of_uniteAll hkeys he.1 hitem.1 fun before before' hnames hnames' ↦
    Node.uniteAll_joinAll hS hapart hleaves hlimits he.2 hitem.2 hsingle hwithin before before'
      hnames hnames'

end Columnar
