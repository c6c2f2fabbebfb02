import Columnar.Proofs.Fetch.Collection
import Columnar.Proofs.Fetch.Parts

/-!
# Limits

A relation to many rows keeps the first of the related objects, as many as it is limited to. Here
objects are joined and cut as entities: joining them without limits and cutting what comes out is
the same as cutting both and joining them with limits (`cutAll_joinAll`), where the objects that are
joined in come from a flat row.
-/

namespace Columnar

/-- The items that a relation keeps: where it leads to many rows, the first ones, as many as it is
limited to. -/
def Level.kept {α : Type} (level : Level) (items : List α) : List α :=
  match level.kind, FindOptions.counted level.options.limit with
  | .many, some n => items.take n.toNat
  | _, _ => items

/-- The same relation without a limit. -/
def Level.unlimited (level : Level) : Level :=
  { level with options := { level.options with limit := none } }

namespace Node

mutual

/-- A relation without a limit, and without limits below it. -/
def withoutLimits : Node → Node
  | .mk level children => .mk level.unlimited (unlimited children)

/-- Relations without limits. -/
def unlimited : List Node → List Node
  | [] => []
  | n :: rest => n.withoutLimits :: unlimited rest

end

mutual

/-- What is held of a relation, cut: of many objects the first ones are kept, and what those that
are kept hold is cut in turn. -/
def cutHeld : Node → Value → Value
  | .mk level children, .list items => .list ((level.kept items).map (cutObject children))
  | .mk _ children, v => cutObject children v

/-- An object, with what it holds of relations cut. -/
def cutObject : List Node → Value → Value
  | n :: rest, .map entries =>
    let held := n.cutHeld (Value.get n.level.name entries)
    cutObject rest (.map (Value.setEntry (.text n.level.name) held entries))
  | _, v => v

end

mutual

/-- Objects related by a relation, cut: the first ones are kept, and what is related to those that
are kept is cut in turn. -/
def cut : Node → List Entity → List Entity
  | .mk level children, es => (level.kept es).map fun e ↦ .mk e.cells (cutAll children e.related)

/-- Related objects, cut relation by relation. -/
def cutAll : List Node → List (List Entity) → List (List Entity)
  | n :: rest, es :: others => n.cut es :: cutAll rest others
  | _, _ => []

end

end Node

/-- Whether two objects agree in all columns. -/
def Entity.same (a b : Entity) : Bool := Value.equalsAll a.cells b.cells

namespace Node

mutual

/-- Objects related by a relation, joined with others and cut: one object with another one, many
with those that agree with them in all columns. -/
def join : Node → List Entity → List Entity → List Entity
  | .mk level children, es, items =>
    let join (e item : Entity) : Entity :=
      .mk e.cells (joinAll children e.related item.related)
    match level.kind with
    | .one => Collection.joinHeads join es items
    | .many => level.kept (Collection.putAll Entity.same join es items)

/-- Related objects, joined with others relation by relation. -/
def joinAll : List Node → List (List Entity) → List (List Entity) → List (List Entity)
  | n :: rest, es :: others, items :: others' => n.join es items :: joinAll rest others others'
  | _, _, _ => []

end

end Node

namespace Entity

/-- An object with what is related to it cut. -/
def cut (nodes : List Node) (e : Entity) : Entity := .mk e.cells (Node.cutAll nodes e.related)

/-- An object with what is related to it joined with what is related to another. -/
def join (nodes : List Node) (e item : Entity) : Entity :=
  .mk e.cells (Node.joinAll nodes e.related item.related)

end Entity

namespace Level

variable {α β : Type} {level : Level}

/-- A limit that is present leaves something. -/
def Leaves (level : Level) : Prop := ∀ n, level.options.limit = some n → 1 ≤ n

/-- A limit on many rows is not negative. -/
def Counts (level : Level) : Prop :=
  level.kind = .many → ∀ n, level.options.limit = some n → 0 ≤ n

theorem Leaves.counts (h : level.Leaves) : level.Counts :=
  fun _ n hn ↦ Int.le_trans (by decide) (h n hn)

/-- What a relation keeps are the first items, or all of them. -/
theorem kept_cases (level : Level) :
    (∃ n : Nat, (level.Counts → 1 ≤ n) ∧
      ∀ {α : Type} (items : List α), level.kept items = items.take n) ∨
    ∀ {α : Type} (items : List α), level.kept items = items := by
  unfold kept
  cases hkind : level.kind with
  | one => exact .inr fun _ ↦ rfl
  | many =>
    rcases hcounted : FindOptions.counted level.options.limit with _ | n
    · exact .inr fun _ ↦ rfl
    · refine .inl ⟨n.toNat, fun h ↦ ?_, fun _ ↦ rfl⟩
      obtain ⟨hlimit, hzero⟩ := Option.filter_eq_some_iff.mp hcounted
      have hsign := h hkind n hlimit
      have hzero : n ≠ 0 := of_decide_eq_true hzero
      omega

theorem kept_map (f : α → β) (items : List α) :
    level.kept (items.map f) = (level.kept items).map f := by
  rcases level.kept_cases with ⟨n, -, hkept⟩ | hkept
  · rw [hkept, hkept, List.map_take]
  · rw [hkept, hkept]

theorem kept_kept (items : List α) : level.kept (level.kept items) = level.kept items := by
  rcases level.kept_cases with ⟨n, -, hkept⟩ | hkept
  · rw [hkept, hkept, List.take_take, Nat.min_self]
  · rw [hkept, hkept]

theorem kept_sublist (items : List α) : (level.kept items).Sublist items := by
  rcases level.kept_cases with ⟨n, -, hkept⟩ | hkept
  · rw [hkept]
    exact List.take_sublist _ _
  · rw [hkept]

@[simp] theorem kept_unlimited (items : List α) : level.unlimited.kept items = items := by
  unfold kept unlimited
  cases level.kind <;> rfl

theorem leaves_unlimited (level : Level) : level.unlimited.Leaves := by
  intro n h
  cases h

theorem kept_of_one (hkind : level.kind = .one) (items : List α) : level.kept items = items := by
  rw [kept, hkind]

theorem Counts.kept_of_length_le (h : level.Counts) {items : List α} (hlen : items.length ≤ 1) :
    level.kept items = items := by
  rcases level.kept_cases with ⟨n, hn, hkept⟩ | hkept
  · rw [hkept, List.take_of_length_le (Nat.le_trans hlen (hn h))]
  · rw [hkept]

theorem kept_putAll (same : α → α → Bool) (join : α → α → α) (xs items : List α) :
    level.kept (Collection.putAll same join xs items) =
      level.kept (Collection.putAll same join (level.kept xs) items) := by
  rcases level.kept_cases with ⟨n, -, hkept⟩ | hkept
  · rw [hkept, hkept, hkept, Collection.take_putAll]
  · rw [hkept, hkept, hkept]

/-- Of items that differ from each other those behind as many as are kept make no difference to what
is kept of a collection that they are put into, where joining changes nothing. -/
theorem kept_putAll_kept {same : α → α → Bool} {join : α → α → α} {P : α → Prop}
    (hkeep : ∀ x item, P x → join x item = x) (hrefl : ∀ a, P a → same a a = true)
    (hmeet : ∀ x a b, P x → P a → P b → same x a = true → same x b = true → same a b = true)
    {xs items : List α} (hxs : ∀ x ∈ xs, P x) (hP : ∀ item ∈ items, P item)
    (hitems : items.Pairwise fun a b ↦ same a b = false) :
    level.kept (Collection.putAll same join xs items) =
      level.kept (Collection.putAll same join xs (level.kept items)) := by
  rcases level.kept_cases with ⟨n, -, hkept⟩ | hkept
  · rw [hkept, hkept, hkept]
    exact Collection.take_putAll_take hkeep hrefl hmeet hxs hP hitems n
  · rw [hkept, hkept, hkept]

/-- A list up to a limit is its first items. -/
theorem Counts.sliceTo_eq_take (h : level.Counts) (hkind : level.kind = .many) {n : Int}
    (hcounted : FindOptions.counted level.options.limit = some n) (items : List α) :
    sliceTo n items = items.take n.toNat := by
  have hn := h hkind n (Option.filter_eq_some_iff.mp hcounted).1
  have hsign : ¬ n < 0 := by omega
  rw [sliceTo, if_neg hsign]

/-- The page of a relation that begins with its first row is what the relation keeps. -/
theorem Counts.page_eq_kept (h : level.Counts) (hkind : level.kind = .many)
    (hstart : FindOptions.counted level.options.offset = none) (items : List α) :
    level.options.page items = level.kept items := by
  unfold FindOptions.page kept
  rw [hkind, hstart]
  rcases hcounted : FindOptions.counted level.options.limit with _ | n
  · rfl
  · exact h.sliceTo_eq_take hkind hcounted items

/-- A collection is cut to what a relation keeps. -/
theorem Counts.cut_list (h : level.Counts) (hkind : level.kind = .many) (items : List Value) :
    Merge.cut level.options.limit (.list items) = .ok (.list (level.kept items)) := by
  unfold Merge.cut kept
  rw [hkind]
  rcases hcounted : FindOptions.counted level.options.limit with _ | n
  · rfl
  · exact congrArg (fun items ↦ Except.ok (Value.list items))
      (h.sliceTo_eq_take hkind hcounted items)

end Level

/-- Values that can be compared, and of which equality is an equivalence. -/
structure Value.Equated (S : Value → Prop) : Prop extends Value.Comparable S where
  trans : ∀ a b c, S a → S b → S c → a.equals b = true → b.equals c = true → a.equals c = true

theorem Value.Equated.equalsAll_trans {S : Value → Prop} (hS : Value.Equated S)
    {xs ys zs : List Value} (hx : ∀ v ∈ xs, S v) (hy : ∀ v ∈ ys, S v) (hz : ∀ v ∈ zs, S v)
    (hxy : Value.equalsAll xs ys = true) (hyz : Value.equalsAll ys zs = true) :
    Value.equalsAll xs zs = true := by
  induction xs generalizing ys zs with
  | nil =>
    cases ys with
    | nil => exact hyz
    | cons y ys => cases hxy
  | cons x xs ih =>
    rcases ys with _ | ⟨y, ys⟩
    · cases hxy
    rcases zs with _ | ⟨z, zs⟩
    · cases hyz
    rw [Value.equalsAll, Bool.and_eq_true] at hxy hyz ⊢
    obtain ⟨hx, hxs⟩ := List.forall_mem_cons.mp hx
    obtain ⟨hy, hys⟩ := List.forall_mem_cons.mp hy
    obtain ⟨hz, hzs⟩ := List.forall_mem_cons.mp hz
    exact ⟨hS.trans x y z hx hy hz hxy.1 hyz.1, ih hxs hys hzs hxy.2 hyz.2⟩

/-- Objects that agree with the same one agree with each other. -/
theorem Value.Equated.same_of_same {S : Value → Prop} (hS : Value.Equated S) {e a b : Entity}
    (he : ∀ v ∈ e.cells, S v) (ha : ∀ v ∈ a.cells, S v) (hb : ∀ v ∈ b.cells, S v)
    (hea : e.same a = true) (heb : e.same b = true) : a.same b = true :=
  hS.equalsAll_trans ha he hb (hS.equalsAll_symm he ha hea) heb

namespace Node

variable {S : Value → Prop} {nodes : List Node}

/-- Every limit leaves something. -/
def LimitsLeave : List Node → Prop := All fun level _ ↦ level.Leaves

/-- No limit on many rows is negative. -/
def LimitsCount : List Node → Prop := All fun level _ ↦ level.Counts

theorem LimitsLeave.counts (h : LimitsLeave nodes) : LimitsCount nodes :=
  h.imp fun _ _ hlevel ↦ hlevel.counts

/-! ### Joining and cutting -/

theorem cut_mk (level : Level) (children : List Node) (es : List Entity) :
    cut (.mk level children) es = (level.kept es).map (Entity.cut children) := rfl

theorem join_of_one {level : Level} (hkind : level.kind = .one) (children : List Node)
    (es items : List Entity) : join (.mk level children) es items =
      Collection.joinHeads (Entity.join children) es items := by
  rw [join, hkind]
  rfl

theorem join_of_many {level : Level} (hkind : level.kind = .many) (children : List Node)
    (es items : List Entity) : join (.mk level children) es items =
      level.kept (Collection.putAll Entity.same (Entity.join children) es items) := by
  rw [join, hkind]
  rfl

/-- Objects without relations are kept as they are when they are cut. -/
theorem cut_leaf {e : Entity} (he : e.related = []) : Entity.cut [] e = e := by
  obtain ⟨cells, related⟩ := e
  obtain rfl : related = [] := he
  rfl

/-- Objects without relations are kept as they are when others are joined in. -/
theorem join_leaf {e : Entity} (he : e.related = []) (item : Entity) :
    Entity.join [] e item = e := by
  obtain ⟨cells, related⟩ := e
  obtain rfl : related = [] := he
  rfl

/-- What comes from one row does so below each object. -/
theorem single_below {level : Level} {children : List Node} {items : List Entity}
    (hleaf : level.aggregated = true → children = []) (h : Single (.mk level children) items) :
    ∀ item ∈ items, AllSingle children item.related := by
  intro item hmem
  by_cases hagg : level.aggregated = true
  · rw [hleaf hagg]
    exact trivial
  · exact (h (Bool.eq_false_iff.mpr hagg)).2 item hmem

/-- Many objects of a relation, joined without limits and cut, are those that are cut and joined. -/
private theorem cut_join_many (hS : Value.Equated S) {level : Level} {children : List Node}
    (hleaf : level.aggregated = true → children = []) (hlimit : level.Leaves)
    (hkind : level.kind = .many) {es items : List Entity}
    (hes : ∀ e ∈ es, ∀ v ∈ e.cells, S v) (hitems : ∀ item ∈ items, ∀ v ∈ item.cells, S v)
    (hapart : items.Pairwise fun a b ↦ a.same b = false)
    (hsingle : level.aggregated = false → items.length ≤ 1)
    (hjoin : ∀ e ∈ es, ∀ item ∈ items, (e.join (unlimited children) item).cut children =
      (e.cut children).join children (item.cut children)) :
    cut (.mk level children) (join (.mk level.unlimited (unlimited children)) es items) =
      join (.mk level children) (cut (.mk level children) es)
        (cut (.mk level children) items) := by
  have hmap : (Collection.putAll Entity.same (Entity.join (unlimited children)) es items).map
      (Entity.cut children) = Collection.putAll Entity.same (Entity.join children)
        (es.map (Entity.cut children)) (items.map (Entity.cut children)) := by
    by_cases hagg : level.aggregated = true
    · obtain rfl := hleaf hagg
      exact Collection.map_putAll (fun _ _ ↦ rfl) fun _ _ ↦ rfl
    · rcases items with _ | ⟨item, _ | ⟨item', items⟩⟩
      · rfl
      · exact Collection.map_put (fun _ _ ↦ rfl) fun e he ↦ hjoin e he item (by simp)
      · have hlen := hsingle (Bool.eq_false_iff.mpr hagg)
        simp only [List.length_cons] at hlen
        omega
  have hbehind (xs : List Entity) (hxs : ∀ e ∈ xs, ∃ e' ∈ es, e = e'.cut children) :
      level.kept (Collection.putAll Entity.same (Entity.join children) xs
        (items.map (Entity.cut children))) =
      level.kept (Collection.putAll Entity.same (Entity.join children) xs
        (level.kept (items.map (Entity.cut children)))) := by
    by_cases hagg : level.aggregated = true
    · obtain rfl := hleaf hagg
      refine Level.kept_putAll_kept (P := fun e ↦ e.related = [] ∧ ∀ v ∈ e.cells, S v)
        (fun e item he ↦ join_leaf he.1 item) (fun e he ↦ hS.equalsAll_refl he.2) ?_ ?_ ?_ ?_
      · intro e a b he ha hb
        exact hS.same_of_same he.2 ha.2 hb.2
      · intro e he
        obtain ⟨e', he', rfl⟩ := hxs e he
        exact ⟨rfl, hes e' he'⟩
      · exact List.forall_mem_map.mpr fun item hmem ↦ ⟨rfl, hitems item hmem⟩
      · exact List.pairwise_map.mpr hapart
    · have hlen := hsingle (Bool.eq_false_iff.mpr hagg)
      have hlen : (items.map (Entity.cut children)).length ≤ 1 := by
        rw [List.length_map]
        exact hlen
      rw [hlimit.counts.kept_of_length_le hlen]
  have hunlimited : level.unlimited.kind = .many := hkind
  rw [join_of_many hunlimited, Level.kept_unlimited, join_of_many hkind, cut_mk, cut_mk, cut_mk,
    ← Level.kept_map, hmap, Level.kept_putAll, hbehind, Level.kept_map, Level.kept_map]
  intro e he
  obtain ⟨e', he', rfl⟩ := List.mem_map.mp ((Level.kept_sublist _).subset he)
  exact ⟨e', he', rfl⟩

/-- Related objects that are joined without limits and then cut are those that are cut and joined
with limits, where those that are joined in come from one row. -/
theorem cutAll_joinAll (hS : Value.Equated S) (hleaves : AggregatesLeaves nodes)
    (hlimits : LimitsLeave nodes) {ps ks : List (List Entity)} (hp : AllFit S nodes ps)
    (hk : AllFit S nodes ks) (hsingle : AllSingle nodes ks) :
    cutAll nodes (joinAll (unlimited nodes) ps ks) =
      joinAll nodes (cutAll nodes ps) (cutAll nodes ks) := by
  induction nodes using forest_induction generalizing ps ks with
  | nil => rfl
  | cons level children rest ihChildren ihRest =>
    rcases ps with _ | ⟨es, others⟩
    · exact hp.elim
    rcases ks with _ | ⟨items, others'⟩
    · exact hk.elim
    obtain ⟨⟨hleaf, hleavesBelow⟩, hleavesRest⟩ := hleaves
    obtain ⟨⟨hlimit, hlimitsBelow⟩, hlimitsRest⟩ := hlimits
    obtain ⟨⟨hone, -, hes⟩, hpRest⟩ := hp
    obtain ⟨⟨hone', hapart, hitems⟩, hkRest⟩ := hk
    obtain ⟨hsingleHere, hsingleRest⟩ := hsingle
    have hsingleBelow := single_below (fun hagg ↦ (hleaf hagg).2) hsingleHere
    have hjoin : ∀ e ∈ es, ∀ item ∈ items, (e.join (unlimited children) item).cut children =
        (e.cut children).join children (item.cut children) := by
      intro e he item hmem
      exact congrArg (Entity.mk e.cells) (ihChildren hleavesBelow hlimitsBelow
        (hes e he).2.2 (hitems item hmem).2.2 (hsingleBelow item hmem))
    have hhere : cut (.mk level children)
        (join (.mk level.unlimited (unlimited children)) es items) =
          join (.mk level children) (cut (.mk level children) es)
            (cut (.mk level children) items) := by
      cases hkind : level.kind with
      | one =>
        have hunlimited : level.unlimited.kind = .one := hkind
        rw [join_of_one hunlimited, join_of_one hkind, cut_mk, cut_mk, cut_mk,
          Level.kept_of_one hkind, Level.kept_of_one hkind, Level.kept_of_one hkind]
        exact Collection.map_joinHeads hjoin
      | many =>
        exact cut_join_many hS (fun hagg ↦ (hleaf hagg).2) hlimit hkind
          (fun e he ↦ (hes e he).1.2) (fun item hmem ↦ (hitems item hmem).1.2) hapart
          (fun hagg ↦ (hsingleHere hagg).1) hjoin
    have hrest := ihRest hleavesRest hlimitsRest hpRest hkRest hsingleRest
    change cut (.mk level children) (join (.mk level.unlimited (unlimited children)) es items) ::
        cutAll rest (joinAll (unlimited rest) others others') =
      join (.mk level children) (cut (.mk level children) es) (cut (.mk level children) items) ::
        joinAll rest (cutAll rest others) (cutAll rest others')
    rw [hhere, hrest]

/-! ### What fits -/

/-- What fits still does after it was joined with what fits. -/
theorem fit_joinAll {ps ks : List (List Entity)} (hp : AllFit S nodes ps)
    (hk : AllFit S nodes ks) : AllFit S nodes (joinAll nodes ps ks) := by
  induction nodes using forest_induction generalizing ps ks with
  | nil => exact trivial
  | cons level children rest ihChildren ihRest =>
    rcases ps with _ | ⟨es, others⟩
    · exact hp.elim
    rcases ks with _ | ⟨items, others'⟩
    · exact hk.elim
    obtain ⟨⟨hone, hapart, hes⟩, hpRest⟩ := hp
    obtain ⟨⟨hone', hapart', hitems⟩, hkRest⟩ := hk
    refine ⟨?_, ihRest hpRest hkRest⟩
    have hjoin : ∀ e item : Entity,
        (e.HasCells S level.table ∧ (∃ v ∈ e.cells, v.isNull = false) ∧
          AllFit S children e.related) → item ∈ items →
        (e.join children item).HasCells S level.table ∧
          (∃ v ∈ (e.join children item).cells, v.isNull = false) ∧
          AllFit S children (e.join children item).related :=
      fun e item he hmem ↦ ⟨he.1, he.2.1, ihChildren he.2.2 (hitems item hmem).2.2⟩
    cases hkind : level.kind with
    | one =>
      rw [join_of_one hkind]
      have hlen := Collection.length_joinHeads (Entity.join children) (hone hkind) (hone' hkind)
      refine ⟨fun _ ↦ hlen, ?_, Collection.forall_mem_joinHeads hes hitems hjoin⟩
      exact Collection.pairwise_joinHeads hapart hapart'
    | many =>
      rw [join_of_many hkind]
      have hsub := level.kept_sublist
        (Collection.putAll Entity.same (Entity.join children) es items)
      refine ⟨fun hnot ↦ ?_, ?_, fun e he ↦ ?_⟩
      · rw [hkind] at hnot
        cases hnot
      · have hput : (Collection.putAll Entity.same (Entity.join children) es items).Pairwise
            fun a b ↦ a.same b = false :=
          Collection.pairwise_putAll (fun _ _ _ ↦ rfl) (fun _ _ _ ↦ rfl) hapart
        exact hput.sublist hsub
      · exact Collection.forall_mem_putAll hitems hes hjoin e (hsub.subset he)

/-- What fits still does after it was cut. -/
theorem fit_cutAll {ps : List (List Entity)} (hp : AllFit S nodes ps) :
    AllFit S nodes (cutAll nodes ps) := by
  induction nodes using forest_induction generalizing ps with
  | nil => exact trivial
  | cons level children rest ihChildren ihRest =>
    rcases ps with _ | ⟨es, others⟩
    · exact hp.elim
    obtain ⟨⟨hone, hapart, hes⟩, hpRest⟩ := hp
    have hsub := level.kept_sublist es
    refine ⟨⟨fun hkind ↦ ?_, ?_, ?_⟩, ihRest hpRest⟩
    · rw [cut_mk, List.length_map]
      exact Nat.le_trans hsub.length_le (hone hkind)
    · exact List.pairwise_map.mpr (hapart.sublist hsub)
    · refine List.forall_mem_map.mpr fun e he ↦ ?_
      obtain ⟨hcells, hnull, hbelow⟩ := hes e (hsub.subset he)
      exact ⟨hcells, hnull, ihChildren hbelow⟩

/-- What comes from one row still looks so after it was cut. -/
theorem single_cutAll {ps : List (List Entity)} (hp : AllSingle nodes ps) :
    AllSingle nodes (cutAll nodes ps) := by
  induction nodes using forest_induction generalizing ps with
  | nil => exact trivial
  | cons level children rest ihChildren ihRest =>
    rcases ps with _ | ⟨es, others⟩
    · exact trivial
    refine ⟨fun hagg ↦ ?_, ihRest hp.2⟩
    obtain ⟨hlen, hbelow⟩ := hp.1 hagg
    have hsub := level.kept_sublist es
    refine ⟨?_, List.forall_mem_map.mpr fun e he ↦ ihChildren (hbelow e (hsub.subset he))⟩
    rw [cut_mk, List.length_map]
    exact Nat.le_trans hsub.length_le hlen

/-! ### What is within limits -/

mutual

/-- No more objects are related by a relation than are kept, and so below. -/
def Within : Node → List Entity → Prop
  | .mk level children, es => level.kept es = es ∧ ∀ e ∈ es, AllWithin children e.related

/-- No more objects are related than are kept, relation by relation. -/
def AllWithin : List Node → List (List Entity) → Prop
  | n :: rest, es :: others => n.Within es ∧ AllWithin rest others
  | _, _ => True

end

theorem within_cutAll (nodes : List Node) (ps : List (List Entity)) :
    AllWithin nodes (cutAll nodes ps) := by
  induction nodes using forest_induction generalizing ps with
  | nil => exact trivial
  | cons level children rest ihChildren ihRest =>
    rcases ps with _ | ⟨es, others⟩
    · exact trivial
    refine ⟨⟨?_, List.forall_mem_map.mpr fun e _ ↦ ihChildren e.related⟩, ihRest others⟩
    rw [cut_mk, Level.kept_map, Level.kept_kept]

theorem within_unlimited (nodes : List Node) (ps : List (List Entity)) :
    AllWithin (unlimited nodes) ps := by
  induction nodes using forest_induction generalizing ps with
  | nil => exact trivial
  | cons level children rest ihChildren ihRest =>
    rcases ps with _ | ⟨es, others⟩
    · exact trivial
    exact ⟨⟨level.kept_unlimited es, fun e _ ↦ ihChildren e.related⟩, ihRest others⟩

/-! ### Without limits -/

/-- A property of relations without limits follows from one of the relations. -/
theorem all_unlimited {P Q : Level → List Node → Prop}
    (h : ∀ level children, P level children → Q level.unlimited (unlimited children))
    (hall : All P nodes) : All Q (unlimited nodes) := by
  induction nodes using forest_induction with
  | nil => exact trivial
  | cons level children rest ihChildren ihRest =>
    obtain ⟨⟨hlevel, hchildren⟩, hrest⟩ := hall
    exact ⟨⟨h _ _ hlevel, ihChildren hchildren⟩, ihRest hrest⟩

@[simp] theorem names_unlimited (nodes : List Node) : names (unlimited nodes) = names nodes := by
  induction nodes with
  | nil => rfl
  | cons n rest ih =>
    obtain ⟨level, children⟩ := n
    exact congrArg (level.name :: ·) ih

/-- Objects hold the same of relations with and without limits. -/
@[simp] theorem relations_unlimited (nodes : List Node) (ps : List (List Entity)) :
    relations (unlimited nodes) ps = relations nodes ps := by
  induction nodes using forest_induction generalizing ps with
  | nil => rfl
  | cons level children rest ihChildren ihRest =>
    rcases ps with _ | ⟨es, others⟩
    · rfl
    have hheld : held (.mk level.unlimited (unlimited children)) es =
        held (.mk level children) es := by
      rw [held, held]
      simp only [ihChildren]
      rfl
    change (level.name, held (.mk level.unlimited (unlimited children)) es) ::
      relations (unlimited rest) others = _
    rw [hheld, ihRest]
    rfl

@[simp] theorem allFit_unlimited {ps : List (List Entity)} :
    AllFit S (unlimited nodes) ps ↔ AllFit S nodes ps := by
  induction nodes using forest_induction generalizing ps with
  | nil => exact .rfl
  | cons level children rest ihChildren ihRest =>
    rcases ps with _ | ⟨es, others⟩
    · exact .rfl
    change Fits S (.mk level.unlimited (unlimited children)) es ∧
      AllFit S (unlimited rest) others ↔ _
    rw [ihRest, Fits]
    simp only [ihChildren]
    rfl

theorem single_unlimited {ps : List (List Entity)} (h : AllSingle nodes ps) :
    AllSingle (unlimited nodes) ps := by
  induction nodes using forest_induction generalizing ps with
  | nil => exact trivial
  | cons level children rest ihChildren ihRest =>
    rcases ps with _ | ⟨es, others⟩
    · exact trivial
    refine ⟨fun hagg ↦ ?_, ihRest h.2⟩
    obtain ⟨hlen, hbelow⟩ := h.1 hagg
    exact ⟨hlen, fun e he ↦ ihChildren (hbelow e he)⟩

/-! ### Equal objects -/

/-- Objects that are equal are the same, and joining them changes nothing. -/
private theorem join_eq_self {t : Table} (hkeys : (t.keys ++ names nodes).Nodup) {e item : Entity}
    (he : e.Fits S t nodes) (hitem : item.Fits S t nodes)
    (hbelow : (∀ x ∈ relations nodes e.related, ∃ y ∈ relations nodes item.related,
      x.1 = y.1 ∧ x.2.equals y.2 = true) → joinAll nodes e.related item.related = e.related)
    (h : (e.object t nodes).equals (item.object t nodes) = true) :
    e.same item = true ∧ e.join nodes item = e := by
  obtain ⟨hcells, hrelations⟩ := equals_object hkeys he hitem h
  refine ⟨hcells, ?_⟩
  rw [Entity.join, hbelow hrelations]
  cases e
  rfl

/-- Joining what is equal changes nothing within limits. -/
theorem joinAll_of_equals (hS : Value.Equated S) (hapart : KeysApart nodes)
    (hnames : (names nodes).Nodup) {ps ks : List (List Entity)} (hp : AllFit S nodes ps)
    (hk : AllFit S nodes ks) (hwithin : AllWithin nodes ps)
    (h : ∀ x ∈ relations nodes ps, ∃ y ∈ relations nodes ks, x.1 = y.1 ∧ x.2.equals y.2 = true) :
    joinAll nodes ps ks = ps := by
  induction nodes using forest_induction generalizing ps ks with
  | nil =>
    cases ps with
    | nil => rfl
    | cons es others => exact hp.elim
  | cons level children rest ihChildren ihRest =>
    rcases ps with _ | ⟨es, others⟩
    · exact hp.elim
    rcases ks with _ | ⟨items, others'⟩
    · exact hk.elim
    obtain ⟨hhere, hthere⟩ := equals_held_of_equals hnames hp.2 hk.2 h
    obtain ⟨⟨hkeys, hapartBelow⟩, hapartRest⟩ := hapart
    obtain ⟨⟨hone, hdiffer, hes⟩, hpRest⟩ := hp
    obtain ⟨⟨hone', -, hitems⟩, hkRest⟩ := hk
    obtain ⟨⟨hkept, hwithinBelow⟩, hwithinRest⟩ := hwithin
    have hfound {item : Entity} (hmem : item ∈ items) :
        ∃ e ∈ es, e.same item = true ∧ e.join children item = e := by
      obtain ⟨e, he, hequal⟩ := exists_of_equals_held hone' hhere hmem
      obtain ⟨hcells, -, hbelow⟩ := hes e he
      obtain ⟨hcells', -, hbelow'⟩ := hitems item hmem
      exact ⟨e, he, join_eq_self hkeys ⟨hcells, hbelow⟩ ⟨hcells', hbelow'⟩
        (ihChildren hapartBelow (List.nodup_append.mp hkeys).2.1 hbelow hbelow'
          (hwithinBelow e he)) hequal⟩
    have hjoin : join (.mk level children) es items = es := by
      cases hkind : level.kind with
      | one =>
        rw [join_of_one hkind]
        rcases items with _ | ⟨item, items⟩
        · cases es <;> rfl
        · obtain ⟨e, he, -, heq⟩ := hfound (List.mem_cons_self ..)
          obtain ⟨e', rfl⟩ := List.length_eq_one_iff.mp
            (Nat.le_antisymm (hone hkind) (List.length_pos_of_mem he))
          obtain rfl := List.mem_singleton.mp he
          rw [Collection.joinHeads, heq]
      | many =>
        rw [join_of_many hkind, Collection.putAll_eq_self, hkept]
        · intro item hmem
          obtain ⟨e, he, hsame, -⟩ := hfound hmem
          exact ⟨e, he, hsame⟩
        · intro item hmem x hx hsame
          -- objects that differ are not the same as one item
          obtain ⟨e, he, hsame', heq⟩ := hfound hmem
          have hagree := hS.same_of_same (hitems item hmem).1.2 (hes x hx).1.2 (hes e he).1.2
            (hS.equalsAll_symm (hes x hx).1.2 (hitems item hmem).1.2 hsame)
            (hS.equalsAll_symm (hes e he).1.2 (hitems item hmem).1.2 hsame')
          obtain rfl := eq_of_equalsAll hS.toComparable hdiffer (fun e he ↦ (hes e he).1) hx he
            hagree
          exact heq
    have hrest := ihRest hapartRest (List.nodup_cons.mp hnames).2 hpRest hkRest hwithinRest hthere
    change join (.mk level children) es items :: joinAll rest others others' = _
    rw [hjoin, hrest]

/-- Objects that are equal agree in all columns, and joining them changes nothing within limits. -/
theorem same_of_equals (hS : Value.Equated S) (hapart : KeysApart nodes) {t : Table}
    (hkeys : (t.keys ++ names nodes).Nodup) {e item : Entity} (he : e.Fits S t nodes)
    (hitem : item.Fits S t nodes) (hwithin : AllWithin nodes e.related)
    (h : (e.object t nodes).equals (item.object t nodes) = true) :
    e.same item = true ∧ e.join nodes item = e :=
  join_eq_self hkeys he hitem (joinAll_of_equals hS hapart (List.nodup_append.mp hkeys).2.1 he.2
    hitem.2 hwithin) h

end Node

end Columnar
