import Columnar.Proofs.Fetch.Rows
import Columnar.Proofs.Succeeding
import Mathlib.Data.List.Perm.Subperm

/-!
# Parts of entities

While rows are merged an object is known in part: `AllPart` says that what is known of its related
objects belongs to it, `AllBelow` that one part holds no more than another. Objects that fit a tree
can always be compared (`same_object`), and of two parts that are equal neither holds more
(`allBelow_of_equals`). A part that is above all picks is the whole (`allSimilar_of_picks`).
-/

namespace Columnar

namespace Node

mutual

/-- Objects are part of those related by a relation: all of them where it is aggregated, otherwise
some, each at most once and known in part. -/
def Part : Node → List Entity → List Entity → Prop
  | .mk level children, es, ps =>
    if level.aggregated then ps = es
    else (ps.map Entity.cells).Nodup ∧
      ∀ p ∈ ps, ∃ e ∈ es, p.cells = e.cells ∧ AllPart children e.related p.related

/-- Objects are part of those related, relation by relation. -/
def AllPart : List Node → List (List Entity) → List (List Entity) → Prop
  | n :: rest, es :: others, ps :: others' => n.Part es ps ∧ AllPart rest others others'
  | [], [], [] => True
  | _, _, _ => False

end

mutual

/-- The second objects hold whatever the first ones do. -/
def Below : Node → List Entity → List Entity → Prop
  | .mk _ children, ps, rs =>
    ∀ p ∈ ps, ∃ r ∈ rs, p.cells = r.cells ∧ AllBelow children p.related r.related

/-- The second objects hold whatever the first ones do, relation by relation. -/
def AllBelow : List Node → List (List Entity) → List (List Entity) → Prop
  | n :: rest, ps :: others, rs :: others' => n.Below ps rs ∧ AllBelow rest others others'
  | [], [], [] => True
  | _, _, _ => False

end

variable {S : Value → Prop} {nodes : List Node}

/-- What fits is below itself. -/
theorem allBelow_refl {related : List (List Entity)} (hfit : AllFit S nodes related) :
    AllBelow nodes related related := by
  induction nodes using forest_induction generalizing related with
  | nil =>
    cases related with
    | nil => exact trivial
    | cons es others => exact hfit.elim
  | cons level children rest ihChildren ihRest =>
    rcases related with _ | ⟨es, others⟩
    · exact hfit.elim
    · obtain ⟨⟨-, -, hes⟩, hfitRest⟩ := hfit
      exact ⟨fun e he ↦ ⟨e, he, rfl, ihChildren (hes e he).2.2⟩, ihRest hfitRest⟩

/-- What is below something is below whatever that is below. -/
theorem allBelow_trans {as bs cs : List (List Entity)} (hab : AllBelow nodes as bs)
    (hbc : AllBelow nodes bs cs) : AllBelow nodes as cs := by
  induction nodes using forest_induction generalizing as bs cs with
  | nil =>
    cases as <;> cases bs <;> cases cs <;> first | exact trivial | exact hab.elim | exact hbc.elim
  | cons level children rest ihChildren ihRest =>
    rcases as with _ | ⟨as, othersA⟩
    · exact hab.elim
    rcases bs with _ | ⟨bs, othersB⟩
    · exact hab.elim
    rcases cs with _ | ⟨cs, othersC⟩
    · exact hbc.elim
    refine ⟨fun a ha ↦ ?_, ihRest hab.2 hbc.2⟩
    obtain ⟨b, hb, hcells, hbelow⟩ := hab.1 a ha
    obtain ⟨c, hc, hcells', hbelow'⟩ := hbc.1 b hb
    exact ⟨c, hc, hcells.trans hcells', ihChildren hbelow hbelow'⟩

end Node

/-! ### Cells of related objects -/

section Cells

variable {S : Value → Prop} {t : Table}

/-- Cells are equal to themselves. -/
theorem Value.Comparable.equalsAll_refl (hS : Value.Comparable S) {cells : List Value}
    (h : ∀ v ∈ cells, S v) : Value.equalsAll cells cells = true := by
  induction cells with
  | nil => rfl
  | cons v cells ih =>
    rw [Value.equalsAll, hS.refl v (h v (by simp)), ih fun w hw ↦ h w (by simp [hw])]
    rfl

/-- It does not matter which of two rows of cells comes first. -/
theorem Value.Comparable.equalsAll_symm (hS : Value.Comparable S) {xs ys : List Value}
    (hx : ∀ v ∈ xs, S v) (hy : ∀ v ∈ ys, S v) (h : Value.equalsAll xs ys = true) :
    Value.equalsAll ys xs = true := by
  induction xs generalizing ys with
  | nil =>
    cases ys with
    | nil => rfl
    | cons y ys => cases h
  | cons x xs ih =>
    cases ys with
    | nil => cases h
    | cons y ys =>
      rw [Value.equalsAll, Bool.and_eq_true] at h ⊢
      exact ⟨hS.symm x y (hx x (by simp)) (hy y (by simp)) h.1,
        ih (fun v hv ↦ hx v (by simp [hv])) (fun v hv ↦ hy v (by simp [hv])) h.2⟩

/-- Of objects that are all different those that agree in their columns are the same. -/
theorem eq_of_equalsAll (hS : Value.Comparable S) {es : List Entity}
    (hpair : es.Pairwise fun a b ↦ Value.equalsAll a.cells b.cells = false)
    (hcells : ∀ e ∈ es, e.HasCells S t) {a b : Entity} (ha : a ∈ es) (hb : b ∈ es)
    (h : Value.equalsAll a.cells b.cells = true) : a = b := by
  induction es with
  | nil => cases ha
  | cons e es ih =>
    obtain ⟨hhead, htail⟩ := List.pairwise_cons.mp hpair
    rcases List.mem_cons.mp ha with rfl | ha' <;> rcases List.mem_cons.mp hb with rfl | hb'
    · rfl
    · rw [hhead b hb'] at h
      cases h
    · have h' := hS.equalsAll_symm (hcells a ha).2 (hcells b hb).2 h
      rw [hhead a ha'] at h'
      cases h'
    · exact ih htail (fun e he ↦ hcells e (by simp [he])) ha' hb'

/-- Objects that are all different have different cells. -/
theorem nodup_cells (hS : Value.Comparable S) {es : List Entity}
    (hpair : es.Pairwise fun a b ↦ Value.equalsAll a.cells b.cells = false)
    (hcells : ∀ e ∈ es, e.HasCells S t) : (es.map Entity.cells).Nodup := by
  refine List.pairwise_map.mpr (hpair.imp_of_mem fun {a b} ha _ hab ↦ ?_)
  intro heq
  rw [← heq, hS.equalsAll_refl (hcells a ha).2] at hab
  cases hab

end Cells

namespace Node

variable {S : Value → Prop} {nodes : List Node}

/-- Part of what fits fits too. -/
theorem fit_of_part (hS : Value.Comparable S) {related ps : List (List Entity)}
    (hfit : AllFit S nodes related) (hpart : AllPart nodes related ps) : AllFit S nodes ps := by
  induction nodes using forest_induction generalizing related ps with
  | nil =>
    cases related <;> cases ps <;> first | exact trivial | exact hfit.elim | exact hpart.elim
  | cons level children rest ihChildren ihRest =>
    rcases related with _ | ⟨es, others⟩
    · exact hfit.elim
    rcases ps with _ | ⟨ps, others'⟩
    · exact hpart.elim
    obtain ⟨⟨hone, hpair, hes⟩, hfitRest⟩ := hfit
    obtain ⟨hpart, hpartRest⟩ := hpart
    refine ⟨?_, ihRest hfitRest hpartRest⟩
    rw [Part] at hpart
    by_cases hagg : level.aggregated = true
    · rw [if_pos hagg] at hpart
      rw [hpart]
      exact ⟨hone, hpair, hes⟩
    · rw [if_neg hagg] at hpart
      obtain ⟨hnodup, hps⟩ := hpart
      refine ⟨?_, ?_, ?_⟩
      · intro hkind
        have hsub : ps.map Entity.cells ⊆ es.map Entity.cells := by
          intro cells hcells
          obtain ⟨p, hp, rfl⟩ := List.mem_map.mp hcells
          obtain ⟨e, he, heq, -⟩ := hps p hp
          exact List.mem_map.mpr ⟨e, he, heq.symm⟩
        have hlen := (hnodup.subperm hsub).length_le
        rw [List.length_map, List.length_map] at hlen
        exact Nat.le_trans hlen (hone hkind)
      · refine (List.pairwise_map.mp hnodup).imp_of_mem fun {a b} ha hb hne ↦ ?_
        obtain ⟨e, he, heq, -⟩ := hps a ha
        obtain ⟨e', he', heq', -⟩ := hps b hb
        rw [heq, heq', Bool.eq_false_iff]
        intro h
        obtain rfl := eq_of_equalsAll hS hpair (fun e he ↦ (hes e he).1) he he' h
        exact hne (heq.trans heq'.symm)
      · intro p hp
        obtain ⟨e, he, hcells, hbelow⟩ := hps p hp
        obtain ⟨hhas, hnull, hfitBelow⟩ := hes e he
        refine ⟨?_, ?_, ihChildren hfitBelow hbelow⟩
        · rw [Entity.HasCells, hcells]
          exact hhas
        · rw [hcells]
          exact hnull

/-- What fits is part of itself. -/
theorem allPart_refl (hS : Value.Comparable S) {related : List (List Entity)}
    (hfit : AllFit S nodes related) : AllPart nodes related related := by
  induction nodes using forest_induction generalizing related with
  | nil =>
    cases related with
    | nil => exact trivial
    | cons es others => exact hfit.elim
  | cons level children rest ihChildren ihRest =>
    rcases related with _ | ⟨es, others⟩
    · exact hfit.elim
    · obtain ⟨⟨-, hpair, hes⟩, hfitRest⟩ := hfit
      refine ⟨?_, ihRest hfitRest⟩
      rw [Part]
      split
      · rfl
      · exact ⟨nodup_cells hS hpair fun e he ↦ (hes e he).1,
          fun e he ↦ ⟨e, he, rfl, ihChildren (hes e he).2.2⟩⟩

/-! ### Comparing objects -/

/-- The names of what an object holds of related objects. -/
theorem keys_relations {related : List (List Entity)} (hfit : AllFit S nodes related) :
    Keyed.keys (relations nodes related) = names nodes := by
  induction nodes generalizing related with
  | nil => rfl
  | cons n rest ih =>
    rcases related with _ | ⟨es, others⟩
    · exact hfit.elim
    · rw [relations, names, List.map_cons]
      exact congrArg (n.level.name :: ·) (ih hfit.2)

/-- Comparing objects does not fail when comparing what they hold of relations does not. -/
private theorem signals_object (hS : Value.Comparable S) {t : Table}
    (hkeys : (t.keys ++ names nodes).Nodup) {a b : Entity}
    (ha : a.Fits S t nodes) (hb : b.Fits S t nodes)
    (h : ∀ x ∈ relations nodes a.related, ∀ y ∈ relations nodes b.related, x.1 = y.1 →
      x.2.signals y.2 = false) :
    (a.object t nodes).signals (b.object t nodes) = false := by
  have hapart := (List.nodup_append.mp hkeys).2.2
  have hname {e : Entity} (he : e.Fits S t nodes) {x : String × Value}
      (hx : x ∈ relations nodes e.related) : x.1 ∈ names nodes := by
    rw [← keys_relations he.2]
    exact List.mem_map.mpr ⟨x, hx, rfl⟩
  rw [Entity.object, Entity.object, Value.signals, Row.signalsIn_named, Bool.and_false]
  intro x hx y hy hk
  rcases List.mem_append.mp hx with hx | hx <;> rcases List.mem_append.mp hy with hy | hy
  · exact hS.quiet _ _ (ha.1.2 _ (List.of_mem_zip hx).2) (hb.1.2 _ (List.of_mem_zip hy).2)
  · exact absurd hk (hapart _ (List.of_mem_zip hx).1 _ (hname hb hy))
  · exact absurd hk.symm (hapart _ (List.of_mem_zip hy).1 _ (hname ha hx))
  · exact h x hx y hy hk

private theorem signalsAmong_map {f : Entity → Value} {as bs : List Entity}
    (h : ∀ a ∈ as, ∀ b ∈ bs, (f a).signals (f b) = false) :
    Value.signalsAmong (as.map f) (bs.map f) = false := by
  induction as generalizing bs with
  | nil => rfl
  | cons a as ih =>
    cases bs with
    | nil => rfl
    | cons b bs =>
      rw [List.map_cons, List.map_cons, Value.signalsAmong, h a (by simp) b (by simp),
        ih fun a' ha' b' hb' ↦ h a' (by simp [ha']) b' (by simp [hb'])]
      simp

/-- Comparing what objects hold of relations does not fail. -/
theorem signals_relations (hS : Value.Comparable S) (hapart : KeysApart nodes)
    (hnames : (names nodes).Nodup) {as bs : List (List Entity)} (ha : AllFit S nodes as)
    (hb : AllFit S nodes bs) : ∀ x ∈ relations nodes as, ∀ y ∈ relations nodes bs, x.1 = y.1 →
      x.2.signals y.2 = false := by
  induction nodes using forest_induction generalizing as bs with
  | nil =>
    intro x hx
    cases as <;> cases hx
  | cons level children rest ihChildren ihRest =>
    rcases as with _ | ⟨as, othersA⟩
    · exact ha.elim
    rcases bs with _ | ⟨bs, othersB⟩
    · exact hb.elim
    obtain ⟨⟨hkeys, hapartBelow⟩, hapartRest⟩ := hapart
    obtain ⟨hnot, hnames⟩ := List.nodup_cons.mp hnames
    have hobject : ∀ a ∈ as, ∀ b ∈ bs, (a.object level.table children).signals
        (b.object level.table children) = false := by
      intro a hmemA b hmemB
      obtain ⟨hcellsA, -, hfitA⟩ := ha.1.2.2 a hmemA
      obtain ⟨hcellsB, -, hfitB⟩ := hb.1.2.2 b hmemB
      exact signals_object hS hkeys ⟨hcellsA, hfitA⟩ ⟨hcellsB, hfitB⟩
        (ihChildren hapartBelow (List.nodup_append.mp hkeys).2.1 hfitA hfitB)
    have hhere : (held (.mk level children) as).signals (held (.mk level children) bs) = false := by
      change (level.value (as.map (Entity.object level.table children))).signals
        (level.value (bs.map (Entity.object level.table children))) = false
      unfold Level.value
      cases level.kind with
      | one =>
        cases as with
        | nil => cases bs <;> rfl
        | cons a as =>
          cases bs with
          | nil => rfl
          | cons b bs => exact hobject a (by simp) b (by simp)
      | many =>
        rw [Value.signals, signalsAmong_map hobject, Bool.and_false]
    have hname {es : List (List Entity)} (hes : AllFit S rest es) {x : String × Value}
        (hx : x ∈ relations rest es) : x.1 ≠ level.name := by
      intro hk
      have hmem : x.1 ∈ Keyed.keys (relations rest es) := List.mem_map.mpr ⟨x, hx, rfl⟩
      rw [keys_relations hes, hk] at hmem
      exact hnot hmem
    intro x hx y hy hk
    rcases List.mem_cons.mp hx with rfl | hx <;> rcases List.mem_cons.mp hy with rfl | hy
    · exact hhere
    · exact absurd hk.symm (hname hb.2 hy)
    · exact absurd hk (hname ha.2 hx)
    · exact ihRest hapartRest hnames ha.2 hb.2 x hx y hy hk

/-- Objects can be compared. -/
theorem same_object (hS : Value.Comparable S) {t : Table} (hapart : KeysApart nodes)
    (hkeys : (t.keys ++ names nodes).Nodup) {a b : Entity} (ha : a.Fits S t nodes)
    (hb : b.Fits S t nodes) : (a.object t nodes).same (b.object t nodes) =
      .ok ((a.object t nodes).equals (b.object t nodes)) := by
  rw [Value.same, signals_object hS hkeys ha hb (signals_relations hS hapart
    (List.nodup_append.mp hkeys).2.1 ha.2 hb.2)]
  rfl

/-- Keys are compared one after another. -/
private theorem allM_cells (hS : Value.Comparable S) {ks : List String} {xs ys : List Value}
    {as bs : Row} (hx : xs.length = ks.length) (hy : ys.length = ks.length)
    (hxs : ∀ v ∈ xs, S v) (hys : ∀ v ∈ ys, S v)
    (ha : ∀ p ∈ ks.zip xs, Value.get p.1 as = p.2)
    (hb : ∀ p ∈ ks.zip ys, Value.get p.1 bs = p.2) :
    ks.allM (fun k ↦ (Value.get k as).same (Value.get k bs)) = .ok (Value.equalsAll xs ys) := by
  induction ks generalizing xs ys with
  | nil =>
    obtain rfl := List.length_eq_zero_iff.mp hx
    obtain rfl := List.length_eq_zero_iff.mp hy
    rfl
  | cons k ks ih =>
    rcases xs with _ | ⟨x, xs⟩
    · cases hx
    rcases ys with _ | ⟨y, ys⟩
    · cases hy
    have hrest := ih (by simpa using hx) (by simpa using hy) (fun v hv ↦ hxs v (by simp [hv]))
      (fun v hv ↦ hys v (by simp [hv])) (fun p hp ↦ ha p (by simp [hp]))
      fun p hp ↦ hb p (by simp [hp])
    have hhere : (Value.get k as).same (Value.get k bs) = .ok (x.equals y) := by
      rw [ha (k, x) (by simp), hb (k, y) (by simp), Value.same,
        hS.quiet x y (hxs x (by simp)) (hys y (by simp))]
      rfl
    rw [List.allM, hhere, Value.equalsAll]
    cases x.equals y
    · rfl
    · exact hrest

/-- Objects agree in the columns of their table when their cells are equal. -/
theorem sameColumns_object (hS : Value.Comparable S) {t : Table}
    (hkeys : (t.keys ++ names nodes).Nodup) {a b : Entity} (ha : a.HasCells S t)
    (hb : b.HasCells S t) : Merge.sameColumns t (a.object t nodes) (b.object t nodes) =
      .ok (Value.equalsAll a.cells b.cells) := by
  have hlength {e : Entity} (he : e.HasCells S t) : e.cells.length = t.keys.length := by
    rw [he.1, t.length_keys]
  have hget {e : Entity} (he : e.HasCells S t) : ∀ p ∈ t.keys.zip e.cells,
      Value.get p.1 (Row.named (e.entries t nodes)) = p.2 := by
    intro p hp
    rw [Row.get_named, Entity.entries,
      find?_cells (hlength he) (List.nodup_append.mp hkeys).1 hp]
    rfl
  have hall := allM_cells hS (hlength ha) (hlength hb) ha.2 hb.2 (hget ha) (hget hb)
  rw [Merge.sameColumns]
  by_cases hempty : t.columns.isEmpty = true
  · have hnone : t.keys = [] := by
      rw [Table.keys, Keyed.keys, List.isEmpty_iff.mp hempty, List.map_nil]
    rw [if_pos hempty, ← hall, hnone]
    rfl
  · rw [if_neg hempty]
    exact hall

/-- Where what two objects hold of a relation is equal, each related object of the second has an
equal one in the first. -/
theorem exists_of_equals_held {level : Level} {children : List Node} {as bs : List Entity}
    (hlen : level.kind = .one → bs.length ≤ 1)
    (h : (held (.mk level children) as).equals (held (.mk level children) bs) = true)
    {b : Entity} (hb : b ∈ bs) : ∃ a ∈ as, (a.object level.table children).equals
      (b.object level.table children) = true := by
  change (level.value (as.map (Entity.object level.table children))).equals
    (level.value (bs.map (Entity.object level.table children))) = true at h
  unfold Level.value at h
  cases hkind : level.kind with
  | one =>
    rw [hkind] at h
    have hbs : bs = [b] := by
      obtain ⟨b', rfl⟩ := List.length_eq_one_iff.mp
        (Nat.le_antisymm (hlen hkind) (List.length_pos_of_mem hb))
      rw [List.mem_singleton.mp hb]
    subst hbs
    cases as with
    | nil => cases h
    | cons a as => exact ⟨a, by simp, h⟩
  | many =>
    rw [hkind] at h
    obtain ⟨x, hx, hequal⟩ := Succeeding.exists_of_forall₂ (Value.equalsAll_iff.mp h).flip
      (List.mem_map.mpr ⟨b, hb, rfl⟩)
    obtain ⟨a, ha, rfl⟩ := List.mem_map.mp hx
    exact ⟨a, ha, hequal⟩

/-- Objects that are equal agree in all columns, and hold equal values of each relation. -/
theorem equals_object {t : Table} (hkeys : (t.keys ++ names nodes).Nodup) {a b : Entity}
    (ha : a.Fits S t nodes) (hb : b.Fits S t nodes)
    (h : (a.object t nodes).equals (b.object t nodes) = true) :
    Value.equalsAll a.cells b.cells = true ∧
      ∀ x ∈ relations nodes a.related, ∃ y ∈ relations nodes b.related,
        x.1 = y.1 ∧ x.2.equals y.2 = true := by
  have hlength {e : Entity} (he : e.Fits S t nodes) : e.cells.length = t.keys.length := by
    rw [he.1.1, t.length_keys]
  exact equals_named (by rw [keys_relations hb.2]; exact hkeys)
    (by rw [keys_relations ha.2, keys_relations hb.2]) (hlength ha) (hlength hb) h

/-- Where what two objects hold of relations is equal, so is what they hold of the first relation
and of the others. -/
theorem equals_held_of_equals {n : Node} {rest : List Node} (hnames : (names (n :: rest)).Nodup)
    {es items : List Entity} {others others' : List (List Entity)} (hp : AllFit S rest others)
    (hk : AllFit S rest others')
    (h : ∀ x ∈ relations (n :: rest) (es :: others), ∃ y ∈ relations (n :: rest) (items :: others'),
      x.1 = y.1 ∧ x.2.equals y.2 = true) :
    (n.held es).equals (n.held items) = true ∧
      ∀ x ∈ relations rest others, ∃ y ∈ relations rest others',
        x.1 = y.1 ∧ x.2.equals y.2 = true := by
  obtain ⟨hnot, -⟩ := List.nodup_cons.mp hnames
  have hname {ps : List (List Entity)} (hps : AllFit S rest ps) {x : String × Value}
      (hx : x ∈ relations rest ps) : x.1 ≠ n.level.name := by
    intro hname
    have hmem : x.1 ∈ Keyed.keys (relations rest ps) := List.mem_map.mpr ⟨x, hx, rfl⟩
    rw [keys_relations hps, hname] at hmem
    exact hnot hmem
  constructor
  · obtain ⟨y, hy, hsame, hequal⟩ := h (n.level.name, n.held es) (List.mem_cons_self ..)
    rcases List.mem_cons.mp hy with rfl | hy
    · exact hequal
    · exact absurd hsame.symm (hname hk hy)
  · intro x hx
    obtain ⟨y, hy, hsame, hequal⟩ := h x (List.mem_cons_of_mem _ hx)
    rcases List.mem_cons.mp hy with rfl | hy
    · exact absurd hsame (hname hp hx)
    · exact ⟨y, hy, hsame, hequal⟩

/-- Of two parts of one object that are equal the first holds whatever the second does. -/
theorem allBelow_of_equals (hS : Value.Comparable S) (hregular : Regular nodes)
    (hnames : (names nodes).Nodup) {related ps ks : List (List Entity)}
    (hfit : AllFit S nodes related) (hp : AllPart nodes related ps) (hk : AllPart nodes related ks)
    (h : ∀ x ∈ relations nodes ps, ∃ y ∈ relations nodes ks, x.1 = y.1 ∧ x.2.equals y.2 = true) :
    AllBelow nodes ks ps := by
  induction nodes using forest_induction generalizing related ps ks with
  | nil =>
    cases related <;> cases ps <;> cases ks <;>
      first | exact trivial | exact hfit.elim | exact hp.elim | exact hk.elim
  | cons level children rest ihChildren ihRest =>
    rcases related with _ | ⟨es, others⟩
    · exact hfit.elim
    rcases ps with _ | ⟨ps, othersP⟩
    · exact hp.elim
    rcases ks with _ | ⟨ks, othersK⟩
    · exact hk.elim
    have hfitK := fit_of_part hS hfit hk
    have hfitP := fit_of_part hS hfit hp
    obtain ⟨⟨-, hpair, hes⟩, hfitRest⟩ := hfit
    obtain ⟨⟨hr, hrChildren⟩, hrRest⟩ := hregular
    obtain ⟨hequal, hrest⟩ := equals_held_of_equals hnames hfitP.2 hfitK.2 h
    refine ⟨fun k hmem ↦ ?_, ihRest hrRest (List.nodup_cons.mp hnames).2 hfitRest hp.2 hk.2 hrest⟩
    by_cases hagg : level.aggregated = true
    · have hps : ps = es := by simpa only [Part, if_pos hagg] using hp.1
      have hks : ks = es := by simpa only [Part, if_pos hagg] using hk.1
      rw [hps, ← hks]
      exact ⟨k, hmem, rfl, allBelow_refl (hfitK.1.2.2 k hmem).2.2⟩
    · have hps := hp.1
      have hks := hk.1
      rw [Part, if_neg hagg] at hps hks
      obtain ⟨p, hmemP, hequal⟩ := exists_of_equals_held hfitK.1.1 hequal hmem
      obtain ⟨e, he, hcells, hpart⟩ := hps.2 p hmemP
      obtain ⟨e', he', hcells', hpart'⟩ := hks.2 k hmem
      obtain ⟨hhas, -, hbelow⟩ := hfitP.1.2.2 p hmemP
      obtain ⟨hhas', -, hbelow'⟩ := hfitK.1.2.2 k hmem
      obtain ⟨hequalCells, hequalRest⟩ :=
        equals_object hr.keys ⟨hhas, hbelow⟩ ⟨hhas', hbelow'⟩ hequal
      rw [hcells, hcells'] at hequalCells
      obtain rfl := eq_of_equalsAll hS hpair (fun e he ↦ (hes e he).1) he he' hequalCells
      exact ⟨p, hmemP, hcells'.trans hcells.symm, ihChildren hrChildren
        (List.nodup_append.mp hr.keys).2.1 (hes e he).2.2 hpart hpart' hequalRest⟩

end Node

end Columnar
