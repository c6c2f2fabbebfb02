import Mathlib.Data.List.Induction

/-!
# Collections

A collection takes an item in where it has the same item already, by joining the two, and otherwise
at its end. Whether a collection is cut after each item that is put into it or only in the end makes
no difference to what is kept (`take_putAll`). Where joining changes nothing and the items differ
from each other, those behind as many as are kept make no difference either (`take_putAll_take`).
-/

namespace Columnar.Collection

variable {α β : Type} {same : α → α → Bool} {join : α → α → α}

/-- Puts an item into a collection: it is joined with the first one that is the same, or comes
last. -/
def put (same : α → α → Bool) (join : α → α → α) (item : α) : List α → List α
  | [] => [item]
  | x :: rest => if same x item then join x item :: rest else x :: put same join item rest

/-- Puts items into a collection, one after another. -/
def putAll (same : α → α → Bool) (join : α → α → α) (xs items : List α) : List α :=
  items.foldl (fun xs item ↦ put same join item xs) xs

@[simp] theorem putAll_nil (xs : List α) : putAll same join xs [] = xs := rfl

@[simp] theorem putAll_cons (xs : List α) (item : α) (items : List α) :
    putAll same join xs (item :: items) = putAll same join (put same join item xs) items := rfl

theorem putAll_append (xs items more : List α) :
    putAll same join xs (items ++ more) = putAll same join (putAll same join xs items) more :=
  List.foldl_append

/-! ### What is taken in -/

/-- What is put in is joined with an item that is the same, or is there itself. -/
theorem forall_mem_put {P : α → Prop} {item : α} {xs : List α} (hitem : P item)
    (hxs : ∀ x ∈ xs, P x) (hjoin : ∀ x ∈ xs, P x → P (join x item)) :
    ∀ x ∈ put same join item xs, P x := by
  induction xs with
  | nil => simpa [put] using hitem
  | cons x xs ih =>
    obtain ⟨hx, hxs⟩ := List.forall_mem_cons.mp hxs
    obtain ⟨hjoinX, hjoin⟩ := List.forall_mem_cons.mp hjoin
    rw [put]
    split
    · exact List.forall_mem_cons.mpr ⟨hjoinX hx, hxs⟩
    · exact List.forall_mem_cons.mpr ⟨hx, ih hxs hjoin⟩

theorem forall_mem_putAll {P : α → Prop} {xs items : List α} (hitems : ∀ item ∈ items, P item)
    (hxs : ∀ x ∈ xs, P x) (hjoin : ∀ x item, P x → item ∈ items → P (join x item)) :
    ∀ x ∈ putAll same join xs items, P x := by
  induction items generalizing xs with
  | nil => exact hxs
  | cons item items ih =>
    obtain ⟨hitem, hitems⟩ := List.forall_mem_cons.mp hitems
    refine ih hitems ?_ fun x other hx hmem ↦ hjoin x other hx (List.mem_cons_of_mem _ hmem)
    exact forall_mem_put hitem hxs fun x _ hx ↦ hjoin x item hx List.mem_cons_self

/-- Items that differ from each other still do when one more is put in. -/
theorem pairwise_put {item : α} {xs : List α}
    (hleft : ∀ x y, same (join x item) y = same x y)
    (hright : ∀ x y, same x (join y item) = same x y)
    (hxs : xs.Pairwise fun x y ↦ same x y = false) :
    (put same join item xs).Pairwise fun x y ↦ same x y = false := by
  induction xs with
  | nil => exact List.pairwise_singleton _ _
  | cons x xs ih =>
    obtain ⟨hx, hxs⟩ := List.pairwise_cons.mp hxs
    rw [put]
    split
    · exact List.pairwise_cons.mpr ⟨fun y hy ↦ by rw [hleft, hx y hy], hxs⟩
    · next hnot =>
      refine List.pairwise_cons.mpr ⟨?_, ih hxs⟩
      exact forall_mem_put (Bool.eq_false_iff.mpr hnot) hx fun y _ hy ↦ by rw [hright, hy]

theorem pairwise_putAll {xs items : List α} (hleft : ∀ x y z, same (join x y) z = same x z)
    (hright : ∀ x y z, same x (join y z) = same x y)
    (hxs : xs.Pairwise fun x y ↦ same x y = false) :
    (putAll same join xs items).Pairwise fun x y ↦ same x y = false := by
  induction items generalizing xs with
  | nil => exact hxs
  | cons item items ih =>
    exact ih (pairwise_put (fun x y ↦ hleft x item y) (fun x y ↦ hright x y item) hxs)

/-- Items of another form are taken in alike. -/
theorem map_put {f : α → β} {same' : β → β → Bool} {join' : β → β → β} {item : α} {xs : List α}
    (hsame : ∀ x ∈ xs, same' (f x) (f item) = same x item)
    (hjoin : ∀ x ∈ xs, f (join x item) = join' (f x) (f item)) :
    (put same join item xs).map f = put same' join' (f item) (xs.map f) := by
  induction xs with
  | nil => rfl
  | cons x xs ih =>
    obtain ⟨hsameX, hsame⟩ := List.forall_mem_cons.mp hsame
    obtain ⟨hjoinX, hjoin⟩ := List.forall_mem_cons.mp hjoin
    rw [put, List.map_cons, put, hsameX]
    split
    · rw [List.map_cons, hjoinX]
    · rw [List.map_cons, ih hsame hjoin]

theorem map_putAll {f : α → β} {same' : β → β → Bool} {join' : β → β → β} {xs items : List α}
    (hsame : ∀ x item, same' (f x) (f item) = same x item)
    (hjoin : ∀ x item, f (join x item) = join' (f x) (f item)) :
    (putAll same join xs items).map f = putAll same' join' (xs.map f) (items.map f) := by
  induction items generalizing xs with
  | nil => rfl
  | cons item items ih =>
    rw [putAll_cons, ih, map_put (fun x _ ↦ hsame x item) fun x _ ↦ hjoin x item]
    rfl

/-- Items of two forms, of which the first one that is the same as an item comes to the second form
by being joined with it, and those that differ from it have one form only. -/
theorem put_map {f g : β → α} {same' : β → β → Bool} {b : β} {item : α} {xs : List β}
    (hsame : ∀ x ∈ xs, same (f x) item = same' x b)
    (hjoin : ∀ x ∈ xs, same' x b = true → join (f x) item = g x)
    (hkeep : ∀ x ∈ xs, same' x b = false → f x = g x)
    (hpair : xs.Pairwise fun x y ↦ same' x b = true → same' y b = false)
    (hlast : (∀ x ∈ xs, same' x b = false) → item = g b) :
    put same join item (xs.map f) = (put same' (fun x _ ↦ x) b xs).map g := by
  induction xs with
  | nil => exact congrArg ([·]) (hlast (List.forall_mem_nil _))
  | cons x xs ih =>
    obtain ⟨hsameX, hsame⟩ := List.forall_mem_cons.mp hsame
    obtain ⟨hjoinX, hjoin⟩ := List.forall_mem_cons.mp hjoin
    obtain ⟨hkeepX, hkeep⟩ := List.forall_mem_cons.mp hkeep
    obtain ⟨hx, hpair⟩ := List.pairwise_cons.mp hpair
    rw [List.map_cons, put, put, hsameX]
    cases hxb : same' x b with
    | true =>
      rw [if_pos rfl, if_pos rfl, hjoinX hxb, List.map_cons]
      exact congrArg (g x :: ·) (List.map_congr_left fun y hy ↦ hkeep y hy (hx y hy hxb))
    | false =>
      have hrest := ih hsame hjoin hkeep hpair fun h ↦
        hlast (List.forall_mem_cons.mpr ⟨hxb, h⟩)
      rw [if_neg Bool.false_ne_true, if_neg Bool.false_ne_true, hkeepX hxb, hrest, List.map_cons]

/-- An item changes nothing where whatever is the same stays what it is. -/
theorem put_eq_self {item : α} {xs : List α} (hmem : ∃ x ∈ xs, same x item = true)
    (hjoin : ∀ x ∈ xs, same x item = true → join x item = x) : put same join item xs = xs := by
  induction xs with
  | nil =>
    obtain ⟨x, hx, -⟩ := hmem
    cases hx
  | cons x xs ih =>
    rw [put]
    split
    · next hsame => rw [hjoin x List.mem_cons_self hsame]
    · next hnot =>
      obtain ⟨y, hy, hsame⟩ := hmem
      have hy : y ∈ xs := by
        rcases List.mem_cons.mp hy with rfl | hy
        · exact absurd hsame hnot
        · exact hy
      rw [ih ⟨y, hy, hsame⟩ fun z hz ↦ hjoin z (List.mem_cons_of_mem _ hz)]

theorem putAll_eq_self {xs items : List α} (hmem : ∀ item ∈ items, ∃ x ∈ xs, same x item = true)
    (hjoin : ∀ item ∈ items, ∀ x ∈ xs, same x item = true → join x item = x) :
    putAll same join xs items = xs := by
  induction items with
  | nil => rfl
  | cons item items ih =>
    obtain ⟨hmemItem, hmem⟩ := List.forall_mem_cons.mp hmem
    obtain ⟨hjoinItem, hjoin⟩ := List.forall_mem_cons.mp hjoin
    rw [putAll_cons, put_eq_self hmemItem hjoinItem, ih hmem hjoin]

/-! ### Cutting -/

theorem take_put (n : Nat) (item : α) (xs : List α) :
    (put same join item xs).take n = (put same join item (xs.take n)).take n := by
  induction xs generalizing n with
  | nil => simp
  | cons x xs ih =>
    cases n with
    | zero => rfl
    | succ n =>
      rw [put, List.take_succ_cons, put]
      split
      · rw [List.take_succ_cons, List.take_succ_cons, List.take_take, Nat.min_self]
      · rw [List.take_succ_cons, List.take_succ_cons, ih]

/-- What is kept of a collection with items put in only depends on what was kept before. -/
theorem take_putAll (n : Nat) (xs items : List α) :
    (putAll same join xs items).take n = (putAll same join (xs.take n) items).take n := by
  induction items generalizing xs with
  | nil => rw [putAll_nil, putAll_nil, List.take_take, Nat.min_self]
  | cons item items ih => rw [putAll_cons, ih, take_put, ← ih, ← putAll_cons]

section Keeping

/-! Where joining changes nothing. -/

variable (same) {P : α → Prop} {xs items : List α}

theorem put_cases {item : α} (hkeep : ∀ x ∈ xs, join x item = x) :
    put same join item xs = xs ∧ (∃ x ∈ xs, same x item = true) ∨
      put same join item xs = xs ++ [item] := by
  induction xs with
  | nil => exact .inr rfl
  | cons x xs ih =>
    obtain ⟨hx, hkeep⟩ := List.forall_mem_cons.mp hkeep
    rw [put]
    split
    · next hsame => exact .inl ⟨by rw [hx], x, List.mem_cons_self, hsame⟩
    · rcases ih hkeep with ⟨heq, y, hy, hsame⟩ | heq
      · exact .inl ⟨by rw [heq], y, List.mem_cons_of_mem _ hy, hsame⟩
      · exact .inr (by rw [heq, List.cons_append])

/-- Items only come behind those that are there. -/
theorem prefix_putAll (hkeep : ∀ x item, P x → join x item = x) (hxs : ∀ x ∈ xs, P x)
    (hitems : ∀ item ∈ items, P item) : xs <+: putAll same join xs items := by
  induction items generalizing xs with
  | nil => exact List.prefix_rfl
  | cons item items ih =>
    obtain ⟨hitem, hitems⟩ := List.forall_mem_cons.mp hitems
    rw [putAll_cons]
    rcases put_cases same fun x hx ↦ hkeep x item (hxs x hx) with ⟨heq, -⟩ | heq
    · rw [heq]
      exact ih hxs hitems
    · rw [heq]
      refine (List.prefix_append xs [item]).trans (ih ?_ hitems)
      exact List.forall_mem_append.mpr ⟨hxs, List.forall_mem_singleton.mpr hitem⟩

/-- Every item that was put in has one that is the same. -/
theorem exists_same_of_putAll (hkeep : ∀ x item, P x → join x item = x)
    (hrefl : ∀ a, P a → same a a = true) (hxs : ∀ x ∈ xs, P x) (hitems : ∀ item ∈ items, P item) :
    ∀ item ∈ items, ∃ x ∈ putAll same join xs items, same x item = true := by
  induction items generalizing xs with
  | nil => exact nofun
  | cons item items ih =>
    obtain ⟨hitem, hitems⟩ := List.forall_mem_cons.mp hitems
    have hput : ∀ x ∈ put same join item xs, P x :=
      forall_mem_put hitem hxs fun x _ hx ↦ by rw [hkeep x item hx]; exact hx
    have hsub := (prefix_putAll same hkeep hput hitems).subset
    refine List.forall_mem_cons.mpr ⟨?_, ih hput hitems⟩
    rcases put_cases same fun x hx ↦ hkeep x item (hxs x hx) with
      ⟨heq, x, hx, hsame⟩ | heq
    · exact ⟨x, hsub (by rw [heq]; exact hx), hsame⟩
    · exact ⟨item, hsub (by rw [heq]; simp), hrefl item hitem⟩

end Keeping

/-- Items that differ from each other are at most as many as others among which each of them is
found. -/
theorem length_le_of_pairwise {items others : List α}
    (hitems : items.Pairwise fun a b ↦ same a b = false)
    (hfound : ∀ item ∈ items, ∃ x ∈ others, same x item = true)
    (hmeet : ∀ x ∈ others, ∀ a ∈ items, ∀ b ∈ items, same x a = true → same x b = true →
      same a b = true) : items.length ≤ others.length := by
  induction items generalizing others with
  | nil => exact Nat.zero_le _
  | cons item items ih =>
    obtain ⟨hitem, hitems⟩ := List.pairwise_cons.mp hitems
    obtain ⟨⟨x, hx, hsame⟩, hfound⟩ := List.forall_mem_cons.mp hfound
    obtain ⟨before, after, rfl⟩ := List.append_of_mem hx
    have hrest : items.length ≤ (before ++ after).length := by
      refine ih hitems (fun other hother ↦ ?_) fun y hy a ha b hb ↦ ?_
      · obtain ⟨y, hy, hsame'⟩ := hfound other hother
        refine ⟨y, ?_, hsame'⟩
        rw [List.mem_append, List.mem_cons] at hy
        rcases hy with hy | rfl | hy
        · exact List.mem_append_left _ hy
        · -- one item cannot be the same as two that differ
          have hmet := hmeet y hx item List.mem_cons_self other (List.mem_cons_of_mem _ hother)
            hsame hsame'
          rw [hitem other hother] at hmet
          cases hmet
        · exact List.mem_append_right _ hy
      · have hy : y ∈ before ++ x :: after := by
          rw [List.mem_append] at hy
          rcases hy with hy | hy
          · exact List.mem_append_left _ hy
          · exact List.mem_append_right _ (List.mem_cons_of_mem _ hy)
        exact hmeet y hy a (List.mem_cons_of_mem _ ha) b (List.mem_cons_of_mem _ hb)
    rw [List.length_append, List.length_cons]
    rw [List.length_append] at hrest
    rw [List.length_cons]
    omega

/-- Of items that differ from each other those behind the first `n` make no difference to the first
`n` items of a collection that they are put into, where joining changes nothing. -/
theorem take_putAll_take {P : α → Prop} (hkeep : ∀ x item, P x → join x item = x)
    (hrefl : ∀ a, P a → same a a = true)
    (hmeet : ∀ x a b, P x → P a → P b → same x a = true → same x b = true → same a b = true)
    {xs items : List α} (hxs : ∀ x ∈ xs, P x) (hP : ∀ item ∈ items, P item)
    (hitems : items.Pairwise fun a b ↦ same a b = false) (n : Nat) :
    (putAll same join xs items).take n = (putAll same join xs (items.take n)).take n := by
  rcases Nat.lt_or_ge n items.length with hlt | hge
  · have htaken : ∀ item ∈ items.take n, P item :=
      fun item hmem ↦ hP item (List.mem_of_mem_take hmem)
    have hall : ∀ x ∈ putAll same join xs (items.take n), P x :=
      forall_mem_putAll htaken hxs fun x item hx _ ↦ by rw [hkeep x item hx]; exact hx
    have hlength : n ≤ (putAll same join xs (items.take n)).length := by
      have hle := length_le_of_pairwise (hitems.sublist (List.take_sublist n items))
        (exists_same_of_putAll same hkeep hrefl hxs htaken) fun x hx a ha b hb ↦
          hmeet x a b (hall x hx) (htaken a ha) (htaken b hb)
      rwa [List.length_take, Nat.min_eq_left (Nat.le_of_lt hlt)] at hle
    obtain ⟨more, hmore⟩ := prefix_putAll same hkeep hall
      fun item hmem ↦ hP item (List.mem_of_mem_drop hmem)
    rw [← putAll_append, List.take_append_drop] at hmore
    rw [← hmore, List.take_append_of_le_length hlength]
  · rw [List.take_of_length_le hge]

/-! ### One item more -/

theorem filter_snoc_of_pos {p : α → Bool} {x : α} (h : p x = true) (xs : List α) :
    (xs ++ [x]).filter p = xs.filter p ++ [x] := by
  rw [List.filter_append, List.filter_cons_of_pos h, List.filter_nil]

theorem filter_snoc_of_neg {p : α → Bool} {x : α} (h : ¬ p x = true) (xs : List α) :
    (xs ++ [x]).filter p = xs.filter p := by
  rw [List.filter_append, List.filter_cons_of_neg h, List.filter_nil, List.append_nil]

/-! ### First items -/

/-- Of items that are the same the first one, in the order in which they appear. -/
def firsts (same : α → α → Bool) (items : List α) : List α := putAll same (fun x _ ↦ x) [] items

theorem firsts_append (items more : List α) : firsts same (items ++ more) =
    putAll same (fun x _ ↦ x) (firsts same items) more :=
  putAll_append [] items more

theorem mem_of_mem_firsts {items : List α} {x : α} (h : x ∈ firsts same items) : x ∈ items :=
  forall_mem_putAll (fun _ hitem ↦ hitem) (List.forall_mem_nil _) (fun _ _ hx _ ↦ hx) x h

theorem pairwise_firsts (items : List α) :
    (firsts same items).Pairwise fun x y ↦ same x y = false :=
  pairwise_putAll (fun _ _ _ ↦ rfl) (fun _ _ _ ↦ rfl) .nil

/-- An item comes last unless one that is the same is there. -/
theorem put_first (item : α) (xs : List α) : put same (fun x _ ↦ x) item xs =
    if xs.any (same · item) then xs else xs ++ [item] := by
  induction xs with
  | nil => rfl
  | cons x xs ih =>
    rw [put, ih, List.any_cons]
    cases same x item with
    | true => rfl
    | false =>
      rw [if_neg Bool.false_ne_true, Bool.false_or]
      split <;> rfl

/-- Every item has a first one that is the same. -/
theorem exists_same_of_firsts {P : α → Prop} {items : List α} (hrefl : ∀ a, P a → same a a = true)
    (hitems : ∀ item ∈ items, P item) :
    ∀ item ∈ items, ∃ x ∈ firsts same items, same x item = true :=
  exists_same_of_putAll same (fun _ _ _ ↦ rfl) hrefl (List.forall_mem_nil _) hitems

theorem mem_firsts [BEq α] [LawfulBEq α] {items : List α} {x : α} :
    x ∈ firsts (· == ·) items ↔ x ∈ items := by
  refine ⟨mem_of_mem_firsts, fun h ↦ ?_⟩
  obtain ⟨y, hy, hsame⟩ := exists_same_of_firsts (P := fun _ ↦ True)
    (fun a _ ↦ beq_self_eq_true a) (fun _ _ ↦ trivial) x h
  exact eq_of_beq hsame ▸ hy

/-- Items that differ from each other are all first ones. -/
theorem putAll_of_pairwise {xs items : List α}
    (h : (xs ++ items).Pairwise fun x y ↦ same x y = false) :
    putAll same (fun x _ ↦ x) xs items = xs ++ items := by
  induction items generalizing xs with
  | nil => rw [putAll_nil, List.append_nil]
  | cons item items ih =>
    have hnew : ¬ xs.any (same · item) = true := by
      rw [List.any_eq_true]
      rintro ⟨x, hx, hsame⟩
      have hdiffer := (List.pairwise_append.mp h).2.2 x hx item List.mem_cons_self
      rw [hsame] at hdiffer
      cases hdiffer
    rw [List.append_cons] at h
    rw [putAll_cons, put_first, if_neg hnew, ih h, List.append_assoc, List.singleton_append]

theorem firsts_of_pairwise {items : List α} (h : items.Pairwise fun x y ↦ same x y = false) :
    firsts same items = items :=
  putAll_of_pairwise h

/-- Lists with the same first items have them together. -/
theorem firsts_flatMap_eq {f : β → List α} {b : β} {bs : List β} {items : List α}
    (hrefl : ∀ a ∈ items, same a a = true) (hapart : items.Pairwise fun x y ↦ same x y = false)
    (h : ∀ b' ∈ b :: bs, f b' = items) : firsts same ((b :: bs).flatMap f) = items := by
  have hrest : ∀ a ∈ bs.flatMap f, a ∈ items := by
    intro a ha
    obtain ⟨b', hb', ha⟩ := List.mem_flatMap.mp ha
    rwa [h b' (List.mem_cons_of_mem _ hb')] at ha
  rw [List.flatMap_cons, firsts_append, h b List.mem_cons_self, firsts_of_pairwise hapart]
  exact putAll_eq_self (fun a ha ↦ ⟨a, hrest a ha, hrefl a (hrest a ha)⟩)
    fun _ _ _ _ _ ↦ rfl

section Equivalence

/-! Where each item is the same as itself, and items that are the same as one are the same. -/

variable {P : α → Prop} {xs items : List α} (hrefl : ∀ a, P a → same a a = true)
  (hmeet : ∀ x a b, P x → P a → P b → same x a = true → same x b = true → same a b = true)

include hrefl hmeet

/-- Only the first ones of items make a difference to a collection that they are put into. -/
theorem putAll_firsts (hxs : ∀ x ∈ xs, P x) (hitems : ∀ item ∈ items, P item) :
    putAll same (fun x _ ↦ x) xs (firsts same items) = putAll same (fun x _ ↦ x) xs items := by
  induction items using List.reverseRecOn with
  | nil => rfl
  | append_singleton items item ih =>
    obtain ⟨hitems, hlast⟩ := List.forall_mem_append.mp hitems
    have hitem := hlast item List.mem_cons_self
    have hfirsts : ∀ x ∈ firsts same items, P x := fun x hx ↦ hitems x (mem_of_mem_firsts hx)
    have hall : ∀ x ∈ putAll same (fun x _ ↦ x) xs (firsts same items), P x :=
      forall_mem_putAll hfirsts hxs fun _ _ hx _ ↦ hx
    have hfound : ∀ item ∈ firsts same items,
        ∃ x ∈ putAll same (fun x _ ↦ x) xs (firsts same items), same x item = true :=
      exists_same_of_putAll same (fun _ _ _ ↦ rfl) hrefl hxs hfirsts
    have hcases : put same (fun x _ ↦ x) item (firsts same items) = firsts same items ∧
          (∃ x ∈ firsts same items, same x item = true) ∨
        put same (fun x _ ↦ x) item (firsts same items) = firsts same items ++ [item] :=
      put_cases same fun _ _ ↦ rfl
    rw [firsts_append, putAll_append, ← ih hitems]
    rcases hcases with ⟨heq, x, hx, hsame⟩ | heq
    · -- the item is the same as one of the first ones, and that one is in the collection
      obtain ⟨y, hy, hsame'⟩ := hfound x hx
      have hyx := hmeet y x y (hall y hy) (hfirsts x hx) (hall y hy) hsame' (hrefl y (hall y hy))
      have hyitem := hmeet x y item (hfirsts x hx) (hall y hy) hitem hyx hsame
      have hkept : put same (fun x _ ↦ x) item (putAll same (fun x _ ↦ x) xs (firsts same items)) =
          putAll same (fun x _ ↦ x) xs (firsts same items) :=
        put_eq_self ⟨y, hy, hyitem⟩ fun _ _ _ ↦ rfl
      rw [putAll_cons, putAll_nil, heq, putAll_cons, putAll_nil, hkept]
    · rw [putAll_cons, putAll_nil, heq, putAll_append]

/-- Of the first items of lists the first ones are those of the lists. -/
theorem firsts_flatMap_firsts {f : β → List α} {bs : List β}
    (h : ∀ b ∈ bs, ∀ a ∈ f b, P a) :
    firsts same (bs.flatMap fun b ↦ firsts same (f b)) = firsts same (bs.flatMap f) := by
  induction bs using List.reverseRecOn with
  | nil => rfl
  | append_singleton bs b ih =>
    obtain ⟨hbs, hlast⟩ := List.forall_mem_append.mp h
    rw [List.flatMap_append, List.flatMap_append, firsts_append, firsts_append, ih hbs]
    simp only [List.flatMap_cons, List.flatMap_nil, List.append_nil]
    refine putAll_firsts hrefl hmeet (fun x hx ↦ ?_) (hlast b List.mem_cons_self)
    obtain ⟨b', hb', hx⟩ := List.mem_flatMap.mp (mem_of_mem_firsts hx)
    exact hbs b' hb' x hx

end Equivalence

/-! ### Single items -/

/-- Of collections of at most one item each, the item of both joined, or that of either one. -/
def joinHeads (join : α → α → α) : List α → List α → List α
  | x :: _, item :: _ => [join x item]
  | [], items => items
  | xs, [] => xs

theorem length_joinHeads (join : α → α → α) {xs items : List α} (hxs : xs.length ≤ 1)
    (hitems : items.length ≤ 1) :
    (joinHeads join xs items).length ≤ 1 := by
  cases xs with
  | nil => exact hitems
  | cons x xs =>
    cases items with
    | nil => exact hxs
    | cons item items => exact Nat.le_refl 1

theorem forall_mem_joinHeads {P : α → Prop} {xs items : List α} (hxs : ∀ x ∈ xs, P x)
    (hitems : ∀ item ∈ items, P item)
    (hjoin : ∀ x item, P x → item ∈ items → P (join x item)) :
    ∀ x ∈ joinHeads join xs items, P x := by
  cases xs with
  | nil => exact hitems
  | cons x xs =>
    cases items with
    | nil => exact hxs
    | cons item items =>
      exact List.forall_mem_singleton.mpr (hjoin x item (hxs x (by simp)) (by simp))

theorem pairwise_joinHeads {R : α → α → Prop} {xs items : List α} (hxs : xs.Pairwise R)
    (hitems : items.Pairwise R) : (joinHeads join xs items).Pairwise R := by
  cases xs with
  | nil => exact hitems
  | cons x xs =>
    cases items with
    | nil => exact hxs
    | cons item items => exact List.pairwise_singleton _ _

theorem map_joinHeads {f : α → β} {join' : β → β → β} {xs items : List α}
    (hjoin : ∀ x ∈ xs, ∀ item ∈ items, f (join x item) = join' (f x) (f item)) :
    (joinHeads join xs items).map f = joinHeads join' (xs.map f) (items.map f) := by
  cases xs with
  | nil => rfl
  | cons x xs =>
    cases items with
    | nil => rfl
    | cons item items => exact congrArg ([·]) (hjoin x (by simp) item (by simp))

end Columnar.Collection
