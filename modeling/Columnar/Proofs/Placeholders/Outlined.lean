import Columnar.Proofs.Placeholders.Expressions
import Columnar.Proofs.Placeholders.InPlace

/-!
# Clauses by their outlines

What a clause writes is an outline of its texts and literals, written from the bindings at which it
starts. `Writing.Outlined x y` says so of two writings: whatever `x` writes `y` writes too, and from
whatever bindings `y` starts it writes the same outline. There is one lemma for each way to compose
writings, and from them one for each clause.
-/

namespace Columnar

open Outline (AllWritten)

namespace Writing

variable {α β ι : Type} {x y : Writing α} {text : α → String} {ls : List (Value × String)}

/-- The second writing answers as the first one does, and from any bindings it writes the outline
that the first one writes, which has the given literals and no braces of its own. `text` is the SQL
in an answer. -/
def Outlined (x y : Writing α) (text : α → String) (literals : List (Value × String)) : Prop :=
  ∀ ⦃b b' : Bindings⦄ ⦃a : α⦄, x.Done b a b' → y.Done b a b' ∧
    ∃ o : Outline, o.Unbraced ∧ o.literals = literals ∧ o.Written b (text a) b' ∧
      ∀ c, ∃ r c', y.Done c r c' ∧ o.Written c (text r) c'

/-- The second writing answers as the first one does, with one outline for each item. -/
def AllOutlined (x y : Writing (List α)) (text : α → String)
    (literals : List (Value × String)) : Prop :=
  ∀ ⦃b b' : Bindings⦄ ⦃as : List α⦄, x.Done b as b' → y.Done b as b' ∧
    ∃ os : List Outline, (∀ o ∈ os, o.Unbraced) ∧ os.flatMap Outline.literals = literals ∧
      AllWritten os b (as.map text) b' ∧
      ∀ c, ∃ rs c', y.Done c rs c' ∧ AllWritten os c (rs.map text) c'

/-- Text without literals. -/
theorem outlined_pure {a : α} (h : Text.Unbraced (text a)) :
    Outlined (pure a) (pure a) text [] := by
  intro b b' r hx
  obtain ⟨rfl, rfl⟩ := done_pure.mp hx
  exact ⟨hx, [.text (text r)], by simpa using h, rfl,
    Outline.written_text _ _, fun c ↦ ⟨r, c, done_pure.mpr ⟨rfl, rfl⟩, Outline.written_text _ _⟩⟩

/-- A look-up in front writes nothing. -/
theorem Outlined.look {σ : Type} {e : Traced σ} {f g : σ → Writing α}
    (h : ∀ s, e.result = .ok s → Outlined (f s) (g s) text ls) :
    Outlined (liftM e >>= f) (liftM e >>= g) text ls := by
  intro b b' a hx
  obtain ⟨s, hs, hf⟩ := done_traced_bind.mp hx
  obtain ⟨hg, o, ho, hls, hw, hany⟩ := h s hs hf
  refine ⟨done_traced_bind.mpr ⟨s, hs, hg⟩, o, ho, hls, hw, fun c ↦ ?_⟩
  obtain ⟨r, c', hr, hwr⟩ := hany c
  exact ⟨r, c', done_traced_bind.mpr ⟨s, hs, hr⟩, hwr⟩

/-- A check in front writes nothing. -/
theorem Outlined.check {σ : Type} {e : Except Failure σ} {f g : σ → Writing α}
    (h : ∀ s, e = .ok s → Outlined (f s) (g s) text ls) :
    Outlined (liftM e >>= f) (liftM e >>= g) text ls :=
  Outlined.look (e := Traced.ofExcept e) h

/-- What is made of an answer is outlined when its text is an outline made of the answer's. -/
theorem Outlined.map {f : α → β} {text' : β → String} (h : Outlined x y text ls)
    (hf : ∀ o : Outline, o.Unbraced → ∃ o' : Outline, o'.Unbraced ∧ o'.literals = o.literals ∧
      ∀ b a b', o.Written b (text a) b' → o'.Written b (text' (f a)) b') :
    Outlined (do return f (← x)) (do return f (← y)) text' ls := by
  intro b b' r hx
  obtain ⟨a, b₁, hd, hp⟩ := done_bind.mp hx
  obtain ⟨rfl, rfl⟩ := done_pure.mp hp
  obtain ⟨hy, o, ho, rfl, hw, hany⟩ := h hd
  obtain ⟨o', ho', hls, hwritten⟩ := hf o ho
  refine ⟨done_bind.mpr ⟨a, b', hy, hp⟩, o', ho', hls, hwritten _ _ _ hw, fun c ↦ ?_⟩
  obtain ⟨r, c', hr, hwr⟩ := hany c
  exact ⟨f r, c', done_bind.mpr ⟨r, c', hr, done_pure.mpr ⟨rfl, rfl⟩⟩, hwritten _ _ _ hwr⟩

/-- Text without braces around what is written. -/
theorem Outlined.around {f : α → β} {text' : β → String} (h : Outlined x y text ls)
    (head tail : String) (hf : ∀ a, text' (f a) = head ++ text a ++ tail)
    (hhead : Text.Unbraced head) (htail : Text.Unbraced tail) :
    Outlined (do return f (← x)) (do return f (← y)) text' ls := by
  refine h.map fun o ho ↦ ⟨.text head :: o ++ [.text tail], ?_, by simp [Outline.literals], ?_⟩
  · simpa using ⟨hhead, ho, htail⟩
  · intro b a b' hw
    rw [hf]
    exact (hw.cons head).snoc tail

/-- Items that are outlined one by one are outlined in a row. -/
theorem outlined_mapM {f g : ι → Writing α} {items : List ι} {literals : ι → List (Value × String)}
    (h : ∀ i ∈ items, Outlined (f i) (g i) text (literals i)) :
    AllOutlined (items.mapM f) (items.mapM g) text (items.flatMap literals) := by
  intro b b' as hx
  induction items generalizing b as with
  | nil =>
    obtain ⟨rfl, rfl⟩ := done_pure.mp hx
    exact ⟨hx, [], by simp, rfl, .nil, fun c ↦ ⟨[], c, done_pure.mpr ⟨rfl, rfl⟩, .nil⟩⟩
  | cons i items ih =>
    rw [List.mapM_cons] at hx ⊢
    obtain ⟨a, b₁, hi, hx⟩ := done_bind.mp hx
    obtain ⟨rest, b₂, his, hx⟩ := done_bind.mp hx
    obtain ⟨rfl, rfl⟩ := done_pure.mp hx
    obtain ⟨hy, o, ho, hl, hw, hany⟩ := h i (by simp) hi
    obtain ⟨hys, os, hos, hls, hws, hanys⟩ := ih (fun j hj ↦ h j (by simp [hj])) his
    refine ⟨done_bind.mpr ⟨a, b₁, hy, done_bind.mpr ⟨rest, b', hys, hx⟩⟩, o :: os,
      by simpa using ⟨ho, hos⟩, by simp [hl, hls], .cons hw hws, fun c ↦ ?_⟩
    obtain ⟨r, c₁, hr, hwr⟩ := hany c
    obtain ⟨rs, c₂, hrs, hwrs⟩ := hanys c₁
    exact ⟨r :: rs, c₂, done_bind.mpr ⟨r, c₁, hr, done_bind.mpr ⟨rs, c₂, hrs,
      done_pure.mpr ⟨rfl, rfl⟩⟩⟩, .cons hwr hwrs⟩

/-- A check in front writes nothing. -/
theorem AllOutlined.check {σ : Type} {e : Except Failure σ} {f g : σ → Writing (List α)}
    (h : ∀ s, e = .ok s → AllOutlined (f s) (g s) text ls) :
    AllOutlined (liftM e >>= f) (liftM e >>= g) text ls := by
  intro b b' as hx
  obtain ⟨s, hs, hf⟩ := done_check_bind.mp hx
  obtain ⟨hg, os, hos, hls, hw, hany⟩ := h s hs hf
  refine ⟨done_check_bind.mpr ⟨s, hs, hg⟩, os, hos, hls, hw, fun c ↦ ?_⟩
  obtain ⟨rs, c', hr, hwr⟩ := hany c
  exact ⟨rs, c', done_check_bind.mpr ⟨s, hs, hr⟩, hwr⟩

/-- A row is outlined when its text is an outline made of those of its items. -/
theorem AllOutlined.outlined {x y : Writing (List α)} {text' : List α → String}
    (h : AllOutlined x y text ls)
    (hf : ∀ os : List Outline, (∀ o ∈ os, o.Unbraced) → ∃ o' : Outline, o'.Unbraced ∧
      o'.literals = os.flatMap Outline.literals ∧
      ∀ b as b', AllWritten os b (as.map text) b' → o'.Written b (text' as) b') :
    Outlined x y text' ls := by
  intro b b' as hx
  obtain ⟨hy, os, hos, rfl, hw, hany⟩ := h hx
  obtain ⟨o', ho', hls, hwritten⟩ := hf os hos
  refine ⟨hy, o', ho', hls, hwritten _ _ _ hw, fun c ↦ ?_⟩
  obtain ⟨rs, c', hr, hwr⟩ := hany c
  exact ⟨rs, c', hr, hwritten _ _ _ hwr⟩

/-- Items with a text between each two of them. -/
theorem AllOutlined.spaced {x y : Writing (List α)} (h : AllOutlined x y text ls)
    (separator : String) (hs : Text.Unbraced separator) :
    Outlined x y (fun as ↦ separator.intercalate (as.map text)) ls :=
  h.outlined fun os hos ↦ ⟨Outline.spaced separator os, Outline.unbraced_spaced hs hos,
    Outline.literals_spaced _ _, fun _ _ _ hw ↦ hw.spaced separator⟩

/-- Items with a text between each two of them and one in front, or another text instead of none. -/
theorem AllOutlined.listed {x y : Writing (List α)} (h : AllOutlined x y text ls)
    (instead head separator : String) (hi : Text.Unbraced instead) (hh : Text.Unbraced head)
    (hs : Text.Unbraced separator) :
    Outlined x y (fun as ↦ if as.isEmpty then instead
      else head ++ separator.intercalate (as.map text)) ls := by
  refine h.outlined fun os hos ↦ ?_
  by_cases he : os = []
  · subst he
    refine ⟨[.text instead], by simpa using hi, rfl, fun b as b' hw ↦ ?_⟩
    have hempty : as = [] := by simpa using hw.isEmpty
    subst hempty
    cases hw
    exact Outline.written_text _ _
  · refine ⟨.text head :: Outline.spaced separator os,
      by simpa using ⟨hh, Outline.unbraced_spaced hs hos⟩,
      Outline.literals_spaced _ _, fun b as b' hw ↦ ?_⟩
    have hne : ¬ as.isEmpty = true := by
      intro hempty
      have hiff := hw.isEmpty
      rw [List.isEmpty_map, hempty, List.isEmpty_iff] at hiff
      exact he hiff
    rw [if_neg hne]
    exact (hw.spaced separator).cons head

/-- What is written one after the other. -/
theorem Outlined.append {x y x' y' : Writing String} {ls ls' : List (Value × String)}
    (h : Outlined x y (fun s ↦ s) ls) (h' : Outlined x' y' (fun s ↦ s) ls') :
    Outlined (do return (← x) ++ (← x')) (do return (← y) ++ (← y')) (fun s ↦ s) (ls ++ ls') := by
  intro b b' sql hx
  obtain ⟨s, b₁, hd, hx⟩ := done_bind.mp hx
  obtain ⟨s', b₂, hd', hp⟩ := done_bind.mp hx
  obtain ⟨rfl, rfl⟩ := done_pure.mp hp
  obtain ⟨hy, o, ho, rfl, hw, hany⟩ := h hd
  obtain ⟨hy', o', ho', rfl, hw', hany'⟩ := h' hd'
  refine ⟨done_bind.mpr ⟨s, b₁, hy, done_bind.mpr ⟨s', b', hy', hp⟩⟩, o ++ o',
    by simpa using ⟨ho, ho'⟩, by simp, hw.append hw', fun c ↦ ?_⟩
  obtain ⟨r, c₁, hr, hwr⟩ := hany c
  obtain ⟨r', c₂, hr', hwr'⟩ := hany' c₁
  exact ⟨r ++ r', c₂, done_bind.mpr ⟨r, c₁, hr, done_bind.mpr ⟨r', c₂, hr',
    done_pure.mpr ⟨rfl, rfl⟩⟩⟩, hwr.append hwr'⟩

end Writing

namespace Clauses

open Writing (Outlined AllOutlined outlined_pure outlined_mapM)

private theorem outlined_expr (scope : Scope) {e : Expr}
    (h : ∀ s ∈ e.body.texts, Text.Unbraced s) :
    Outlined (Writing.rendering (e.render scope)) (Writing.rendering (e.render scope)) (fun s ↦ s)
      e.literals := by
  intro b b' sql hx
  have hrender := Writing.done_rendering.mp hx
  have hunbraced : (e.outline scope.column).Unbraced :=
    Body.unbraced_outline (fun _ hc ↦ Column.unbraced_column hc scope) (by simp) h
  refine ⟨hx, _, hunbraced, Body.literals_outline _ _ _, Expr.written_outline hrender, fun c ↦ ?_⟩
  obtain ⟨r, c', hd, hw⟩ := Expr.rendered_outline hrender c
  exact ⟨r, c', Writing.done_rendering.mpr hd, hw⟩

private theorem outlined_item (scope : Scope) {o : Operand} (h : ∀ s ∈ o.texts, Text.Unbraced s) :
    Outlined (Writing.rendering (o.render scope)) (Writing.rendering (o.render scope)) (fun s ↦ s)
      o.literals := by
  cases o with
  | column c => exact outlined_pure (c.unbraced_column h scope)
  | expression e => exact outlined_expr scope fun s hs ↦ h s (List.mem_append_right _ hs)
  | _ =>
    intro b b' sql hx
    exact absurd (Writing.done_rendering.mp hx) Render.not_done_throw

/-! ### The selection -/

/-- A column found for a name is one of the table's. -/
private theorem mem_of_resolve? {t : Table} {aliasName : String} {s : AliasStrategy} {c : Column}
    (h : t.resolve? aliasName = some (s, c)) : ∃ e ∈ t.columns, e.2 = c := by
  have hcolumn {key : String} (h : t.column? key = some c) : ∃ e ∈ t.columns, e.2 = c := by
    rcases Option.or_eq_some_iff.mp h with h | ⟨-, h⟩ <;>
      obtain ⟨e, he, rfl⟩ := Option.map_eq_some_iff.mp h <;>
      exact ⟨e, List.mem_of_find?_eq_some he, rfl⟩
  have hconverted {requested name : String}
      (h : AliasStrategy.converted t requested name = some c) : ∃ e ∈ t.columns, e.2 = c := by
    unfold AliasStrategy.converted at h
    split at h
    · cases h
    · exact hcolumn h
  obtain ⟨s', -, hs⟩ := List.exists_of_findSome?_eq_some h
  obtain ⟨c', hfind, heq⟩ := Option.map_eq_some_iff.mp hs
  cases heq
  cases s with
  | direct => exact hcolumn hfind
  | camelCase => exact hconverted hfind
  | snakeCase => exact hconverted hfind
  | caseInsensitive =>
    obtain ⟨e, he, rfl⟩ := Option.map_eq_some_iff.mp hfind
    exact ⟨e, List.mem_of_find?_eq_some he, rfl⟩

/-- What is selected brings no texts but its own or those of a column of the table, and the literals
of the item that was given. -/
private theorem contents_of_resolve {c : Clauses} {t : Table} {aliasName : String}
    {item r : Operand} (hm : c.misfits.table = none) (ht : ∀ s ∈ t.texts, Text.Unbraced s)
    (hi : ∀ s ∈ item.texts, Text.Unbraced s) (h : (c.resolve t aliasName item).result = .ok r) :
    (∀ s ∈ r.texts, Text.Unbraced s) ∧ r.literals = item.literals := by
  unfold resolve Table.resolveSelected at h
  rw [hm] at h
  cases item with
  | column column =>
    cases h
    exact ⟨hi, rfl⟩
  | expression e =>
    cases h
    exact ⟨hi, rfl⟩
  | _ =>
    obtain ⟨found, hfound, h⟩ := Traced.result_bind_eq_ok.mp h
    unfold Table.resolveAlias at hfound
    split at hfound
    · next hresolve =>
      obtain ⟨_, -, hfound⟩ := Traced.result_bind_eq_ok.mp hfound
      cases hfound
      cases h
      obtain ⟨e, he, rfl⟩ := mem_of_resolve? hresolve
      refine ⟨fun s hs ↦ ht s ?_, rfl⟩
      exact List.mem_cons_of_mem _ (List.mem_flatMap.mpr ⟨e, he, List.mem_cons_of_mem _ hs⟩)
    · cases hfound
      cases h

/-- The name an item gets in the answer is its own or the one given for it. -/
private theorem unbraced_outputName {aliasName : String} {item : Operand}
    (ha : Text.Unbraced aliasName) (hi : ∀ s ∈ item.texts, Text.Unbraced s) :
    Text.Unbraced (outputName aliasName item) := by
  have hown {own : Option String} (ho : ∀ s ∈ own, Text.Unbraced s) :
      Text.Unbraced ((own.filter (· ≠ "")).getD aliasName) := by
    rcases hf : own.filter (· ≠ "") with _ | name
    · exact ha
    · exact ho name (Option.filter_eq_some_iff.mp hf).1
  cases item with
  | column c => exact hown fun s hs ↦ hi s (by simp_all [Operand.texts, Column.texts])
  | expression e => exact hown fun s hs ↦ hi s (by simp_all [Operand.texts, Label.texts])
  | _ => exact hown (by simp)

private theorem outlined_selected {c : Clauses} {t : Table} (scope : Scope) {aliasName : String}
    {item : Operand} (hm : c.misfits.table = none) (ht : ∀ s ∈ t.texts, Text.Unbraced s)
    (ha : Text.Unbraced aliasName) (hi : ∀ s ∈ item.texts, Text.Unbraced s) :
    Outlined (c.writeSelected t scope aliasName item) (c.writeSelected t scope aliasName item)
      Prod.fst item.literals := by
  refine Outlined.look fun r hr ↦ ?_
  obtain ⟨htexts, hliterals⟩ := contents_of_resolve hm ht hi hr
  rw [← hliterals]
  refine (outlined_item scope htexts).around "" (" AS `" ++ outputName aliasName r ++ "`")
    (fun sql ↦ ?_) (by decide) ?_
  · simp only [String.empty_append, String.append_assoc]
  · simp only [Text.unbraced_append]
    exact ⟨⟨by decide, unbraced_outputName ha htexts⟩, by decide⟩

private theorem outlined_selectedValue {c : Clauses} {t : Table} (scope : Scope)
    {e : Value × Value} (hm : c.misfits.table = none) (ht : ∀ s ∈ t.texts, Text.Unbraced s)
    (ha : ∀ s, e.1 = .text s → Text.Unbraced s) :
    Outlined (c.writeSelectedValue t scope e) (c.writeSelectedValue t scope e) Prod.fst [] := by
  unfold writeSelectedValue
  split
  · next _ aliasName hkey =>
    exact outlined_selected scope hm ht (ha aliasName hkey) fun s hs ↦ nomatch hs
  all_goals exact fun b b' a hx ↦ absurd hx Writing.not_done_throw

private theorem outlined_items {c : Clauses} {t : Table} (scope : Scope)
    (hm : c.misfits.table = none) (ht : ∀ s ∈ t.texts, Text.Unbraced s)
    (hc : ∀ s ∈ c.selectedTexts, Text.Unbraced s) :
    AllOutlined (c.writeItems t scope) (c.writeItems t scope) Prod.fst c.selectedLiterals := by
  unfold selectedTexts at hc
  unfold writeItems selectedLiterals
  rcases hs : c.misfits.selection with _ | v <;> rw [hs] at hc
  · refine outlined_mapM fun e he ↦ outlined_selected scope hm ht ?_ ?_
    · exact hc _ (List.mem_flatMap.mpr ⟨e, he, List.mem_cons_self⟩)
    · exact fun s hs ↦ hc s (List.mem_flatMap.mpr ⟨e, he, List.mem_cons_of_mem _ hs⟩)
  · refine AllOutlined.check fun entries hentries ↦ ?_
    have hnames : ∀ e ∈ entries, ∀ s, e.1 = .text s → Text.Unbraced s := by
      rintro ⟨_, held⟩ he s rfl
      cases v <;> cases hentries
      exact hc s (List.mem_filterMap.mpr ⟨_, he, rfl⟩)
    have h := outlined_mapM fun e he ↦ outlined_selectedValue scope hm ht (hnames e he)
    rwa [List.flatMap_eq_nil_iff.mpr fun _ _ ↦ rfl] at h

/-- The selection is an outline of its items. -/
theorem outlined_selection {c : Clauses} {t : Table} (scope : Scope)
    (hm : c.misfits.table = none) (ht : ∀ s ∈ t.texts, Text.Unbraced s)
    (hc : ∀ s ∈ c.selectedTexts, Text.Unbraced s) :
    Outlined (c.writeSelection t scope) (c.writeSelection t scope) Prod.fst c.selectedLiterals := by
  by_cases hp : (c.pending.isSome || c.misfits.pending.isSome) = true
  · exact fun b b' a hx ↦ absurd hp (not_pending_of_writeSelection hx)
  · rw [writeSelection_eq hp hm]
    refine Outlined.map (f := selected t) ((outlined_items scope hm ht hc).listed "*" "" ", "
      (by decide) (by decide) (by decide)) fun o ho ↦ ⟨o, ho, rfl, fun b items b' hw ↦ ?_⟩
    cases items with
    | nil => exact hw
    | cons item items => simpa [selected] using hw

/-! ### The other clauses -/

private theorem outlined_join (scope : Scope) {j : Join} (h : ∀ s ∈ j.texts, Text.Unbraced s) :
    Outlined (writeJoin scope j) (writeJoin scope j) (fun s ↦ s) j.literals := by
  simp only [Join.texts, List.forall_mem_cons] at h
  obtain ⟨hkeyword, htable, hon⟩ := h
  have hhead : Text.Unbraced (" " ++ j.keyword ++ " JOIN `" ++ j.table ++ "`") := by
    simp only [Text.unbraced_append]
    exact ⟨⟨⟨⟨by decide, hkeyword⟩, by decide⟩, htable⟩, by decide⟩
  unfold writeJoin Join.literals
  rcases hj : j.on with _ | e
  · simp only [Option.toList_none, List.flatMap_nil, ite_self]
    refine outlined_pure ?_
    exact hhead
  · by_cases hcross : j.keyword = "CROSS"
    · simp only [if_pos hcross]
      refine outlined_pure ?_
      exact hhead
    · simp only [if_neg hcross, Option.toList_some, List.flatMap_singleton]
      refine (outlined_expr scope fun s hs ↦ hon s ?_).around
        (" " ++ j.keyword ++ " JOIN `" ++ j.table ++ "`" ++ " ON ") ""
        (fun sql ↦ ?_) ((Text.unbraced_append _ _).mpr ⟨hhead, by decide⟩) (by decide)
      · simp [hj, Operand.texts, hs]
      · rw [String.append_empty]

/-- Joins are outlines of their conditions. -/
theorem outlined_joins (scope : Scope) {c : Clauses}
    (h : ∀ s ∈ c.joins.flatMap Join.texts, Text.Unbraced s) :
    Outlined (c.writeJoins scope) (c.writeJoins scope) (fun s ↦ s)
      (c.joins.flatMap Join.literals) := by
  refine Outlined.check fun _ _ ↦ ?_
  have hjoins := outlined_mapM fun j hj ↦ outlined_join scope (j := j) fun s hs ↦
    h s (List.mem_flatMap.mpr ⟨j, hj, hs⟩)
  have hjoined : Outlined (c.joins.mapM (writeJoin scope)) (c.joins.mapM (writeJoin scope))
      String.join (c.joins.flatMap Join.literals) := by
    refine hjoins.outlined fun os hos ↦ ⟨os.flatten, ?_, Outline.literals_flatten os, ?_⟩
    · exact fun t ht ↦ (List.mem_flatten.mp ht).elim fun o ho ↦ hos o ho.1 t ho.2
    · intro b as b' hw
      simpa using hw.flatten
  exact hjoined.map fun o ho ↦ ⟨o, ho, rfl, fun _ _ _ hw ↦ hw⟩

private theorem outlined_arrayJoin (scope : Scope) {a : ArrayJoin}
    (h : ∀ s ∈ a.texts, Text.Unbraced s) :
    Outlined (writeArrayJoin scope a) (writeArrayJoin scope a) (fun s ↦ s) a.item.literals := by
  simp only [ArrayJoin.texts, List.forall_mem_append] at h
  have hitem := outlined_item scope h.1
  unfold writeArrayJoin
  rcases hf : a.aliasName.filter (· ≠ "") with _ | name
  · exact hitem.map fun o ho ↦ ⟨o, ho, rfl, fun _ _ _ hw ↦ hw⟩
  · have hname := h.2 name (by simp [(Option.filter_eq_some_iff.mp hf).1])
    refine hitem.around "" (" AS `" ++ name ++ "`") (fun sql ↦ ?_) (by decide) ?_
    · simp only [String.empty_append, String.append_assoc]
    · simp only [Text.unbraced_append]
      exact ⟨⟨by decide, hname⟩, by decide⟩

/-- Expanded arrays are outlines of their items. -/
theorem outlined_arrayJoins (scope : Scope) {c : Clauses}
    (h : ∀ s ∈ c.arrayJoins.flatMap ArrayJoin.texts, Text.Unbraced s) :
    Outlined (c.writeArrayJoins scope) (c.writeArrayJoins scope) (fun s ↦ s)
      (c.arrayJoins.flatMap (·.item.literals)) := by
  refine Outlined.check fun _ _ ↦ ?_
  have harrays := outlined_mapM fun a ha ↦ outlined_arrayJoin scope (a := a) fun s hs ↦
    h s (List.mem_flatMap.mpr ⟨a, ha, hs⟩)
  refine Outlined.map (harrays.listed "" " ARRAY JOIN " ", " (by decide) (by decide) (by decide))
    fun o ho ↦ ⟨o, ho, rfl, fun b as b' hw ↦ ?_⟩
  simpa using hw

/-- A condition is an outline of its expression. -/
theorem outlined_condition {keyword : String} (hk : Text.Unbraced keyword) (scope : Scope)
    {o : Option Operand} (h : ∀ s ∈ o.toList.flatMap Operand.texts, Text.Unbraced s) :
    Outlined (writeCondition keyword scope o) (writeCondition keyword scope o) (fun s ↦ s)
      (o.toList.flatMap Operand.literals) := by
  rcases o with _ | o
  · exact outlined_pure (by decide)
  · refine Outlined.check fun e he ↦ ?_
    cases o <;> cases he
    simp only [Option.toList_some, List.flatMap_singleton] at h ⊢
    refine (outlined_expr scope fun s hs ↦ h s (List.mem_append_right _ hs)).around
      (keyword ++ " ") "" (fun sql ↦ ?_) ?_ (by decide)
    · rw [String.append_empty]
    · exact (Text.unbraced_append _ _).mpr ⟨hk, by decide⟩

/-- A grouping is an outline of its items. -/
theorem outlined_groupBy (scope : Scope) {c : Clauses}
    (h : ∀ s ∈ c.groupBy.flatMap Operand.texts, Text.Unbraced s) :
    Outlined (c.writeGroupBy scope) (c.writeGroupBy scope) (fun s ↦ s)
      (c.groupBy.flatMap Operand.literals) := by
  unfold writeGroupBy
  rcases c.misfits.groupBy with _ | v
  · by_cases hg : c.groupBy.isEmpty = true
    · simp only [List.isEmpty_iff.mp hg]
      exact outlined_pure (by decide)
    · simp only [if_neg hg]
      have hitems := outlined_mapM fun o ho ↦ outlined_item scope (o := o) fun s hs ↦
        h s (List.mem_flatMap.mpr ⟨o, ho, hs⟩)
      refine (hitems.spaced ", " (by decide)).around "GROUP BY " "" (fun as ↦ ?_) (by decide)
        (by decide)
      simp
  · intro b b' a hx
    obtain ⟨_, _, ht, -⟩ := Writing.done_bind.mp hx
    exact absurd ht Writing.not_done_throw

/-- Whether a direction is written behind an item does not depend on the numbers in it. -/
private theorem outlined_order (scope : Scope) {o : OrderItem}
    (h : ∀ s ∈ o.item.texts, Text.Unbraced s) :
    Outlined (do return directed (← Writing.rendering (o.item.render scope)) o.direction)
      (do return directed (← Writing.rendering (o.item.render scope)) o.direction) (fun s ↦ s)
      o.item.literals := by
  refine (outlined_item scope h).map fun outline hu ↦ ?_
  by_cases hd : hasDirection (outline.write 0) = true
  · refine ⟨outline, hu, rfl, fun b sql b' hw ↦ ?_⟩
    rw [directed, hw.1, Outline.hasDirection_write _ _ 0, if_pos hd, ← hw.1]
    exact hw
  · refine ⟨outline ++ [.text (" " ++ o.direction.keyword)], ?_, by simp [Outline.literals],
      fun b sql b' hw ↦ ?_⟩
    · refine Outline.unbraced_append.mpr ⟨hu, ?_⟩
      cases o.direction <;> simp <;> decide
    · rw [directed, hw.1, Outline.hasDirection_write _ _ 0, if_neg hd, ← hw.1,
        String.append_assoc]
      exact hw.snoc _

/-- An ordering is an outline of its items. -/
theorem outlined_orderBy (scope : Scope) {c : Clauses}
    (h : ∀ s ∈ c.orderBy.flatMap (·.item.texts), Text.Unbraced s) :
    Outlined (c.writeOrderBy scope) (c.writeOrderBy scope) (fun s ↦ s)
      (c.orderBy.flatMap (·.item.literals)) := by
  refine Outlined.check fun _ _ ↦ ?_
  by_cases ho : c.orderBy.isEmpty = true
  · simp only [List.isEmpty_iff.mp ho]
    exact outlined_pure (by decide)
  · simp only [if_neg ho]
    have hitems := outlined_mapM fun o ho ↦ outlined_order scope (o := o) fun s hs ↦
      h s (List.mem_flatMap.mpr ⟨o, ho, hs⟩)
    refine (hitems.spaced ", " (by decide)).around "ORDER BY " "" (fun as ↦ ?_) (by decide)
      (by decide)
    simp

end Clauses

end Columnar
