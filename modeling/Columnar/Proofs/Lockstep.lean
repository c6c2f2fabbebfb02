import Columnar.Proofs.Parts
import Columnar.Proofs.Pieces
import Columnar.Proofs.Succeeding

/-!
# Fingerprints and statements in lockstep

A fingerprint and a statement go through a query separately. Here the literals that the one
collects are shown to be the values that the other binds, in the same order: first for a body of an
expression, then clause by clause, then for a whole query.
-/

namespace Columnar

/-! ### Expressions -/

/-- The column that a literal behind a slot takes its type from. -/
def Slot.column? : Slot → Option Column
  | column c => some c
  | _ => none

/-- An undefined literal is never written. -/
theorem Body.not_done_undefined {scope : Scope} {soFar : String} {position : Nat}
    {last : Option Column} {text : String} {rest : Body} {b b' : Bindings} {sql : String} :
    ¬ ((Body.literal text .undefined rest).render scope soFar position last).Done b sql b' := by
  intro h
  obtain ⟨_, _, ht, -⟩ := Render.done_bind.mp h
  exact Render.not_done_throw ht

/-- Any other literal is bound where it stands. -/
theorem Body.render_literal {scope : Scope} {soFar : String} {position : Nat}
    {last : Option Column} {text : String} {v : Value} {rest : Body} (hv : v ≠ .undefined) :
    (Body.literal text v rest).render scope soFar position last =
      bindLiteral v (Literal.inferType v last) >>= fun place ↦
        rest.render scope (soFar ++ text ++ place) (position + 1) none := by
  cases v <;> first | rfl | exact absurd rfl hv

/-- Any other literal leaves its type in a signature. -/
theorem Body.walk_literal {last : Option Column} {text : String} {v : Value} {rest : Body}
    (hv : v ≠ .undefined) :
    (Body.literal text v rest).walk last = do
      let serial ← Literal.serialize v
      return (← rest.walk none).after (text ++ typeMark (Literal.inferType v last))
        [(serial, Literal.inferType v last)] := by
  cases v <;> first | rfl | exact absurd rfl hv

/-- Where rendering succeeds walking does, and it meets the literals that rendering bound. -/
theorem Body.walk_of_render {scope : Scope} {body : Body} {soFar : String} {position : Nat}
    {last : Option Column} {b b' : Bindings} {sql : String}
    (h : (body.render scope soFar position last).Done b sql b') :
    ∃ w, body.walk last = .ok w ∧ b' = b.extend (w.seen.map Prod.fst) := by
  induction body generalizing soFar position last b b' sql with
  | missing => exact absurd h Render.not_done_throw
  | done text =>
    obtain ⟨-, rfl⟩ := Render.done_pure.mp h
    exact ⟨⟨text, []⟩, rfl, by simp⟩
  | column text c rest ih =>
    obtain ⟨w, hw, rfl⟩ := ih h
    refine ⟨w.after (text ++ c.signature) [], ?_, rfl⟩
    rw [walk, hw]
    rfl
  | nested text label inner rest ihInner ihRest =>
    obtain ⟨sql, b₁, hi, hr⟩ := Render.done_bind.mp h
    obtain ⟨w, hw, rfl⟩ := ihInner hi
    obtain ⟨v, hv, rfl⟩ := ihRest hr
    refine ⟨v.after (text ++ w.text) w.seen, ?_, ?_⟩
    · rw [walk, hw]
      simp only [bind, Except.bind, hv]
      rfl
    · simp [Walked.after]
  | literal text v rest ih =>
    by_cases hv : v = .undefined
    · subst hv
      exact absurd h not_done_undefined
    · rw [render_literal hv] at h
      obtain ⟨place, b₁, hp, hr⟩ := Render.done_bind.mp h
      obtain ⟨serial, hs, -, rfl⟩ := Render.done_bindLiteral.mp hp
      obtain ⟨w, hw, rfl⟩ := ih hr
      refine ⟨w.after (text ++ typeMark (Literal.inferType v last))
        [(serial, Literal.inferType v last)], ?_, ?_⟩
      · rw [walk_literal hv, hs]
        simp only [bind, Except.bind, hw]
        rfl
      · simp [Walked.after]
  | raw text insert rest ih =>
    obtain ⟨w, hw, rfl⟩ := ih h
    refine ⟨w.after (text ++ insert) [], ?_, rfl⟩
    rw [walk, hw]
    rfl

/-! ### Clauses -/

/-- The values that `x` binds when it is done are those that `y` collects, and then `y` succeeds:
`values` says what is collected in an answer of `y`. -/
def Agree {α β : Type} (x : Writing α) (y : Except Failure β) (values : β → List Value) : Prop :=
  ∀ ⦃b b' : Bindings⦄ ⦃a : α⦄, x.Done b a b' → ∃ r, y = .ok r ∧ b' = b.extend (values r)

namespace Agree

variable {α β γ : Type} {x : Writing α} {y : Except Failure β} {values : β → List Value}

/-- Text that is made of what was written binds nothing more. -/
theorem map (h : Agree x y values) (g : α → γ) : Agree (do return g (← x)) y values := by
  intro b b' a hd
  obtain ⟨r, b₁, hx, hp⟩ := Writing.done_bind.mp hd
  obtain ⟨-, rfl⟩ := Writing.done_pure.mp hp
  exact h hx

/-- What is made of an answer of the second collects the same when its values say so. -/
theorem surround (h : Agree x y values) {g : β → γ} {others : γ → List Value}
    (hg : ∀ r, others (g r) = values r) : Agree x (do return g (← y)) others := by
  intro b b' a hd
  obtain ⟨r, rfl, rfl⟩ := h hd
  exact ⟨g r, rfl, by rw [hg]⟩

/-- Items that agree one by one agree in a row. -/
theorem mapM {ι : Type} {f : ι → Writing α} {g : ι → Except Failure β} {items : List ι}
    (h : ∀ i ∈ items, Agree (f i) (g i) values) :
    Agree (items.mapM f) (items.mapM g) (List.flatMap values) := by
  intro b b' ys hd
  induction items generalizing b ys with
  | nil =>
    obtain ⟨-, rfl⟩ := Writing.done_pure.mp hd
    exact ⟨[], rfl, by simp⟩
  | cons i items ih =>
    rw [List.mapM_cons] at hd
    obtain ⟨y, b₁, hi, hd⟩ := Writing.done_bind.mp hd
    obtain ⟨zs, b₂, his, hd⟩ := Writing.done_bind.mp hd
    obtain ⟨-, rfl⟩ := Writing.done_pure.mp hd
    obtain ⟨v, hv, rfl⟩ := h i (by simp) hi
    obtain ⟨vs, hvs, rfl⟩ := ih (fun j hj ↦ h j (by simp [hj])) his
    refine ⟨v :: vs, ?_, by simp⟩
    rw [List.mapM_cons, hv, hvs]
    rfl

end Agree

open Fingerprint (values_append)

private theorem agree_expr (scope : Scope) (e : Expr) :
    Agree (Writing.rendering (e.render scope)) (Fingerprint.ofExpr e) Fingerprint.values := by
  intro b b' sql h
  obtain ⟨w, hw, rfl⟩ := Body.walk_of_render (Writing.done_rendering.mp h)
  refine ⟨⟨w.text, w.seen.map Prod.fst⟩, ?_, rfl⟩
  rw [Fingerprint.ofExpr, Expr.walk, hw]
  rfl

private theorem done_column {scope : Scope} {c : Column} {b b' : Bindings} {sql : String}
    (h : (Writing.rendering ((Operand.column c).render scope)).Done b sql b') : b' = b :=
  (Render.done_pure.mp (Writing.done_rendering.mp h)).2

private theorem agree_item (scope : Scope) (o : Operand) :
    Agree (Writing.rendering (o.render scope)) (Fingerprint.ofItem o) Fingerprint.values := by
  cases o with
  | column c =>
    intro b b' sql h
    obtain rfl := done_column h
    exact ⟨_, rfl, by simp⟩
  | expression e => exact (agree_expr scope e).surround fun f ↦ by simp [values_append]
  | _ =>
    intro b b' sql h
    exact absurd (Writing.done_rendering.mp h) Render.not_done_throw

/-- An item that is selected is written as it is, unless it is neither a column nor an expression:
then a column is written for it. -/
private theorem resolve_cases {c : Clauses} {t : Table} {aliasName : String} {item r : Operand}
    (h : (c.resolve t aliasName item).result = .ok r) :
    r = item ∨ (∃ column, r = .column column) ∧
      Fingerprint.ofItem item = .ok (.ofText ("RAW:" ++ item.inspect)) := by
  unfold Clauses.resolve Table.resolveSelected at h
  rcases hm : c.misfits.table with _ | v <;> rw [hm] at h
  · cases item with
    | column column => exact .inl (Except.ok.inj h).symm
    | expression e => exact .inl (Except.ok.inj h).symm
    | _ =>
      obtain ⟨found, -, h⟩ := Traced.result_bind_eq_ok.mp h
      cases found with
      | none => cases h
      | some column => exact .inr ⟨⟨column, (Except.ok.inj h).symm⟩, rfl⟩
  · cases item with
    | column column => exact .inl (Except.ok.inj h).symm
    | expression e => exact .inl (Except.ok.inj h).symm
    | _ => cases h

private theorem agree_selected (c : Clauses) (t : Table) (scope : Scope) (aliasName : String)
    (item : Operand) : Agree (c.writeSelected t scope aliasName item)
      (Fingerprint.ofSelected (aliasName, item)) Fingerprint.values := by
  intro b b' r hw
  obtain ⟨o, ho, hrest⟩ := Writing.done_traced_bind.mp hw
  obtain ⟨sql, b₁, hs, hend⟩ := Writing.done_bind.mp hrest
  obtain ⟨-, rfl⟩ := Writing.done_pure.mp hend
  have hi : ∃ f, Fingerprint.ofItem item = .ok f ∧ b' = b.extend f.values := by
    rcases resolve_cases ho with rfl | ⟨⟨column, rfl⟩, hraw⟩
    · exact agree_item scope o hs
    · obtain rfl := done_column hs
      exact ⟨_, hraw, by simp⟩
  obtain ⟨f, hf, rfl⟩ := hi
  refine ⟨_, by rw [Fingerprint.ofSelected, hf]; rfl, ?_⟩
  simp [values_append]

private theorem agree_selectedValue (c : Clauses) (t : Table) (scope : Scope)
    (e : Value × Value) : Agree (c.writeSelectedValue t scope e)
      (.ok (Fingerprint.ofSelectedValue e)) Fingerprint.values := by
  intro b b' r hw
  unfold Clauses.writeSelectedValue at hw
  split at hw
  · next aliasName _ =>
    obtain ⟨f, hf, rfl⟩ := agree_selected c t scope aliasName (.value e.2) hw
    obtain rfl := Except.ok.inj hf
    exact ⟨_, rfl, by simp [values_append, Fingerprint.ofSelectedValue]⟩
  · exact absurd hw Writing.not_done_throw
  · exact absurd hw Writing.not_done_throw

/-- The items that are selected, whatever holds them, agree. -/
private theorem agree_selectedItems (c : Clauses) (t : Table) (scope : Scope) :
    Agree (match c.misfits.selection with
      | some v => liftM (v.entriesFor "items") >>= List.mapM (c.writeSelectedValue t scope)
      | none => c.selection.mapM fun e ↦ c.writeSelected t scope e.1 e.2)
      (Fingerprint.selectedItems c) (List.flatMap Fingerprint.values) := by
  intro b b' items hw
  unfold Fingerprint.selectedItems
  rcases hm : c.misfits.selection with _ | v <;> rw [hm] at hw
  · exact Agree.mapM (fun e _ ↦ agree_selected c t scope e.1 e.2) hw
  · obtain ⟨entries, he, hrest⟩ := Writing.done_check_bind.mp hw
    obtain ⟨fs, hfs, rfl⟩ := Agree.mapM (fun e _ ↦ agree_selectedValue c t scope e) hrest
    refine ⟨entries.map Fingerprint.ofSelectedValue, by simp only [he]; rfl, ?_⟩
    have hmap : entries.mapM (fun e ↦ (pure (Fingerprint.ofSelectedValue e) : Except Failure _)) =
        .ok (entries.map Fingerprint.ofSelectedValue) := List.mapM_pure
    obtain rfl := Except.ok.inj (hmap.symm.trans hfs)
    rfl

/-- Nothing is bound once the items are written. -/
private theorem done_selection {c : Clauses} {t : Table}
    {items : List (String × String × String)} {b b' : Bindings}
    {r : String × List (String × String)}
    (h : Writing.Done (if items.isEmpty then do return ("*", ← liftM (c.writeAll t))
      else return (", ".intercalate (items.map Prod.fst), items.map Prod.snd)) b r b') :
    b' = b := by
  split at h
  · obtain ⟨all, -, hend⟩ := Writing.done_check_bind.mp h
    exact (Writing.done_pure.mp hend).2
  · exact (Writing.done_pure.mp h).2

private theorem agree_selection (c : Clauses) (t : Table) (scope : Scope) :
    Agree (c.writeSelection t scope) (Fingerprint.ofSelection c) Fingerprint.values := by
  intro b b' r hw
  have hp := Clauses.not_pending_of_writeSelection hw
  have hitems : ∃ fs, Fingerprint.selectedItems c = .ok fs ∧
      b' = b.extend (fs.flatMap Fingerprint.values) := by
    have hagree := agree_selectedItems c t scope
    simp only [Clauses.writeSelection, hp, if_false, Bool.false_eq_true] at hw
    rcases hm : c.misfits.selection with _ | v <;> rw [hm] at hw hagree
    · obtain ⟨items, b₁, hi, hend⟩ := Writing.done_bind.mp hw
      rw [done_selection hend]
      exact hagree hi
    · obtain ⟨entries, he, hrest⟩ := Writing.done_check_bind.mp hw
      obtain ⟨items, b₁, hi, hend⟩ := Writing.done_bind.mp hrest
      rw [done_selection hend]
      exact hagree (Writing.done_check_bind.mpr ⟨entries, he, hi⟩)
  obtain ⟨fs, hfs, rfl⟩ := hitems
  refine ⟨_, by rw [Fingerprint.ofSelection, if_neg hp, hfs]; rfl, ?_⟩
  cases fs with
  | nil => simp
  | cons f fs => simp [values_append]

private theorem agree_join {scope : Scope} {j : Join} (hj : j.keyword = "CROSS" → j.on = none) :
    Agree (Clauses.writeJoin scope j) (Fingerprint.ofJoin j) Fingerprint.values := by
  intro b b' r hw
  unfold Clauses.writeJoin at hw
  split at hw
  · next hon =>
    obtain ⟨-, rfl⟩ := Writing.done_pure.mp hw
    refine ⟨_, by rw [Fingerprint.ofJoin, hon]; rfl, ?_⟩
    simp [values_append]
  · next on hon =>
    have hk : j.keyword ≠ "CROSS" := by
      intro hk
      rw [hj hk] at hon
      cases hon
    rw [if_neg hk] at hw
    obtain ⟨sql, b₁, hs, hend⟩ := Writing.done_bind.mp hw
    obtain ⟨-, rfl⟩ := Writing.done_pure.mp hend
    obtain ⟨f, hf, rfl⟩ := agree_expr scope on hs
    refine ⟨_, by rw [Fingerprint.ofJoin, hon]; simp only [hf]; rfl, ?_⟩
    simp [values_append]

private theorem agree_arrayJoin (scope : Scope) (a : ArrayJoin) :
    Agree (Clauses.writeArrayJoin scope a) (Fingerprint.ofArrayJoin a) Fingerprint.values :=
  ((agree_item scope a.item).map _).surround fun f ↦ by simp [values_append]

private theorem agree_condition (keyword head : String) (scope : Scope) (o : Option Operand) :
    Agree (Clauses.writeCondition keyword scope o) (Fingerprint.ofCondition head o)
      Fingerprint.values := by
  intro b b' r hw
  cases o with
  | none =>
    obtain ⟨-, rfl⟩ := Writing.done_pure.mp hw
    exact ⟨_, rfl, by simp⟩
  | some o =>
    obtain ⟨e, he, hrest⟩ := Writing.done_check_bind.mp hw
    obtain ⟨sql, b₁, hs, hend⟩ := Writing.done_bind.mp hrest
    obtain ⟨-, rfl⟩ := Writing.done_pure.mp hend
    obtain ⟨f, hf, rfl⟩ := agree_expr scope e hs
    have hw : Clauses.asExpr "walk" o = .ok e := by
      cases o with
      | expression e' => exact he
      | _ => cases he
    refine ⟨_, by rw [Fingerprint.ofCondition, hw]; simp only [bind, Except.bind, hf]; rfl, ?_⟩
    simp [values_append]

private theorem agree_grouped (scope : Scope) (o : Operand) :
    Agree (Writing.rendering (o.render scope)) (Fingerprint.ofGrouped o) Fingerprint.values :=
  (agree_item scope o).surround fun f ↦ by simp [values_append]

private theorem agree_order (scope : Scope) (o : OrderItem) :
    Agree (do return Clauses.directed (← Writing.rendering (o.item.render scope)) o.direction)
      (Fingerprint.ofOrder o) Fingerprint.values :=
  ((agree_item scope o.item).map _).surround fun f ↦ by simp [values_append]

/-- A subquery binds the values of its statement. -/
private theorem agree_inlining (s : Traced Statement) :
    Agree (Writing.inlining s) s.result fun t ↦ t.params.map Prod.snd := by
  intro b b' text hw
  obtain ⟨t, ht, hi⟩ := Writing.done_inlining.mp hw
  refine ⟨t, ht, ?_⟩
  rw [← Statement.snd_inline, hi]

private theorem agree_ctes (ctes : List (String × Query)) :
    Agree (Clauses.writeCtes (ctes.map fun e ↦ (e.1, e.2.compile)))
      (Fingerprint.ofCtes ctes).result (List.flatMap Fingerprint.values) := by
  rw [Fingerprint.ofCtes, Traced.result_mapM]
  refine Agree.map ?_ _
  rw [List.mapM_map]
  refine Agree.mapM fun e _ ↦ ?_
  rw [Traced.result_bind]
  exact ((agree_inlining e.2.compile).map _).surround fun t ↦ rfl

/-- Whether something stands in place of a clause does not depend on what is asked of its items. -/
private theorem visitIfAny_of_visitIfAny {name other : String} {m : Option Value}
    (h : Misfits.visitIfAny name m = .ok ()) : Misfits.visitIfAny other m = .ok () := by
  cases m with
  | none => rfl
  | some v =>
    simp only [Misfits.visitIfAny, Value.visitIfAny, Value.visit, bind, Except.bind] at h ⊢
    split
    · next ht =>
      rw [if_pos ht] at h
      rcases hi : v.items with e | _ | ⟨x, xs⟩ <;> rw [hi] at h
      · cases h
      · rfl
      · cases h
    · rfl

private theorem visitIfAny_of_visit {name : String} {m : Option Value}
    (h : Misfits.visit name m = .ok ()) : Misfits.visitIfAny name m = .ok () := by
  cases m with
  | none => rfl
  | some v =>
    simp only [Misfits.visitIfAny, Value.visitIfAny]
    split
    · exact h
    · rfl

/-- The joins and the expanded arrays bind what they collect, one after another. -/
private theorem joins_of_done {c : Clauses} {scope : Scope} {b b' : Bindings} {head sql : String}
    (hj : ∀ j ∈ c.joins, j.keyword = "CROSS" → j.on = none)
    (h : Writing.Done (do
      liftM (Misfits.visit "type" c.misfits.joins)
      let joins ← c.joins.mapM (Clauses.writeJoin scope)
      liftM (Misfits.visitIfAny "expression" c.misfits.arrayJoins)
      let arrays ← c.arrayJoins.mapM (Clauses.writeArrayJoin scope)
      let arrayText := if arrays.isEmpty then "" else " ARRAY JOIN " ++ ", ".intercalate arrays
      return head ++ String.join joins ++ arrayText) b sql b') :
    Misfits.visitIfAny "type" c.misfits.joins = .ok () ∧
      Misfits.visitIfAny "expression" c.misfits.arrayJoins = .ok () ∧
      ∃ joins arrays, c.joins.mapM Fingerprint.ofJoin = .ok joins ∧
        c.arrayJoins.mapM Fingerprint.ofArrayJoin = .ok arrays ∧
        b' = b.extend (joins.flatMap Fingerprint.values ++
          arrays.flatMap Fingerprint.values) := by
  obtain ⟨_, hvj, h₁⟩ := Writing.done_check_bind.mp h
  obtain ⟨_, b₁, hjoins, h₂⟩ := Writing.done_bind.mp h₁
  obtain ⟨_, hva, h₃⟩ := Writing.done_check_bind.mp h₂
  obtain ⟨_, b₂, harrays, h₄⟩ := Writing.done_bind.mp h₃
  obtain ⟨-, rfl⟩ := Writing.done_pure.mp h₄
  obtain ⟨joins, hjs, rfl⟩ := Agree.mapM (fun j hm ↦ agree_join (hj j hm)) hjoins
  obtain ⟨arrays, has, rfl⟩ := Agree.mapM (fun a _ ↦ agree_arrayJoin scope a) harrays
  exact ⟨visitIfAny_of_visit hvj, hva, joins, arrays, hjs, has, by simp⟩

/-- The source, the joins and the expanded arrays bind what they collect, one after another. -/
private theorem from_of_done {c : Clauses} {t : Table} {inner : Option Query} {scope : Scope}
    {b b' : Bindings} {sql : String} (hj : ∀ j ∈ c.joins, j.keyword = "CROSS" → j.on = none)
    (h : (c.writeFrom t (inner.map Query.compile) scope).Done b sql b') :
    Misfits.visitIfAny "type" c.misfits.joins = .ok () ∧
      Misfits.visitIfAny "expression" c.misfits.arrayJoins = .ok () ∧
      ∃ source joins arrays, (Fingerprint.ofSource c (some (t, inner))).result = .ok source ∧
        c.joins.mapM Fingerprint.ofJoin = .ok joins ∧
        c.arrayJoins.mapM Fingerprint.ofArrayJoin = .ok arrays ∧
        b' = b.extend (source.values ++ (joins.flatMap Fingerprint.values ++
          arrays.flatMap Fingerprint.values)) := by
  have hm := Clauses.table_of_writeFrom h
  simp only [Clauses.writeFrom, hm] at h
  cases inner with
  | none =>
    obtain ⟨hvj, hva, joins, arrays, hjs, has, rfl⟩ := joins_of_done hj h
    exact ⟨hvj, hva, _, joins, arrays, rfl, hjs, has, rfl⟩
  | some inner =>
    obtain ⟨text, b₁, hi, hrest⟩ := Writing.done_bind.mp h
    obtain ⟨u, hu, rfl⟩ := agree_inlining inner.compile hi
    obtain ⟨hvj, hva, joins, arrays, hjs, has, rfl⟩ := joins_of_done hj hrest
    refine ⟨hvj, hva, _, joins, arrays, Traced.result_bind_eq_ok.mpr ⟨u, hu, rfl⟩, hjs, has, ?_⟩
    rw [Bindings.extend_extend]
    rfl

/-- Grouped items bind what they collect, and nothing stands in their place. -/
private theorem groups_of_done {c : Clauses} {scope : Scope} {b b' : Bindings} {sql : String}
    (h : (c.writeGroupBy scope).Done b sql b') : c.misfits.groupBy = none ∧
      ∃ groups, c.groupBy.mapM Fingerprint.ofGrouped = .ok groups ∧
        b' = b.extend (groups.flatMap Fingerprint.values) := by
  rcases hm : c.misfits.groupBy with _ | v
  · refine ⟨rfl, ?_⟩
    simp only [Clauses.writeGroupBy, hm] at h
    rcases hg : c.groupBy with _ | ⟨o, os⟩ <;> rw [hg] at h
    · obtain ⟨-, rfl⟩ := Writing.done_pure.mp h
      exact ⟨[], rfl, by simp⟩
    · obtain ⟨items, b₁, hi, hend⟩ := Writing.done_bind.mp h
      obtain ⟨-, rfl⟩ := Writing.done_pure.mp hend
      exact Agree.mapM (fun o _ ↦ agree_grouped scope o) hi
  · simp only [Clauses.writeGroupBy, hm] at h
    obtain ⟨_, _, ht, -⟩ := Writing.done_bind.mp h
    exact absurd ht Writing.not_done_throw

/-- Ordered items bind what they collect, and what stands in their place has none. -/
private theorem order_of_done {c : Clauses} {scope : Scope} {b b' : Bindings} {sql : String}
    (h : (c.writeOrderBy scope).Done b sql b') :
    Misfits.visitIfAny "expression" c.misfits.orderBy = .ok () ∧
      ∃ order, c.orderBy.mapM Fingerprint.ofOrder = .ok order ∧
        b' = b.extend (order.flatMap Fingerprint.values) := by
  obtain ⟨_, hv, hrest⟩ := Writing.done_check_bind.mp h
  refine ⟨hv, ?_⟩
  rcases ho : c.orderBy with _ | ⟨o, os⟩ <;> rw [ho] at hrest
  · obtain ⟨-, rfl⟩ := Writing.done_pure.mp hrest
    exact ⟨[], rfl, by simp⟩
  · obtain ⟨items, b₁, hi, hend⟩ := Writing.done_bind.mp hrest
    obtain ⟨-, rfl⟩ := Writing.done_pure.mp hend
    exact Agree.mapM (fun o _ ↦ agree_order scope o) hi

/-- What is a pair is not a position. -/
private theorem item_of_pair {v x : Value} {p : Value × Value} {n : Nat}
    (h : Value.pairAt n x = .ok p) : ∃ e, v.item x = .error e := by
  unfold Value.item
  split
  · cases h
  · cases h
  · cases h
  · cases h
  · exact ⟨_, rfl⟩

/-- What counts as present has items, if it can have any. -/
private theorem items_ne_nil {v : Value} {xs : List Value} (ht : v.isTruthy)
    (h : v.items = .ok xs) : xs ≠ [] := by
  rintro rfl
  cases v with
  | list items | tuple items =>
    obtain rfl := Except.ok.inj h
    cases ht
  | text s =>
    have hs : s.toList = [] := List.map_eq_nil_iff.mp (Except.ok.inj h)
    rw [String.toList_eq_nil_iff] at hs
    subst hs
    cases ht
  | map entries =>
    have he : entries = [] := List.map_eq_nil_iff.mp (Except.ok.inj h)
    subst he
    cases ht
  | _ => cases h

/-- A row of pairs holds nothing under its own items. -/
private theorem map_of_sortedEntries {v : Value} {given sorted : List (Value × Value)}
    (hg : v.toEntries = .ok given) (ht : v.isTruthy) (hs : v.sortedEntries = .ok sorted) :
    ∃ entries, v = .map entries := by
  by_cases hmap : ∃ entries, v = .map entries
  · exact hmap
  · have hpairs : (v.items >>= fun xs ↦ xs.zipIdx.mapM (fun p ↦ Value.pairAt p.2 p.1) >>=
        fun pairs ↦ pure (Value.entriesOf pairs)) = .ok given := by
      rw [← hg]
      cases v <;> first | rfl | exact absurd ⟨_, rfl⟩ hmap
    have hnames : (v.items >>= fun xs ↦ Order.sort Value.less xs >>=
        List.mapM fun name ↦ v.item name >>= fun held ↦ pure (name, held)) = .ok sorted := by
      rw [← hs]
      cases v <;> first | rfl | exact absurd ⟨_, rfl⟩ hmap
    rcases hi : v.items with e | xs <;> rw [hi] at hpairs hnames
    · cases hpairs
    · simp only [bind, Except.bind] at hpairs hnames
      rcases hp : xs.zipIdx.mapM (fun p ↦ Value.pairAt p.2 p.1) with e | pairs
      · rw [hp] at hpairs
        cases hpairs
      · rcases ho : Order.sort Value.less xs with e | names <;> rw [ho] at hnames
        · cases hnames
        · have hperm := Order.perm_of_sort ho
          obtain ⟨x, hx⟩ := List.exists_mem_of_ne_nil xs (items_ne_nil ht hi)
          obtain ⟨y, -, hy⟩ := Succeeding.exists_of_forall₂
            (Succeeding.forall₂_of_mapM hnames) (hperm.mem_iff.mpr hx)
          obtain ⟨n, hn⟩ := List.mem_iff_getElem?.mp hx
          have hn := List.mk_mem_zipIdx_iff_getElem?.mpr hn
          obtain ⟨p, -, hp⟩ :=
            Succeeding.exists_of_forall₂ (Succeeding.forall₂_of_mapM hp) hn
          obtain ⟨e, he⟩ := item_of_pair (v := v) hp
          rw [he] at hy
          cases hy

private theorem settings_of_write {c : Clauses} {t : Table} {text : String}
    (hs : ∀ v, c.misfits.settings = some v → v.isTruthy → ∃ entries, v = .map entries)
    (h : c.writeSettings t = .ok text) : ∃ text', Fingerprint.settingsText c = .ok text' := by
  unfold Fingerprint.settingsText
  unfold Clauses.writeSettings at h
  rcases hm : c.misfits.settings with _ | v
  · exact ⟨_, rfl⟩
  · rw [hm] at h
    by_cases ht : v.isTruthy
    · obtain ⟨entries, rfl⟩ := hs v hm ht
      have hsorted : ∃ sorted, Value.sortEntries entries = .ok sorted := by
        simp only [Value.toEntries, bind, Except.bind] at h
        split at h
        · cases h
        · next sorted hsort =>
          split at hsort
          · exact Order.sort_of_append hsort
          · rw [List.append_nil] at hsort
            exact ⟨sorted, hsort⟩
      obtain ⟨sorted, hsort⟩ := hsorted
      simp only [Fingerprint.misfitText, if_pos ht, Value.sortedEntries, hsort]
      exact ⟨_, rfl⟩
    · simp only [Fingerprint.misfitText, if_neg ht]
      exact ⟨"", rfl⟩

/-- Settings that are written and have a part in the fingerprint stand under names. -/
private theorem named_of_settingsText {c : Clauses} {t : Table} {text text' : String}
    (h : c.writeSettings t = .ok text) (hf : Fingerprint.settingsText c = .ok text') :
    ∀ v, c.misfits.settings = some v → v.isTruthy → ∃ entries, v = .map entries := by
  intro v hm ht
  simp only [Clauses.writeSettings, hm, bind, Except.bind] at h
  simp only [Fingerprint.settingsText, hm, Fingerprint.misfitText, if_pos ht, bind,
    Except.bind] at hf
  rcases he : v.toEntries with e | given <;> rw [he] at h
  · cases h
  · rcases hs : v.sortedEntries with e | sorted <;> rw [hs] at hf
    · cases hf
    · exact map_of_sortedEntries he ht hs

private theorem windows_of_write {c : Clauses} {text : String} (h : c.writeWindows = .ok text) :
    ∃ text', Fingerprint.windowsText c = .ok text' := by
  unfold Fingerprint.windowsText
  unfold Clauses.writeWindows at h
  rcases hm : c.misfits.windows with _ | v
  · exact ⟨_, rfl⟩
  · rw [hm] at h
    simp only [Fingerprint.misfitText, bind, Except.bind] at h ⊢
    split
    · next ht =>
      rw [if_pos ht] at h
      split at h
      · cases h
      · exact ⟨_, rfl⟩
    · exact ⟨_, rfl⟩

/-- The limit, the offset, the sample, the settings and the windows collect nothing, and they have
a text when they are written. -/
private theorem tail_of_write {c : Clauses} {t : Table} {sample settings windows : String}
    (hs : ∀ v, c.misfits.settings = some v → v.isTruthy → ∃ entries, v = .map entries)
    (hsample : c.writeSample = .ok sample) (hsettings : c.writeSettings t = .ok settings)
    (hwindows : c.writeWindows = .ok windows) : ∃ text, Fingerprint.tail c = .ok text := by
  obtain ⟨settings', hset⟩ := settings_of_write hs hsettings
  obtain ⟨windows', hwin⟩ := windows_of_write hwindows
  have hsam : ∃ text, Fingerprint.sampleText c = .ok text := by
    unfold Fingerprint.sampleText
    unfold Clauses.writeSample at hsample
    rcases hm : c.misfits.sample with _ | v
    · cases c.sample <;> exact ⟨_, rfl⟩
    · rw [hm] at hsample
      cases hsample
  obtain ⟨sample', hsam⟩ := hsam
  rw [Fingerprint.tail, hsam, hset, hwin]
  exact ⟨_, rfl⟩

/-! ### Queries -/

/-- No join that pairs all rows has a condition. -/
def Query.CrossJoinsBare (q : Query) : Prop :=
  ∀ j ∈ q.clauses.joins, j.keyword = "CROSS" → j.on = none

/-- The settings stand under names, or there are none. -/
def Query.SettingsNamed (q : Query) : Prop :=
  ∀ v, q.clauses.misfits.settings = some v → v.isTruthy → ∃ entries, v = .map entries

/-- Where a query compiles and its settings are named it has a fingerprint, and the statement binds
the values collected, under the first numbers. -/
theorem Query.fingerprint_of_compile {q : Query} {s : Statement} (hj : q.CrossJoinsBare)
    (hs : q.SettingsNamed) (h : q.compile.result = .ok s) :
    ∃ f, q.fingerprint.result = .ok f ∧ s.params = Bindings.numbered 0 f.values := by
  obtain ⟨t, inner, p, hsource, hp, rfl⟩ := pieces_of_compile h
  obtain ⟨ctes, hctes, h₁⟩ := agree_ctes q.ctes hp.ctes
  obtain ⟨selection, hselection, h₂⟩ := agree_selection q.clauses t _ hp.selection
  obtain ⟨noJoins, noArrayJoins, source, joins, arrayJoins, hsrc, hjoins, harrayJoins, h₃⟩ :=
    from_of_done hj hp.source
  obtain ⟨prewhere, hprewhere, h₄⟩ := agree_condition _ "|PREWHERE:" _ _ hp.prewhere
  obtain ⟨condition, hcondition, h₅⟩ := agree_condition _ "|WHERE:" _ _ hp.condition
  obtain ⟨noGroupBy, groupBy, hgroupBy, h₆⟩ := groups_of_done hp.groupBy
  obtain ⟨having', hhaving, h₇⟩ := agree_condition _ "|HAVING:" _ _ hp.having
  obtain ⟨noOrderBy, orderBy, horderBy, h₈⟩ := order_of_done hp.orderBy
  obtain ⟨tail, htail⟩ := tail_of_write hs hp.sample hp.settings hp.windows
  refine ⟨_, fingerprint_eq_ok.mpr ⟨⟨ctes, selection, source, joins, arrayJoins, prewhere,
    condition, groupBy, having', orderBy, tail⟩, ⟨visitIfAny_of_visitIfAny hp.noCtes, hctes,
    hselection, by rw [hsource]; exact hsrc, noJoins, hjoins, noArrayJoins, harrayJoins, hprewhere,
    hcondition, noGroupBy, hgroupBy, hhaving, noOrderBy, horderBy, htail⟩, rfl⟩, ?_⟩
  simp only [Clauses.assemble, h₈, h₇, h₆, h₅, h₄, h₃, h₂, h₁, Parts.values_whole,
    Bindings.extend_extend, Bindings.params_extend_empty, List.append_assoc]

/-- The settings of a query that compiles and has a fingerprint are named. -/
theorem Query.settingsNamed_of_fingerprint {q : Query} {s : Statement} {f : Fingerprint}
    (h : q.compile.result = .ok s) (hf : q.fingerprint.result = .ok f) : q.SettingsNamed := by
  obtain ⟨t, inner, p, -, hp, -⟩ := pieces_of_compile h
  obtain ⟨r, hr, -⟩ := fingerprint_eq_ok.mp hf
  have ht := hr.tail
  simp only [Fingerprint.tail, bind, Except.bind] at ht
  rcases hsample : Fingerprint.sampleText q.clauses with e | sample <;> rw [hsample] at ht
  · cases ht
  · rcases hsettings : Fingerprint.settingsText q.clauses with e | text <;> rw [hsettings] at ht
    · cases ht
    · exact named_of_settingsText hp.settings hsettings

end Columnar
