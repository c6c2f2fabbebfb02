import Columnar.Proofs.Lockstep
import Columnar.Proofs.Placeholders.InPlace

/-!
# What can be written

Whether a clause can be written does not depend on the parameters that were bound before it.
`Writing.SucceedsIff` says when a writing answers, from whatever bindings; there is one lemma for
each way to compose writings. An expression can be written when each of its literals can
(`Body.exists_done_render`).
-/

namespace Columnar

/-! ### Expressions -/

/-- A literal that is defined and has a serial form. -/
def Value.IsBindable (v : Value) : Prop :=
  v ≠ .undefined ∧ ∃ serial, Literal.serialize v = .ok serial

/-- A body that can be written: it is there, and its literals can be bound. -/
def Body.Writable : Body → Prop
  | missing => False
  | done _ => True
  | column _ _ rest => rest.Writable
  | nested _ _ inner rest => inner.Writable ∧ rest.Writable
  | literal _ v rest => v.IsBindable ∧ rest.Writable
  | raw _ _ rest => rest.Writable

/-- A slot that can be written. -/
def Slot.Writable : Slot → Prop
  | column _ | raw _ => True
  | expression e => e.body.Writable
  | literal v => v.IsBindable

/-- An operand that can be written by itself: a column, or an expression that can. -/
def Operand.Writable : Operand → Prop
  | column _ => True
  | expression e => e.body.Writable
  | _ => False

namespace Body

/-- A body that is woven can be written when its slots can. -/
theorem writable_weave (head : String) (pieces : List (Slot × String)) :
    (weave head pieces).Writable ↔ ∀ p ∈ pieces, p.1.Writable := by
  induction pieces generalizing head with
  | nil => simp [weave, Writable]
  | cons p pieces ih =>
    obtain ⟨slot, text⟩ := p
    rw [weave, List.forall_mem_cons, ← ih text]
    cases slot <;> simp [cons, Writable, Slot.Writable]

/-- A body is rendered, wherever it stands and whatever was bound before, when it can be written. -/
theorem exists_done_render {scope : Scope} {body : Body} {soFar : String} {position : Nat}
    {last : Option Column} {b : Bindings} :
    (∃ sql b', (body.render scope soFar position last).Done b sql b') ↔ body.Writable := by
  induction body generalizing soFar position last b with
  | missing =>
    refine iff_of_false ?_ id
    rintro ⟨sql, b', h⟩
    exact Render.not_done_throw h
  | done text => exact iff_of_true ⟨_, _, Render.done_pure.mpr ⟨rfl, rfl⟩⟩ trivial
  | column text c rest ih => exact ih
  | raw text insert rest ih => exact ih
  | nested text label inner rest ihInner ih =>
    rw [Writable, ← @ihInner "" 0 none b]
    constructor
    · rintro ⟨sql, b', h⟩
      obtain ⟨inserted, b₁, hi, hr⟩ := Render.done_bind.mp h
      exact ⟨⟨inserted, b₁, hi⟩, ih.mp ⟨sql, b', hr⟩⟩
    · rintro ⟨⟨inserted, b₁, hi⟩, hr⟩
      obtain ⟨sql, b', h⟩ := ih.mpr hr
      exact ⟨sql, b', Render.done_bind.mpr ⟨inserted, b₁, hi, h⟩⟩
  | literal text v rest ih =>
    rw [Writable]
    by_cases hv : v = .undefined
    · subst hv
      refine iff_of_false ?_ fun h ↦ h.1.1 rfl
      rintro ⟨sql, b', h⟩
      exact not_done_undefined h
    · rw [render_literal hv]
      constructor
      · rintro ⟨sql, b', h⟩
        obtain ⟨place, b₁, hp, hr⟩ := Render.done_bind.mp h
        obtain ⟨serial, hserial, -, -⟩ := Render.done_bindLiteral.mp hp
        exact ⟨⟨hv, serial, hserial⟩, ih.mp ⟨sql, b', hr⟩⟩
      · rintro ⟨⟨-, serial, hserial⟩, hr⟩
        obtain ⟨sql, b', h⟩ := ih.mpr hr
        exact ⟨sql, b', Render.done_bind.mpr
          ⟨_, _, Render.done_bindLiteral.mpr ⟨serial, hserial, rfl, rfl⟩, h⟩⟩

end Body

/-! ### Slots -/

/-- What a slot writes after a column or after anything else. -/
def Slot.WrittenAs (scope : Scope) (last : Option Column) (b : Bindings) (sql : String)
    (b' : Bindings) : Slot → Prop
  | column c => sql = scope.column c ∧ b' = b
  | expression e => (e.render scope).Done b sql b'
  | literal v => v ≠ .undefined ∧ (bindLiteral v (Literal.inferType v last)).Done b sql b'
  | raw text => sql = text ∧ b' = b

/-- A slot is written between two pieces of text. -/
theorem Body.done_render_cons {scope : Scope} {soFar text : String} {position : Nat}
    {last : Option Column} {slot : Slot} {rest : Body} {b b' : Bindings} {sql : String} :
    ((cons text slot rest).render scope soFar position last).Done b sql b' ↔
      ∃ inserted b₁, slot.WrittenAs scope last b inserted b₁ ∧
        (rest.render scope (soFar ++ text ++ inserted) (position + 1) slot.column?).Done b₁ sql b'
    := by
  cases slot with
  | column c => simp [Slot.WrittenAs, cons, render, Slot.column?]
  | raw insert => simp [Slot.WrittenAs, cons, render, Slot.column?]
  | expression e => exact Render.done_bind
  | literal v =>
    rw [cons]
    by_cases hv : v = .undefined
    · subst hv
      simp [Slot.WrittenAs, not_done_undefined]
    · rw [render_literal hv, Render.done_bind]
      simp [Slot.WrittenAs, hv, Slot.column?]

/-! ### Writing -/

namespace Writing

variable {α β ι : Type} {x : Writing α} {P Q : Prop}

/-- The writing answers exactly under a condition, whatever was bound before. -/
def SucceedsIff (x : Writing α) (P : Prop) : Prop := ∀ b, (∃ a b', x.Done b a b') ↔ P

theorem succeedsIff_pure (a : α) : SucceedsIff (pure a) True :=
  fun b ↦ iff_of_true ⟨a, b, done_pure.mpr ⟨rfl, rfl⟩⟩ trivial

theorem succeedsIff_get : SucceedsIff (get : Writing Bindings) True :=
  fun b ↦ iff_of_true ⟨b, b, done_get.mpr ⟨rfl, rfl⟩⟩ trivial

/-- A sequence answers when both of its parts do. -/
theorem SucceedsIff.bind {f : α → Writing β} (hx : x.SucceedsIff P)
    (hf : ∀ a, (f a).SucceedsIff Q) : (x >>= f).SucceedsIff (P ∧ Q) := by
  intro b
  constructor
  · rintro ⟨r, b', h⟩
    obtain ⟨a, b₁, ha, hr⟩ := done_bind.mp h
    exact ⟨(hx b).mp ⟨a, b₁, ha⟩, (hf a b₁).mp ⟨r, b', hr⟩⟩
  · rintro ⟨hP, hQ⟩
    obtain ⟨a, b₁, ha⟩ := (hx b).mpr hP
    obtain ⟨r, b', hr⟩ := (hf a b₁).mpr hQ
    exact ⟨r, b', done_bind.mpr ⟨a, b₁, ha, hr⟩⟩

/-- Behind a check that is passed the rest decides. -/
theorem SucceedsIff.checked {σ : Type} {e : Except Failure σ} {a : σ} {f : σ → Writing β}
    (hf : (f a).SucceedsIff Q) (he : e = .ok a) : (liftM e >>= f).SucceedsIff Q := by
  subst he
  exact fun b ↦ by simpa only [done_check_bind, Except.ok.injEq, exists_eq_left'] using hf b

/-- What always answers adds no condition. -/
theorem SucceedsIff.bind_total {f : α → Writing β} (hx : x.SucceedsIff P)
    (hf : ∀ a, (f a).SucceedsIff True) : (x >>= f).SucceedsIff P := by
  have h := hx.bind hf
  rwa [and_true] at h

/-- What is made of an answer is there when the answer is. -/
theorem SucceedsIff.map (hx : x.SucceedsIff P) (f : α → β) :
    SucceedsIff (do return f (← x)) P :=
  hx.bind_total fun a ↦ succeedsIff_pure (f a)

/-- Items are written in a row when each of them is. -/
theorem succeedsIff_mapM {f : ι → Writing α} {items : List ι} {R : ι → Prop}
    (h : ∀ i ∈ items, (f i).SucceedsIff (R i)) :
    (items.mapM f).SucceedsIff (∀ i ∈ items, R i) := by
  induction items with
  | nil => simpa using succeedsIff_pure ([] : List α)
  | cons i items ih =>
    rw [List.mapM_cons, List.forall_mem_cons]
    exact (h i (by simp)).bind fun a ↦ (ih fun j hj ↦ h j (by simp [hj])).map (a :: ·)

theorem succeedsIff_render (scope : Scope) (e : Expr) :
    SucceedsIff (rendering (e.render scope)) e.body.Writable := by
  intro b
  simp only [done_rendering]
  exact Body.exists_done_render

theorem succeedsIff_renderOperand (scope : Scope) (o : Operand) :
    SucceedsIff (rendering (o.render scope)) o.Writable := by
  cases o with
  | column c => exact succeedsIff_pure (scope.column c)
  | expression e => exact succeedsIff_render scope e
  | _ =>
    refine fun b ↦ iff_of_false ?_ id
    rintro ⟨sql, b', h⟩
    exact Render.not_done_throw (done_rendering.mp h)

/-- A subquery is inlined when it compiles. -/
theorem succeedsIff_inlining (s : Traced Statement) :
    SucceedsIff (inlining s) (∃ t, s.result = .ok t) := by
  intro b
  simp only [done_inlining]
  constructor
  · rintro ⟨sql, b', t, ht, -⟩
    exact ⟨t, ht⟩
  · rintro ⟨t, ht⟩
    exact ⟨_, _, t, ht, rfl⟩

end Writing

/-! ### Clauses -/

/-- An operand that can be written as a condition: an expression that can be written. -/
def Operand.WritableCondition (o : Operand) : Prop := ∃ e, o = .expression e ∧ e.body.Writable

/-- Clauses that can be written for a table. -/
structure Clauses.Writable (c : Clauses) (t : Table) : Prop where
  selection : ∀ e ∈ c.selection, ∃ o, (t.resolveSelected e.1 e.2).result = .ok o ∧ o.Writable
  joins : ∀ j ∈ c.joins, ∀ e ∈ j.on, j.keyword = "CROSS" ∨ e.body.Writable
  arrayJoins : ∀ a ∈ c.arrayJoins, a.item.Writable
  prewhere : ∀ o ∈ c.prewhere, o.WritableCondition
  condition : ∀ o ∈ c.condition, o.WritableCondition
  groupBy : ∀ o ∈ c.groupBy, o.Writable
  having : ∀ o ∈ c.having, o.WritableCondition
  orderBy : ∀ o ∈ c.orderBy, o.item.Writable

namespace Clauses

open Writing

variable {c : Clauses} {t : Table} {scope : Scope}

private theorem succeedsIff_selected (hm : c.misfits = {}) (name : String) (item : Operand) :
    (c.writeSelected t scope name item).SucceedsIff
      (∃ o, (t.resolveSelected name item).result = .ok o ∧ o.Writable) := by
  intro b
  have hresolve : c.resolve t name item = t.resolveSelected name item := by
    simp only [resolve, hm]
  have hrest (o : Operand) := (succeedsIff_renderOperand scope o).map fun sql ↦
    (sql ++ " AS `" ++ outputName name o ++ "`", outputName name o, outputType o)
  rw [writeSelected, hresolve]
  constructor
  · rintro ⟨r, b', h⟩
    obtain ⟨o, ho, h⟩ := done_traced_bind.mp h
    exact ⟨o, ho, (hrest o b).mp ⟨r, b', h⟩⟩
  · rintro ⟨o, ho, hwritable⟩
    obtain ⟨r, b', h⟩ := (hrest o b).mpr hwritable
    exact ⟨r, b', done_traced_bind.mpr ⟨o, ho, h⟩⟩

private theorem succeedsIff_selection (hm : c.misfits = {}) (hp : c.pending = none) :
    (c.writeSelection t scope).SucceedsIff
      (∀ e ∈ c.selection, ∃ o, (t.resolveSelected e.1 e.2).result = .ok o ∧ o.Writable) := by
  rw [writeSelection_eq (by simp [hm, hp]) (by rw [hm]), writeItems, hm]
  exact (succeedsIff_mapM fun e _ ↦ succeedsIff_selected hm e.1 e.2).map (selected t)

private theorem succeedsIff_join (j : Join) :
    (writeJoin scope j).SucceedsIff (∀ e ∈ j.on, j.keyword = "CROSS" ∨ e.body.Writable) := by
  unfold writeJoin
  rcases j.on with _ | on
  · simpa using succeedsIff_pure _
  · by_cases hcross : j.keyword = "CROSS"
    · simpa [hcross] using succeedsIff_pure _
    · simpa [hcross] using (succeedsIff_render scope on).map _

private theorem succeedsIff_from (hm : c.misfits = {}) (inner : Option (Traced Statement)) :
    (c.writeFromInPlace t (inner.map inlining) scope).SucceedsIff
      ((∀ s ∈ inner, ∃ r, s.result = .ok r) ∧
        (∀ j ∈ c.joins, ∀ e ∈ j.on, j.keyword = "CROSS" ∨ e.body.Writable) ∧
        ∀ a ∈ c.arrayJoins, a.item.Writable) := by
  have hsource : (c.writeSource t (inner.map inlining)).SucceedsIff
      (∀ s ∈ inner, ∃ r, s.result = .ok r) := by
    rcases inner with _ | s
    · simpa [writeSource] using succeedsIff_pure _
    · simpa [writeSource] using
        (succeedsIff_inlining s).map fun sql ↦ "(" ++ sql ++ ") AS `" ++ t.name ++ "`"
  have hjoins : (c.writeJoins scope).SucceedsIff
      (∀ j ∈ c.joins, ∀ e ∈ j.on, j.keyword = "CROSS" ∨ e.body.Writable) := by
    unfold writeJoins
    rw [hm]
    exact (succeedsIff_mapM fun j _ ↦ succeedsIff_join j).map String.join
  have harrays : (c.writeArrayJoins scope).SucceedsIff (∀ a ∈ c.arrayJoins, a.item.Writable) := by
    unfold writeArrayJoins
    rw [hm]
    refine (succeedsIff_mapM fun a _ ↦ ?_).map _
    exact (succeedsIff_renderOperand scope a.item).map _
  unfold writeFromInPlace
  rw [hm]
  exact hsource.bind fun source ↦ hjoins.bind fun joins ↦ harrays.map (source ++ joins ++ ·)

private theorem succeedsIff_condition (keyword : String) (o : Option Operand) :
    (writeCondition keyword scope o).SucceedsIff (∀ p ∈ o, p.WritableCondition) := by
  rcases o with _ | o
  · simpa [writeCondition] using succeedsIff_pure ""
  · simp only [Option.mem_def, Option.some.injEq, forall_eq']
    cases o with
    | expression e =>
      have hcondition : (Operand.expression e).WritableCondition ↔ e.body.Writable := by
        simp [Operand.WritableCondition]
      rw [hcondition]
      exact ((succeedsIff_render scope e).map (keyword ++ " " ++ ·)).checked rfl
    | _ =>
      refine fun b ↦ iff_of_false ?_ ?_
      · rintro ⟨sql, b', h⟩
        obtain ⟨e, he, -⟩ := done_check_bind.mp h
        cases he
      · rintro ⟨e, he, -⟩
        cases he

private theorem succeedsIff_groupBy (hm : c.misfits = {}) :
    (c.writeGroupBy scope).SucceedsIff (∀ o ∈ c.groupBy, o.Writable) := by
  unfold writeGroupBy
  rw [hm]
  by_cases hg : c.groupBy.isEmpty = true
  · have hnone : c.groupBy = [] := List.isEmpty_iff.mp hg
    simpa [hnone] using succeedsIff_pure ""
  · simp only [hg]
    exact (succeedsIff_mapM fun o _ ↦ succeedsIff_renderOperand scope o).map _

private theorem succeedsIff_orderBy (hm : c.misfits = {}) :
    (c.writeOrderBy scope).SucceedsIff (∀ o ∈ c.orderBy, o.item.Writable) := by
  unfold writeOrderBy
  rw [hm]
  refine SucceedsIff.checked ?_ rfl
  by_cases ho : c.orderBy.isEmpty = true
  · have hnone : c.orderBy = [] := List.isEmpty_iff.mp ho
    simpa [hnone] using succeedsIff_pure ""
  · simp only [ho]
    refine (succeedsIff_mapM fun o _ ↦ ?_).map _
    exact (succeedsIff_renderOperand scope o.item).map (directed · o.direction)

/-- The statement is written when its subqueries are and each clause can be written. -/
private theorem succeedsIff_writeWith {x y : Writing String} {P Q : Prop} (hm : c.misfits = {})
    (hp : c.pending = none) (hx : x.SucceedsIff P)
    (hy : y.SucceedsIff Q) : (c.writeWith t x y).SucceedsIff (P ∧
      (∀ e ∈ c.selection, ∃ o, (t.resolveSelected e.1 e.2).result = .ok o ∧ o.Writable) ∧ Q ∧
      (∀ o ∈ c.prewhere, o.WritableCondition) ∧ (∀ o ∈ c.condition, o.WritableCondition) ∧
      (∀ o ∈ c.groupBy, o.Writable) ∧ (∀ o ∈ c.having, o.WritableCondition) ∧
      ∀ o ∈ c.orderBy, o.item.Writable) := by
  unfold writeWith
  refine SucceedsIff.checked (SucceedsIff.checked ?_ (a := ()) (by rw [hm]; rfl))
    (by rw [checkSuggestions, hm])
  refine hx.bind fun withText ↦ (succeedsIff_selection hm hp).bind fun selected ↦
    hy.bind fun fromText ↦ (succeedsIff_condition _ _).bind fun prewhere ↦
    (succeedsIff_condition _ _).bind fun condition ↦ (succeedsIff_groupBy hm).bind fun groups ↦
    (succeedsIff_condition _ _).bind fun having' ↦ ?_
  refine (succeedsIff_orderBy hm).bind_total fun order ↦ ?_
  refine SucceedsIff.checked ?_ (by rw [writeSample, hm])
  refine SucceedsIff.checked ?_ (by rw [writeWindows, hm])
  refine SucceedsIff.checked ?_ (by rw [writeSettings, hm])
  refine SucceedsIff.checked ?_ (by rw [writeSuggestions, hm])
  exact succeedsIff_get.map _

end Clauses

/-- A query that was never overridden and whose selection does not wait compiles exactly when the
queries in front of it and the one that it reads do, and its clauses can be written. -/
theorem Query.exists_compile_iff {c : Clauses} {ctes : List (String × Query)} {t : Table}
    {inner : Option Query} (hm : c.misfits = {}) (hp : c.pending = none) :
    (∃ s, (Query.mk c ctes (some (t, inner))).compile.result = .ok s) ↔
      (∀ e ∈ ctes, ∃ s, e.2.compile.result = .ok s) ∧
        (∀ q ∈ inner, ∃ s, q.compile.result = .ok s) ∧ c.Writable t := by
  have hctes : (Clauses.writeCtesInPlace (ctes.map fun e ↦
      (e.1, Writing.inlining e.2.compile))).SucceedsIff
        (∀ e ∈ ctes, ∃ s, e.2.compile.result = .ok s) := by
    unfold Clauses.writeCtesInPlace
    rw [List.mapM_map]
    refine (Writing.succeedsIff_mapM fun e _ ↦ ?_).map _
    exact (Writing.succeedsIff_inlining _).map fun sql ↦ e.1 ++ " AS (" ++ sql ++ ")"
  have hfrom := @Clauses.succeedsIff_from c t { columns := t.keys } hm (inner.map compile)
  have h := Clauses.succeedsIff_writeWith (t := t) hm hp hctes hfrom {}
  rw [compile_eq, Clauses.write_eq, List.map_map, exists_congr fun _ ↦ Writing.result_run']
  refine Iff.trans h ⟨?_, ?_⟩
  · rintro ⟨hctes, hselection, ⟨hinner, hjoins, harrays⟩, hprewhere, hcondition, hgroup, hhaving,
      horder⟩
    exact ⟨hctes, by simpa using hinner, hselection, hjoins, harrays, hprewhere, hcondition, hgroup,
      hhaving, horder⟩
  · rintro ⟨hctes, hinner, hw⟩
    exact ⟨hctes, hw.selection, ⟨by simpa using hinner, hw.joins, hw.arrayJoins⟩, hw.prewhere,
      hw.condition, hw.groupBy, hw.having, hw.orderBy⟩

end Columnar
