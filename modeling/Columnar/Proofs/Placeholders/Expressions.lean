import Columnar.Proofs.Lockstep
import Columnar.Proofs.Placeholders.Contents

/-!
# Expressions by their outlines

The outline of an expression holds its texts and literals, and its columns as they are written. From
whatever bindings the expression is rendered it writes this outline (`Body.rendered_outline`), as
long as its literals can be bound at all.
-/

namespace Columnar

/-- A column is written without braces. -/
theorem Column.unbraced_column {c : Column} (h : ∀ s ∈ c.texts, Text.Unbraced s) (scope : Scope) :
    Text.Unbraced (scope.column c) := by
  have hname : Text.Unbraced c.name := h _ (by simp [texts])
  have hbare : Text.Unbraced c.bare := by
    simp only [bare, Text.unbraced_append]
    exact ⟨⟨by decide, hname⟩, by decide⟩
  have hqualified : Text.Unbraced c.qualified := by
    unfold qualified
    split
    · next table htable =>
      have ht : c.table = some table := (Option.filter_eq_some_iff.mp htable).1
      simp only [Text.unbraced_append]
      exact ⟨⟨⟨by decide, h table (by simp [texts, ht])⟩, by decide⟩, hbare⟩
    · exact hbare
  unfold Scope.column
  split
  · exact hbare
  · exact hqualified

/-- From any bindings and behind any text the rendering writes the outline. -/
def Outline.Rendered (o : Outline) (x : String → Render String) : Prop :=
  ∀ soFar b, ∃ rest b', (x soFar).Done b (soFar ++ rest) b' ∧ o.Written b rest b'

namespace Outline.Rendered

variable {o o' : Outline} {x y : String → Render String}

theorem text (s : String) : Rendered [.text s] fun soFar ↦ pure (soFar ++ s) :=
  fun _ b ↦ ⟨s, b, Render.done_pure.mpr ⟨rfl, rfl⟩, written_text s b⟩

theorem after (h : o.Rendered x) (s : String) :
    Rendered (.text s :: o) fun soFar ↦ x (soFar ++ s) := by
  intro soFar b
  obtain ⟨rest, b', hx, hw⟩ := h (soFar ++ s) b
  exact ⟨s ++ rest, b', by rwa [← String.append_assoc], hw.cons s⟩

theorem nested (hy : o'.Rendered y) (h : o.Rendered x) :
    Rendered (o' ++ o) fun soFar ↦ y "" >>= fun sql ↦ x (soFar ++ sql) := by
  intro soFar b
  obtain ⟨sql, b₁, hd, hw⟩ := hy "" b
  rw [String.empty_append] at hd
  obtain ⟨rest, b₂, hx, hwx⟩ := h (soFar ++ sql) b₁
  exact ⟨sql ++ rest, b₂, Render.done_bind.mpr ⟨sql, b₁, hd, by rwa [← String.append_assoc]⟩,
    hw.append hwx⟩

theorem literal {v serial : Value} (hv : Literal.serialize v = .ok serial) (type : String)
    (h : o.Rendered x) : Rendered (.literal v type :: o) fun soFar ↦
      bindLiteral v type >>= fun place ↦ x (soFar ++ place) := by
  intro soFar b
  obtain ⟨rest, b', hx, hw⟩ := h (soFar ++ placeholder (Bindings.nameOf (b.count + 1)) type)
    (b.extend [serial])
  exact ⟨_, b', Render.done_bind.mpr ⟨_, _, Render.done_bindLiteral.mpr ⟨serial, hv, rfl, rfl⟩,
    by rwa [← String.append_assoc]⟩, (written_literal hv type b).append hw⟩

end Outline.Rendered

/-- The outline of a body, where a column may stand directly before it. -/
def Body.outline (write : Column → String) (last : Option Column) : Body → Outline
  | missing => []
  | done text => [.text text]
  | column text c rest => .text text :: .text (write c) :: rest.outline write (some c)
  | nested text _ inner rest =>
    .text text :: (inner.outline write none ++ rest.outline write none)
  | literal text v rest =>
    .text text :: .literal v (Literal.inferType v last) :: rest.outline write none
  | raw text insert rest => .text text :: .text insert :: rest.outline write none

/-- The outline of an expression. -/
def Expr.outline (write : Column → String) (e : Expr) : Outline := e.body.outline write none

namespace Body

theorem literals_outline (write : Column → String) (last : Option Column) (body : Body) :
    (body.outline write last).literals = body.literals last := by
  induction body generalizing last <;> simp [outline, Outline.literals, literals, *]

/-- The outline has no braces of its own when the texts of the body have none. -/
theorem unbraced_outline {write : Column → String} {last : Option Column} {body : Body}
    (hwrite : ∀ c : Column, (∀ s ∈ c.texts, Text.Unbraced s) → Text.Unbraced (write c))
    (hlast : ∀ c ∈ last, Text.Unbraced c.type) (ht : ∀ s ∈ body.texts, Text.Unbraced s) :
    (body.outline write last).Unbraced := by
  induction body generalizing last with
  | missing => exact Outline.unbraced_nil
  | done text => simpa [outline] using ht text (by simp [texts])
  | column text c rest ih =>
    simp only [texts, List.forall_mem_cons, List.forall_mem_append] at ht
    obtain ⟨htext, hcolumn, hrest⟩ := ht
    have htype : ∀ d ∈ some c, Text.Unbraced d.type := by
      rintro d ⟨⟩
      exact hcolumn _ (by simp [Column.texts])
    simpa [outline] using ⟨htext, hwrite c hcolumn, ih htype hrest⟩
  | nested text label inner rest ihInner ihRest =>
    simp only [texts, List.forall_mem_cons, List.forall_mem_append] at ht
    obtain ⟨htext, -, hinner, hrest⟩ := ht
    simpa [outline] using ⟨htext, ihInner (by simp) hinner, ihRest (by simp) hrest⟩
  | literal text v rest ih =>
    simp only [texts, List.forall_mem_cons] at ht
    obtain ⟨htext, hrest⟩ := ht
    simpa [outline] using ⟨htext, Literal.unbraced_inferType hlast, ih (by simp) hrest⟩
  | raw text insert rest ih =>
    simp only [texts, List.forall_mem_cons] at ht
    obtain ⟨htext, hinsert, hrest⟩ := ht
    simpa [outline] using ⟨htext, hinsert, ih (by simp) hrest⟩

/-- A body that is rendered somewhere is rendered anywhere, as its outline. -/
theorem rendered_outline {scope : Scope} {body : Body} {soFar : String} {position : Nat}
    {last : Option Column} {b b' : Bindings} {sql : String}
    (h : (body.render scope soFar position last).Done b sql b') :
    (body.outline scope.column last).Rendered fun soFar ↦
      body.render scope soFar position last := by
  induction body generalizing soFar position last b b' sql with
  | missing => exact absurd h Render.not_done_throw
  | done text => exact .text text
  | column text c rest ih => exact ((ih h).after _).after _
  | nested text label inner rest ihInner ihRest =>
    obtain ⟨sql, b₁, hi, h⟩ := Render.done_bind.mp h
    exact ((ihInner hi).nested (ihRest h)).after text
  | literal text v rest ih =>
    by_cases hv : v = .undefined
    · subst hv
      exact absurd h not_done_undefined
    · simp only [render_literal hv] at h ⊢
      obtain ⟨place, b₁, hp, h⟩ := Render.done_bind.mp h
      obtain ⟨serial, hserial, -, -⟩ := Render.done_bindLiteral.mp hp
      exact ((ih h).literal hserial _).after text
  | raw text insert rest ih => exact ((ih h).after insert).after text

end Body

namespace Expr

variable {scope : Scope} {e : Expr} {b b' : Bindings} {sql : String}
  (h : (e.render scope).Done b sql b')

include h

/-- An expression that is rendered from some bindings is rendered from any, as its outline. -/
theorem rendered_outline (c : Bindings) :
    ∃ r c', (e.render scope).Done c r c' ∧ (e.outline scope.column).Written c r c' := by
  obtain ⟨r, c', hd, hw⟩ := Body.rendered_outline h "" c
  rw [String.empty_append] at hd
  exact ⟨r, c', hd, hw⟩

/-- What an expression writes and binds is its outline. -/
theorem written_outline : (e.outline scope.column).Written b sql b' := by
  obtain ⟨r, c, hd, hw⟩ := rendered_outline h b
  obtain ⟨hr, rfl⟩ := Prod.mk.inj (hd.symm.trans h)
  rwa [← Except.ok.inj hr]

end Expr

end Columnar
