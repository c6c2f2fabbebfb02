import Columnar.Proofs.Placeholders.Contents
import Columnar.Proofs.Placeholders.InPlace
import Columnar.Proofs.Lockstep
import Columnar.Proofs.Undefined.Values

/-!
# Queries with their missing values supplied

`Query.supplied` is a query with another value in place of every literal that is undefined. What is
written for a query binds its literals one after another, and is what is written for the supplied
query as long as no literal is undefined; at the first one that is, writing fails. `Writing.Binds`
says so of two writings, with one lemma for each way to compose writings and one for each clause;
`Query.binds` says it of statements.
-/

namespace Columnar

/-- The value, or another one in place of a value that was never supplied. -/
def Value.orElse (w : Value) : Value → Value
  | undefined => w
  | v => v

theorem Value.orElse_of_ne {v : Value} (hv : v ≠ .undefined) (w : Value) : w.orElse v = v := by
  cases v <;> first | rfl | exact absurd rfl hv

/-- The body with a value in place of every literal that is undefined. -/
def Body.supplied (w : Value) : Body → Body
  | missing => missing
  | done text => done text
  | column text c rest => column text c (rest.supplied w)
  | nested text label inner rest => nested text label (inner.supplied w) (rest.supplied w)
  | literal text v rest => literal text (w.orElse v) (rest.supplied w)
  | raw text insert rest => raw text insert (rest.supplied w)

/-- The expression with a value in place of every literal that is undefined. -/
def Expr.supplied (w : Value) (e : Expr) : Expr := { e with body := e.body.supplied w }

/-- The operand with a value in place of every literal in it that is undefined. -/
def Operand.supplied (w : Value) : Operand → Operand
  | expression e => expression (e.supplied w)
  | o => o

/-- The clauses with a value in place of every literal that is undefined. -/
def Clauses.supplied (w : Value) (c : Clauses) : Clauses :=
  { c with
    selection := c.selection.map fun e ↦ (e.1, e.2.supplied w)
    joins := c.joins.map fun j ↦ { j with on := j.on.map (Expr.supplied w) }
    arrayJoins := c.arrayJoins.map fun a ↦ { a with item := a.item.supplied w }
    prewhere := c.prewhere.map (Operand.supplied w)
    condition := c.condition.map (Operand.supplied w)
    groupBy := c.groupBy.map (Operand.supplied w)
    having := c.having.map (Operand.supplied w)
    orderBy := c.orderBy.map fun o ↦ { o with item := o.item.supplied w } }

mutual

/-- The query with a value in place of every literal that is undefined, at any depth. -/
def Query.supplied (w : Value) : Query → Query
  | .mk c ctes source => .mk (c.supplied w) (suppliedCtes w ctes) (suppliedSource w source)

/-- Named subqueries with a value in place of every literal that is undefined. -/
def suppliedCtes (w : Value) : List (String × Query) → List (String × Query)
  | [] => []
  | (name, q) :: rest => (name, q.supplied w) :: suppliedCtes w rest

/-- A source with a value in place of every literal that is undefined. -/
def suppliedSource (w : Value) : Option (Table × Option Query) → Option (Table × Option Query)
  | none => none
  | some (t, none) => some (t, none)
  | some (t, some q) => some (t, some (q.supplied w))

end

theorem suppliedCtes_eq (w : Value) (ctes : List (String × Query)) :
    suppliedCtes w ctes = ctes.map fun e ↦ (e.1, e.2.supplied w) := by
  induction ctes with
  | nil => rfl
  | cons e ctes ih =>
    rw [suppliedCtes, ih]
    rfl

/-- A failure for a literal that was never supplied. -/
def Failure.IsUndefinedLiteral (e : Failure) : Prop :=
  ∃ position columns before, e = .undefinedLiteral position columns before

/-- The first result is the second one, unless it is a failure for a literal that was never
supplied. -/
def LikeSupplied {α : Type} (r r' : Except Failure α) : Prop :=
  r = r' ∨ ∃ e : Failure, r = .error e ∧ e.IsUndefinedLiteral

namespace LikeSupplied

variable {α β : Type} {r r' : Except Failure α}

/-- What goes on alike from the answers is alike. -/
theorem bind {f g : α → Except Failure β} (h : LikeSupplied r r')
    (hf : ∀ a, r = .ok a → LikeSupplied (f a) (g a)) : LikeSupplied (r.bind f) (r'.bind g) := by
  rcases h with rfl | ⟨e, rfl, hundefined⟩
  · rcases r with e | a
    · exact .inl rfl
    · exact hf a rfl
  · exact .inr ⟨e, rfl, hundefined⟩

/-- What is made of the answers is alike. -/
theorem map (h : LikeSupplied r r') (f : α → β) : LikeSupplied (r.map f) (r'.map f) := by
  rcases h with rfl | ⟨e, rfl, hundefined⟩
  · exact .inl rfl
  · exact .inr ⟨e, rfl, hundefined⟩

end LikeSupplied

/-! ### Writing -/

namespace Writing

variable {α β ι : Type} {x y : Writing α} {ls ms : List (Value × String)}

/-- Rendering one after the other is writing one after the other. -/
theorem rendering_bind (r : Render α) (f : α → Render β) :
    rendering (r >>= f) = rendering r >>= fun a ↦ rendering (f a) := by
  funext b
  have hrun := Render.outcome_bind r f b
  unfold Render.outcome at hrun
  change rendering (r >>= f) b = rendering r b >>= fun p ↦ rendering (f p.1) p.2
  unfold rendering
  rw [hrun]
  rcases (r.run b : Except Failure α × Bindings) with ⟨e | a, b₁⟩ <;> rfl

/-- The first writing binds the literals one after another, and does what the second does unless
one of them is undefined. -/
structure Binds (x y : Writing α) (ls : List (Value × String)) : Prop where
  bound : ∀ ⦃b b' : Bindings⦄ ⦃a : α⦄, x.Done b a b' →
    ∃ vs, List.Forall₂ (fun l p ↦ l.1.SentAs p) ls vs ∧ b' = b.extend vs
  like : ∀ b, LikeSupplied (x b).result (y b).result

/-- What binds no literal is written alike. -/
theorem binds_self (hx : ∀ ⦃b b' : Bindings⦄ ⦃a : α⦄, x.Done b a b' → b' = b) : Binds x x [] where
  bound _ _ _ h := ⟨[], .nil, by rw [hx h, Bindings.extend_nil]⟩
  like _ := .inl rfl

theorem binds_pure (a : α) : Binds (pure a) (pure a) [] :=
  binds_self fun _ _ _ h ↦ (done_pure.mp h).2

theorem binds_get : Binds (get : Writing Bindings) get [] :=
  binds_self fun _ _ _ h ↦ (done_get.mp h).2

/-- A failure binds whatever literals there are. -/
theorem binds_throw (e : Failure) (ls : List (Value × String)) :
    Binds (throw e : Writing α) (throw e) ls where
  bound _ _ _ h := absurd h not_done_throw
  like _ := .inl rfl

/-- A sequence binds the literals of both of its parts. -/
theorem Binds.bind {f g : α → Writing β} (hx : Binds x y ls) (hf : ∀ a, Binds (f a) (g a) ms) :
    Binds (x >>= f) (y >>= g) (ls ++ ms) where
  bound b b' r h := by
    obtain ⟨a, b₁, ha, hr⟩ := done_bind.mp h
    obtain ⟨vs, hvs, rfl⟩ := hx.bound ha
    obtain ⟨ws, hws, rfl⟩ := (hf a).bound hr
    exact ⟨vs ++ ws, List.rel_append hvs hws, Bindings.extend_extend b vs ws⟩
  like b := by
    have hresult (x : Writing α) (f : α → Writing β) :
        ((x >>= f) b).result = (x b).result.bind fun p ↦ (f p.1 p.2).result :=
      Traced.result_bind (x b) fun p ↦ f p.1 p.2
    rw [hresult x f, hresult y g]
    exact (hx.like b).bind fun p _ ↦ (hf p.1).like p.2

/-- Behind what binds no literals the same are bound. -/
theorem Binds.bind_total {f g : α → Writing β} (hx : Binds x y ls)
    (hf : ∀ a, Binds (f a) (g a) []) : Binds (x >>= f) (y >>= g) ls := by
  have h := hx.bind hf
  rwa [List.append_nil] at h

/-- What is made of an answer binds what the answer does. -/
theorem Binds.map (hx : Binds x y ls) (f : α → β) :
    Binds (do return f (← x)) (do return f (← y)) ls :=
  hx.bind_total fun a ↦ binds_pure (f a)

/-- A check in front binds nothing. -/
theorem Binds.check {σ : Type} {e : Except Failure σ} {f g : σ → Writing α}
    (h : ∀ s, e = .ok s → Binds (f s) (g s) ls) : Binds (liftM e >>= f) (liftM e >>= g) ls := by
  rcases e with e | s
  · exact binds_throw e ls
  · exact h s rfl

/-- A look-up in front binds nothing. -/
theorem Binds.look {σ : Type} {e e' : Traced σ} {k : σ → σ} {f g : σ → Writing α}
    (he : e'.result = e.result.map k) (h : ∀ s, e.result = .ok s → Binds (f s) (g (k s)) ls) :
    Binds (liftM e >>= f) (liftM e' >>= g) ls where
  bound b b' a hx := by
    obtain ⟨s, hs, hf⟩ := done_traced_bind.mp hx
    exact (h s hs).bound hf
  like b := by
    have hresult (e : Traced σ) (f : σ → Writing α) :
        ((liftM e >>= f) b).result = e.result.bind fun s ↦ (f s b).result := by
      rcases e with ⟨log, e | s⟩ <;> rfl
    rw [hresult, hresult, he]
    rcases hs : e.result with e | s
    · exact .inl rfl
    · exact (h s hs).like b

/-- Items that are written one by one bind their literals in a row. -/
theorem binds_mapM {f g : ι → Writing α} {items : List ι} {literals : ι → List (Value × String)}
    (h : ∀ i ∈ items, Binds (f i) (g i) (literals i)) :
    Binds (items.mapM f) (items.mapM g) (items.flatMap literals) := by
  induction items with
  | nil => exact binds_pure []
  | cons i items ih =>
    obtain ⟨hi, his⟩ := List.forall_mem_cons.mp h
    rw [List.mapM_cons, List.mapM_cons, List.flatMap_cons]
    exact hi.bind fun a ↦ (ih his).map (a :: ·)

end Writing

/-! ### Expressions -/

open Writing (Binds)

/-- A literal that is not undefined is bound where it stands. -/
private theorem binds_literal {v : Value} (hv : v ≠ .undefined) (type : String) :
    Binds (Writing.rendering (bindLiteral v type)) (Writing.rendering (bindLiteral v type))
      [(v, type)] where
  bound b b' place h := by
    obtain ⟨serial, hserial, -, rfl⟩ := Render.done_bindLiteral.mp (Writing.done_rendering.mp h)
    exact ⟨[serial], .cons (Value.sentAs_of_serialize hv hserial) .nil, rfl⟩
  like b := .inl rfl

/-- Writing fails at a literal that is undefined. -/
theorem Body.binds_undefined (scope : Scope) (soFar : String) (position : Nat)
    (last : Option Column) (text : String) (rest : Body) (y : Writing String)
    (ls : List (Value × String)) :
    Binds (Writing.rendering ((literal text .undefined rest).render scope soFar position last)) y
      ls where
  bound _ _ _ h := absurd (Writing.done_rendering.mp h) not_done_undefined
  like _ := .inr ⟨_, rfl, _, _, _, rfl⟩

/-- A body binds its literals, wherever it stands. -/
theorem Body.binds_render (w : Value) (scope : Scope) (body : Body) (soFar : String)
    (position : Nat) (last : Option Column) :
    Binds (Writing.rendering (body.render scope soFar position last))
      (Writing.rendering ((body.supplied w).render scope soFar position last))
      (body.literals last) := by
  induction body generalizing soFar position last with
  | missing => exact Writing.binds_throw _ _
  | done text => exact Writing.binds_pure _
  | column text c rest ih => exact ih _ _ _
  | raw text insert rest ih => exact ih _ _ _
  | nested text label inner rest ihInner ih =>
    simp only [supplied, render, Writing.rendering_bind, literals]
    exact (ihInner _ _ _).bind fun sql ↦ ih _ _ _
  | literal text v rest ih =>
    by_cases hv : v = .undefined
    · subst hv
      exact binds_undefined _ _ _ _ _ _ _ _
    · rw [supplied, Value.orElse_of_ne hv, render_literal hv, render_literal hv,
        Writing.rendering_bind, Writing.rendering_bind]
      exact (binds_literal hv _).bind fun place ↦ ih _ _ _

theorem Expr.binds_render (w : Value) (scope : Scope) (e : Expr) :
    Binds (Writing.rendering (e.render scope)) (Writing.rendering ((e.supplied w).render scope))
      e.literals := e.body.binds_render w scope "" 0 none

private theorem binds_item (w : Value) (scope : Scope) (o : Operand) :
    Binds (Writing.rendering (o.render scope)) (Writing.rendering ((o.supplied w).render scope))
      o.literals := by
  cases o with
  | column c => exact Writing.binds_pure _
  | expression e => exact Expr.binds_render w scope e
  | _ => exact Writing.binds_throw _ _

/-! ### Clauses -/

namespace Clauses

open Writing (binds_pure binds_throw binds_mapM)

variable {ι : Type} (w : Value) (c : Clauses) (t : Table) (scope : Scope)

/-- What is selected is looked up without regard to literals. -/
private theorem resolve_supplied (aliasName : String) (item : Operand) :
    ((c.supplied w).resolve t aliasName (item.supplied w)).result =
      (c.resolve t aliasName item).result.map (Operand.supplied w) := by
  change (c.resolve t aliasName (item.supplied w)).result = _
  unfold resolve
  rcases c.misfits.table with _ | v
  · cases item with
    | column _ | expression _ => rfl
    | _ =>
      simp only [Operand.supplied, Table.resolveSelected, Traced.result_bind]
      rcases (t.resolveAlias aliasName).result with e | _ | column <;> rfl
  · cases item <;> rfl

private theorem literals_of_resolve {aliasName : String} {item r : Operand}
    (h : (c.resolve t aliasName item).result = .ok r) : r.literals = item.literals := by
  unfold resolve at h
  rcases hm : c.misfits.table with _ | v <;> rw [hm] at h
  · cases item with
    | column _ | expression _ =>
      cases h
      rfl
    | _ =>
      obtain ⟨found, -, h⟩ := Traced.result_bind_eq_ok.mp h
      rcases found with _ | column <;> cases h
      rfl
  · cases item <;> cases h <;> rfl

private theorem binds_selected (aliasName : String) (item : Operand) :
    Binds (c.writeSelected t scope aliasName item)
      ((c.supplied w).writeSelected t scope aliasName (item.supplied w)) item.literals := by
  refine Binds.look (resolve_supplied w c t aliasName item) fun r hr ↦ ?_
  rw [← literals_of_resolve c t hr]
  have hname : outputName aliasName (r.supplied w) = outputName aliasName r := by cases r <;> rfl
  have htype : outputType (r.supplied w) = outputType r := by cases r <;> rfl
  simp only [hname, htype]
  exact (binds_item w scope r).map _

private theorem binds_selectedValue (e : Value × Value) :
    Binds (c.writeSelectedValue t scope e) ((c.supplied w).writeSelectedValue t scope e) [] := by
  obtain ⟨key, v⟩ := e
  cases key with
  | text aliasName => exact binds_selected w c t scope aliasName (.value v)
  | _ =>
    have hm : (c.supplied w).misfits = c.misfits := rfl
    simp only [writeSelectedValue, hm]
    rcases c.misfits.table with _ | v <;> exact binds_throw _ _

private theorem binds_items :
    Binds (c.writeItems t scope) ((c.supplied w).writeItems t scope) c.selectedLiterals := by
  have hm : (c.supplied w).misfits = c.misfits := rfl
  unfold writeItems selectedLiterals
  rw [hm]
  rcases c.misfits.selection with _ | v
  · simp only [supplied, List.mapM_map]
    exact binds_mapM fun e _ ↦ binds_selected w c t scope e.1 e.2
  · refine Binds.check fun entries _ ↦ ?_
    have h := binds_mapM fun e (_ : e ∈ entries) ↦ binds_selectedValue w c t scope e
    rwa [List.flatMap_eq_nil_iff.mpr fun _ _ ↦ rfl] at h

/-- All columns of the source, or the items that were written. -/
private def selectedOrAll (items : List (String × String × String)) :
    Writing (String × List (String × String)) := do
  if items.isEmpty then return ("*", ← liftM (c.writeAll t))
  return (", ".intercalate (items.map Prod.fst), items.map Prod.snd)

private theorem writeSelection_items
    (hp : ¬ (c.pending.isSome || c.misfits.pending.isSome) = true) :
    c.writeSelection t scope = c.writeItems t scope >>= selectedOrAll c t := by
  unfold writeSelection writeItems
  rw [if_neg hp]
  rcases c.misfits.selection with _ | v
  · rfl
  · rw [bind_assoc]
    rfl

private theorem binds_selection :
    Binds (c.writeSelection t scope) ((c.supplied w).writeSelection t scope)
      c.selectedLiterals := by
  by_cases hp : (c.pending.isSome || c.misfits.pending.isSome) = true
  · have hp' : ((c.supplied w).pending.isSome || (c.supplied w).misfits.pending.isSome) = true := hp
    rw [writeSelection, writeSelection, if_pos hp, if_pos hp']
    exact binds_throw _ _
  · rw [writeSelection_items c t scope hp, writeSelection_items (c.supplied w) t scope hp]
    refine (binds_items w c t scope).bind_total fun items ↦ ?_
    unfold selectedOrAll
    split
    · exact Binds.check fun _ _ ↦ binds_pure _
    · exact binds_pure _

private theorem binds_join (j : Join) :
    Binds (writeJoin scope j) (writeJoin scope { j with on := j.on.map (Expr.supplied w) })
      j.literals := by
  unfold writeJoin Join.literals
  rcases j.on with _ | e
  · simp only [Option.map_none, Option.toList_none, List.flatMap_nil, ite_self]
    exact binds_pure _
  · by_cases hcross : j.keyword = "CROSS"
    · simp only [Option.map_some, if_pos hcross]
      exact binds_pure _
    · simp only [Option.map_some, if_neg hcross, Option.toList_some, List.flatMap_singleton]
      exact (Expr.binds_render w scope e).map _

private theorem binds_joins :
    Binds (c.writeJoins scope) ((c.supplied w).writeJoins scope)
      (c.joins.flatMap Join.literals) := by
  refine Binds.check fun _ _ ↦ ?_
  simp only [supplied, List.mapM_map]
  exact (binds_mapM fun j _ ↦ binds_join w scope j).map _

private theorem binds_arrayJoins :
    Binds (c.writeArrayJoins scope) ((c.supplied w).writeArrayJoins scope)
      (c.arrayJoins.flatMap (·.item.literals)) := by
  refine Binds.check fun _ _ ↦ ?_
  simp only [supplied, List.mapM_map]
  exact (binds_mapM fun a _ ↦ (binds_item w scope a.item).map _).map _

private theorem binds_condition (keyword : String) (o : Option Operand) :
    Binds (writeCondition keyword scope o)
      (writeCondition keyword scope (o.map (Operand.supplied w)))
      (o.toList.flatMap Operand.literals) := by
  rcases o with _ | o
  · exact binds_pure _
  · simp only [Option.map_some, Option.toList_some, List.flatMap_singleton]
    cases o with
    | expression e => exact (Expr.binds_render w scope e).map _
    | _ => exact binds_throw _ _

private theorem binds_groupBy :
    Binds (c.writeGroupBy scope) ((c.supplied w).writeGroupBy scope)
      (c.groupBy.flatMap Operand.literals) := by
  unfold writeGroupBy
  simp only [supplied]
  rcases c.misfits.groupBy with _ | v
  · simp only [List.isEmpty_map, List.mapM_map]
    by_cases hg : c.groupBy.isEmpty = true
    · simp only [List.isEmpty_iff.mp hg]
      exact binds_pure _
    · simp only [if_neg hg]
      exact (binds_mapM fun o _ ↦ binds_item w scope o).map _
  · exact binds_throw _ _

private theorem binds_orderBy :
    Binds (c.writeOrderBy scope) ((c.supplied w).writeOrderBy scope)
      (c.orderBy.flatMap (·.item.literals)) := by
  refine Binds.check fun _ _ ↦ ?_
  simp only [supplied, List.isEmpty_map, List.mapM_map]
  by_cases ho : c.orderBy.isEmpty = true
  · simp only [List.isEmpty_iff.mp ho]
    exact binds_pure _
  · simp only [if_neg ho]
    exact (binds_mapM fun o _ ↦ (binds_item w scope o.item).map _).map _

/-- A named subquery, a source and the clauses around them bind their literals when the subqueries
do. -/
private theorem binds_ctes {items : List ι} {name : ι → String} {x y : ι → Writing String}
    {literals : ι → List (Value × String)}
    (h : ∀ i ∈ items, Binds (x i) (y i) (literals i)) :
    Binds (writeCtesInPlace (items.map fun i ↦ (name i, x i)))
      (writeCtesInPlace (items.map fun i ↦ (name i, y i))) (items.flatMap literals) := by
  unfold writeCtesInPlace
  rw [List.mapM_map, List.mapM_map]
  exact (binds_mapM fun i hi ↦ (h i hi).map _).map _

private theorem binds_from {inner : Option ι} {x y : ι → Writing String}
    {literals : ι → List (Value × String)} (h : ∀ i ∈ inner, Binds (x i) (y i) (literals i)) :
    Binds (c.writeFromInPlace t (inner.map x) scope)
      ((c.supplied w).writeFromInPlace t (inner.map y) scope)
      (inner.toList.flatMap literals ++ c.joinedLiterals) := by
  have hsource : Binds (c.writeSource t (inner.map x))
      ((c.supplied w).writeSource t (inner.map y)) (inner.toList.flatMap literals) := by
    rcases inner with _ | i
    · exact binds_pure _
    · rw [Option.toList_some, List.flatMap_singleton]
      exact (h i rfl).map _
  have hm : (c.supplied w).misfits = c.misfits := rfl
  unfold writeFromInPlace joinedLiterals
  rw [hm]
  rcases c.misfits.table with _ | v
  · exact hsource.bind fun source ↦ (binds_joins w c scope).bind fun joins ↦
      (binds_arrayJoins w c scope).map _
  · exact binds_throw _ _

/-- A statement binds the literals of its subqueries and clauses in their order. -/
private theorem binds_writeWith {x y x' y' : Writing String} {before read : List (Value × String)}
    (hx : Binds x y before) (hx' : Binds x' y' read) :
    Binds (c.writeWith t x x') ((c.supplied w).writeWith t y y')
      (before ++ (c.selectedLiterals ++ (read ++ c.laterLiterals))) := by
  refine Binds.check fun _ _ ↦ Binds.check fun _ _ ↦ ?_
  refine hx.bind fun ctes ↦ (binds_selection w c t _).bind fun selection ↦ ?_
  refine hx'.bind fun source ↦ (binds_condition w _ _ c.prewhere).bind fun prewhere ↦ ?_
  refine (binds_condition w _ _ c.condition).bind fun condition ↦ ?_
  refine (binds_groupBy w c _).bind fun groups ↦ ?_
  refine (binds_condition w _ _ c.having).bind fun having' ↦ ?_
  refine (binds_orderBy w c _).bind_total fun order ↦ ?_
  refine Binds.check fun sample _ ↦ Binds.check fun windows _ ↦ ?_
  refine Binds.check fun settings _ ↦ Binds.check fun suggestions _ ↦ ?_
  exact Writing.binds_get.map _

end Clauses

/-! ### Queries -/

/-- The first statement binds the literals one after another, from the first number on, and is the
second one unless one of them is undefined. -/
structure Traced.Binds (s s' : Traced Statement) (ls : List (Value × String)) : Prop where
  bound : ∀ t, s.result = .ok t → ∃ vs,
    List.Forall₂ (fun l p ↦ l.1.SentAs p) ls vs ∧ t.params = Bindings.numbered 0 vs
  like : LikeSupplied s.result s'.result

/-- A subquery that is inlined binds the literals of its statement. -/
private theorem binds_inlining {s s' : Traced Statement} {ls : List (Value × String)}
    (h : s.Binds s' ls) : Writing.Binds (Writing.inlining s) (Writing.inlining s') ls where
  bound b b' sql hx := by
    obtain ⟨t, ht, hinline⟩ := Writing.done_inlining.mp hx
    obtain ⟨vs, hvs, hparams⟩ := h.bound t ht
    have hb : b' = (t.inline b).2 := by rw [hinline]
    exact ⟨vs, hvs, by rw [hb, Statement.snd_inline, hparams, Bindings.values_numbered]⟩
  like b := by
    have hresult (s : Traced Statement) :
        (Writing.inlining s b).result = s.result.map fun t ↦ t.inline b := by
      rcases s with ⟨log, e | t⟩ <;> rfl
    rw [hresult, hresult]
    exact h.like.map _

/-- The statement that clauses write binds what the writing does. -/
private theorem binds_run {c c' : Clauses} {t : Table} {x x' y y' : Writing String}
    {ls : List (Value × String)} (h : Writing.Binds (c.writeWith t x x') (c'.writeWith t y y') ls) :
    Traced.Binds ((c.writeWith t x x').run' {}) ((c'.writeWith t y y').run' {}) ls where
  bound s hs := by
    obtain ⟨b, hdone⟩ := Writing.result_run'.mp hs
    obtain ⟨vs, hvs, rfl⟩ := h.bound hdone
    obtain ⟨p, -, rfl, hb⟩ := Clauses.done_writeWith.mp hdone
    exact ⟨vs, hvs, by rw [Clauses.assemble, ← hb, Bindings.params_extend_empty]⟩
  like := by
    have hresult (x : Writing Statement) : (x.run' {}).result = (x {}).result.map Prod.fst := by
      change (x {} >>= fun p ↦ pure p.1).result = _
      rw [Traced.result_bind]
      cases (x {}).result <;> rfl
    rw [hresult, hresult]
    exact (h.like {}).map _

/-- What a query with a source compiles to binds the literals of the query. -/
private theorem binds_write (w : Value) (c : Clauses) (ctes : List (String × Query)) (t : Table)
    (inner : Option Query)
    (hctes : ∀ e ∈ ctes, e.2.compile.Binds (e.2.supplied w).compile e.2.literals)
    (hinner : ∀ q ∈ inner, q.compile.Binds (q.supplied w).compile q.literals) :
    Traced.Binds
      ((c.write (ctes.map fun e ↦ (e.1, e.2.compile)) t (inner.map Query.compile)).run' {})
      (((c.supplied w).write (ctes.map fun e ↦ (e.1, (e.2.supplied w).compile)) t
        (inner.map fun q ↦ (q.supplied w).compile)).run' {})
      (literalsOfCtes ctes ++ (c.selectedLiterals ++
        (inner.toList.flatMap Query.literals ++ c.joinedLiterals ++ c.laterLiterals))) := by
  rw [Clauses.write_eq, Clauses.write_eq, List.map_map, List.map_map, Option.map_map,
    Option.map_map, literalsOfCtes_eq]
  apply binds_run
  apply Clauses.binds_writeWith
  · exact Clauses.binds_ctes fun e he ↦ binds_inlining (hctes e he)
  · exact Clauses.binds_from w c t _ fun q hq ↦ binds_inlining (hinner q hq)

/-- The statement of a query binds the literals of the query, in their order and as their serial
forms; it is that of the query with its missing values supplied, unless a literal is undefined. -/
theorem Query.binds (w : Value) (q : Query) :
    q.compile.Binds (q.supplied w).compile q.literals := by
  induction q using Query.induction with
  | step c ctes source ihCtes ihSource =>
    have hwrite (t : Table) (inner : Option Query)
        (hinner : ∀ q ∈ inner, q.compile.Binds (q.supplied w).compile q.literals) :=
      binds_write w c ctes t inner ihCtes hinner
    rcases source with _ | ⟨t, inner⟩
    · rw [supplied, compile, compile, compileCtes_eq, compileCtes_eq, suppliedCtes_eq, List.map_map]
      have hm : (c.supplied w).misfits = c.misfits := rfl
      simp only [suppliedSource, compileSource, hm]
      rcases c.misfits.table with _ | v
      · refine ⟨fun _ h ↦ ?_, .inl rfl⟩
        cases h
      · exact hwrite default none fun q h ↦ absurd h (Option.not_mem_none q)
    · have hliterals : literalsOfSource (some (t, inner)) = inner.toList.flatMap literals := by
        cases inner <;> simp [literalsOfSource]
      have hsupplied : suppliedSource w (some (t, inner)) = some (t, inner.map (supplied w)) := by
        cases inner <;> rfl
      rw [supplied, suppliedCtes_eq, hsupplied, compile_eq, compile_eq, List.map_map,
        Option.map_map, literals, hliterals]
      refine hwrite t inner ?_
      rintro q ⟨⟩
      exact ihSource t q rfl

end Columnar
