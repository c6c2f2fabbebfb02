import Columnar.Proofs.Keys.Lexemes
import Mathlib.Data.List.Forall2
import Mathlib.Data.Option.Defs

/-!
# Queries that are alike

Queries are alike when they have the same lexemes, names and subqueries in the same clauses: they
may differ in the values of literals. Whatever is written for one of them is then written for the
other (`Writing.Same`), clause by clause, so their statements are the same up to values
(`Query.same_statement`).
-/

namespace Columnar

/-- Bindings under the same names, with the same number taken last. -/
def Bindings.Level (b b' : Bindings) : Prop :=
  b.count = b'.count ∧ b.params.map Prod.fst = b'.params.map Prod.fst

namespace Bindings

/-- As many values are bound under the same names. -/
theorem Level.extend {b b' : Bindings} (h : b.Level b') {vs ws : List Value}
    (hlen : vs.length = ws.length) : (b.extend vs).Level (b'.extend ws) := by
  obtain ⟨hcount, hnames⟩ := h
  constructor
  · rw [Bindings.extend, Bindings.extend, hcount, hlen]
  · rw [Bindings.extend, Bindings.extend, List.map_append, List.map_append, hnames, hcount,
      names_numbered hlen]

/-- One more value is bound under the same name. -/
theorem Level.push {b b' : Bindings} (h : b.Level b') (v w : Value) :
    (b.next.push v).Level (b'.next.push w) := by
  have hone : [v].length = [w].length := rfl
  exact h.extend hone

end Bindings

/-- From bindings under the same names both write the same and bind under the same names. -/
def Writing.Same {α : Type} (x y : Writing α) : Prop :=
  ∀ ⦃b b' c c' : Bindings⦄ ⦃a a' : α⦄, b.Level c → x.Done b a b' → y.Done c a' c' →
    a = a' ∧ b'.Level c'

namespace Writing

variable {α β ι : Type}

theorem same_pure (a : α) : Same (pure a) (pure a) := by
  intro b b' c c' r r' hlevel hx hy
  obtain ⟨rfl, rfl⟩ := done_pure.mp hx
  obtain ⟨rfl, rfl⟩ := done_pure.mp hy
  exact ⟨rfl, hlevel⟩

theorem same_check (x : Except Failure α) : Same (liftM x) (liftM x) := by
  intro b b' c c' r r' hlevel hx hy
  obtain ⟨hr, rfl⟩ := done_check.mp hx
  obtain ⟨hr', rfl⟩ := done_check.mp hy
  exact ⟨Except.ok.inj (hr.symm.trans hr'), hlevel⟩

/-- Sequences of what is the same are the same. -/
theorem same_bind {x y : Writing α} {f g : α → Writing β} (h : Same x y)
    (hfg : ∀ a, Same (f a) (g a)) : Same (x >>= f) (y >>= g) := by
  intro b b' c c' r r' hlevel hx hy
  obtain ⟨a, b₁, hx, hf⟩ := done_bind.mp hx
  obtain ⟨a', c₁, hy, hg⟩ := done_bind.mp hy
  obtain ⟨rfl, hlevel⟩ := h hlevel hx hy
  exact hfg a hlevel hf hg

theorem same_map {x y : Writing α} (h : Same x y) (f : α → β) :
    Same (do return f (← x)) (do return f (← y)) :=
  same_bind h fun a ↦ same_pure (f a)

/-- Rows of what is the same are the same. -/
theorem same_mapM {κ : Type} {f : ι → Writing α} {g : κ → Writing α} {xs : List ι} {ys : List κ}
    (h : List.Forall₂ (fun x y ↦ Same (f x) (g y)) xs ys) : Same (xs.mapM f) (ys.mapM g) := by
  induction h with
  | nil => exact same_pure []
  | cons hxy _ ih =>
    rw [List.mapM_cons, List.mapM_cons]
    exact same_bind hxy fun a ↦ same_bind ih fun as ↦ same_pure (a :: as)

end Writing

/-! ### Items -/

/-- Operands are alike when they are the same column, or expressions with the same lexemes; others
are written for their name only. -/
inductive Operand.Alike : Operand → Operand → Prop
  | column {c c' : Column} : Lexeme.ofColumn c = Lexeme.ofColumn c' →
    Alike (.column c) (.column c')
  | expression {e e' : Expr} : e.lexemes = e'.lexemes → Alike (.expression e) (.expression e')
  | other {o o' : Operand} : (∀ c, o ≠ .column c) → (∀ e, o ≠ .expression e) →
    (∀ c, o' ≠ .column c) → (∀ e, o' ≠ .expression e) → Alike o o'

namespace Operand

/-- Whether an operand is written in SQL: a column or an expression. -/
def isWritten : Operand → Bool
  | column _ | expression _ => true
  | _ => false

/-- The output name declared for an operand. -/
def ownName (o : Operand) : Option String :=
  (match o with
    | .column c => c.aliasName
    | .expression e => e.label.aliasName
    | _ => none).filter (· ≠ "")

/-- The type declared for an operand. -/
def ownType (o : Operand) : Option String :=
  (match o with
    | .column c => some c.type
    | .expression e => e.label.type
    | _ => none).filter (· ≠ "")

end Operand

open Writing (Same)

theorem same_expr (scope : Scope) {e e' : Expr} (h : e.lexemes = e'.lexemes) :
    Same (Writing.rendering (e.render scope)) (Writing.rendering (e'.render scope)) := by
  intro b b' c c' r r' hlevel hx hy
  obtain ⟨rfl, vs, rfl, hvs⟩ := Body.render_of_lexemes (Writing.done_rendering.mp hx)
  obtain ⟨rfl, ws, rfl, hws⟩ := Body.render_of_lexemes (Writing.done_rendering.mp hy)
  change e.body.lexemes none = e'.body.lexemes none at h
  rw [h, hlevel.1]
  rw [h] at hvs
  exact ⟨rfl, hlevel.extend (hvs.trans hws.symm)⟩

private theorem column_eq (scope : Scope) {c c' : Column}
    (h : Lexeme.ofColumn c = Lexeme.ofColumn c') : scope.column c = scope.column c' := by
  obtain ⟨howner, hname⟩ := Lexeme.column.inj h
  rw [Scope.column, Scope.column, Column.qualified, Column.qualified, Column.bare, Column.bare,
    howner, hname]

/-- What is neither a column nor an expression is not written. -/
private theorem not_done_of_unwritten {scope : Scope} {o : Operand} (h : ¬ o.isWritten = true)
    {b b' : Bindings} {sql : String} : ¬ (o.render scope).Done b sql b' := by
  cases o with
  | column c => exact absurd rfl h
  | expression e => exact absurd rfl h
  | _ => exact Render.not_done_throw

theorem same_operand (scope : Scope) {o o' : Operand} (h : o.Alike o') :
    Same (Writing.rendering (o.render scope)) (Writing.rendering (o'.render scope)) := by
  cases h with
  | column hc =>
    intro b b' c c' r r' hlevel hx hy
    obtain ⟨rfl, rfl⟩ := Render.done_pure.mp (Writing.done_rendering.mp hx)
    obtain ⟨rfl, rfl⟩ := Render.done_pure.mp (Writing.done_rendering.mp hy)
    exact ⟨column_eq scope hc, hlevel⟩
  | expression he => exact same_expr scope he
  | other hc he hc' he' =>
    intro b b' c c' r r' hlevel hx hy
    cases o with
    | column c => exact absurd rfl (hc c)
    | expression e => exact absurd rfl (he e)
    | _ => exact absurd (Writing.done_rendering.mp hx) Render.not_done_throw

/-! ### Clauses -/

/-- Selected items are alike when they are under one name and declare one name and type. -/
structure AlikeSelected (x x' : String × Operand) : Prop where
  name : x.1 = x'.1
  item : x.2.Alike x'.2
  ownName : x.2.ownName = x'.2.ownName
  ownType : x.2.ownType = x'.2.ownType

/-- Joins are alike when they join one table under conditions with the same lexemes. -/
structure AlikeJoin (j j' : Join) : Prop where
  keyword : j.keyword = j'.keyword
  table : j.table = j'.table
  on : Option.Rel (fun e e' : Expr ↦ e.lexemes = e'.lexemes) j.on j'.on

/-- Expanded arrays are alike when they are under one name, unless they cannot be written. -/
structure AlikeArray (a a' : ArrayJoin) : Prop where
  item : a.item.Alike a'.item
  aliasName : a.item.isWritten = true → a.aliasName.filter (· ≠ "") = a'.aliasName.filter (· ≠ "")

/-- Items of an ordering are alike when they are in one direction. -/
structure AlikeOrder (o o' : OrderItem) : Prop where
  item : o.item.Alike o'.item
  direction : o.direction = o'.direction

/-- Clauses are alike, one by one, whatever the values of literals. -/
structure Clauses.Alike (c c' : Clauses) : Prop where
  distinct : c.distinct = c'.distinct
  selection : List.Forall₂ AlikeSelected c.selection c'.selection
  joins : List.Forall₂ AlikeJoin c.joins c'.joins
  arrayJoins : List.Forall₂ AlikeArray c.arrayJoins c'.arrayJoins
  prewhere : Option.Rel Operand.Alike c.prewhere c'.prewhere
  condition : Option.Rel Operand.Alike c.condition c'.condition
  groupBy : List.Forall₂ Operand.Alike c.groupBy c'.groupBy
  having : Option.Rel Operand.Alike c.having c'.having
  orderBy : List.Forall₂ AlikeOrder c.orderBy c'.orderBy
  page : c.limitText = c'.limitText
  sample : c.sampleText = c'.sampleText
  windows : c.windowText = c'.windowText
  settings : ∀ t, c.settingsText t = c'.settingsText t

section Clauses

variable {c c' : Clauses} {t : Table} {scope : Scope}

/-- Whatever is selected under a name that is neither a column nor an expression, the same column
is written for it. -/
private theorem resolved_eq (hc : c.misfits.table = none) (hc' : c'.misfits.table = none)
    {name : String} {o o' r r' : Operand} (h : o.Alike o')
    (hr : (c.resolve t name o).result = .ok r) (hr' : (c'.resolve t name o').result = .ok r') :
    r = o ∧ r' = o' ∨ ∃ column, r = .column column ∧ r' = .column column := by
  unfold Clauses.resolve at hr hr'
  rw [hc] at hr
  rw [hc'] at hr'
  cases h with
  | column _ => exact .inl ⟨(Except.ok.inj hr).symm, (Except.ok.inj hr').symm⟩
  | expression _ => exact .inl ⟨(Except.ok.inj hr).symm, (Except.ok.inj hr').symm⟩
  | other hcol hexp hcol' hexp' =>
    have hfound {x r : Operand} (hcol : ∀ c, x ≠ .column c) (hexp : ∀ e, x ≠ .expression e)
        (hr : (t.resolveSelected name x).result = .ok r) :
        ∃ column, (t.resolveAlias name).result = .ok (some column) ∧ r = .column column := by
      unfold Table.resolveSelected at hr
      cases x with
      | column c => exact absurd rfl (hcol c)
      | expression e => exact absurd rfl (hexp e)
      | _ =>
        obtain ⟨found, hfound, hr⟩ := Traced.result_bind_eq_ok.mp hr
        cases found with
        | none => cases hr
        | some column => exact ⟨column, hfound, (Except.ok.inj hr).symm⟩
    obtain ⟨column, hcolumn, rfl⟩ := hfound hcol hexp hr
    obtain ⟨column', hcolumn', rfl⟩ := hfound hcol' hexp' hr'
    rw [hcolumn] at hcolumn'
    cases hcolumn'
    exact .inr ⟨column, rfl, rfl⟩

private theorem same_selected (hc : c.misfits.table = none) (hc' : c'.misfits.table = none)
    {x x' : String × Operand} (h : AlikeSelected x x') :
    Same (c.writeSelected t scope x.1 x.2) (c'.writeSelected t scope x'.1 x'.2) := by
  obtain ⟨hname, hitem, hown, htype⟩ := h
  intro b b' d d' r r' hlevel hx hy
  obtain ⟨o, ho, hx⟩ := Writing.done_traced_bind.mp hx
  obtain ⟨o', ho', hy⟩ := Writing.done_traced_bind.mp hy
  rw [← hname] at ho' hy
  have hend {o o' : Operand} (halike : o.Alike o') (hown : o.ownName = o'.ownName)
      (htype : o.ownType = o'.ownType) :
      Same (do
        let sql ← Writing.rendering (o.render scope)
        return (sql ++ " AS `" ++ Clauses.outputName x.1 o ++ "`", Clauses.outputName x.1 o,
          Clauses.outputType o))
        (do
        let sql ← Writing.rendering (o'.render scope)
        return (sql ++ " AS `" ++ Clauses.outputName x.1 o' ++ "`", Clauses.outputName x.1 o',
          Clauses.outputType o')) := by
    have hout : Clauses.outputName x.1 o = Clauses.outputName x.1 o' :=
      congrArg (·.getD x.1) hown
    have hout' : Clauses.outputType o = Clauses.outputType o' := congrArg (·.getD "String") htype
    rw [hout, hout']
    exact Writing.same_map (same_operand scope halike) _
  rcases resolved_eq hc hc' hitem ho ho' with ⟨rfl, rfl⟩ | ⟨column, rfl, rfl⟩
  · exact hend hitem hown htype hlevel hx hy
  · exact hend (.column rfl) rfl rfl hlevel hx hy

private theorem same_selectedValue (hc : c.misfits.table = none) (hc' : c'.misfits.table = none)
    (e : Value × Value) :
    Same (c.writeSelectedValue t scope e) (c'.writeSelectedValue t scope e) := by
  unfold Clauses.writeSelectedValue
  rw [hc, hc']
  cases e.1 with
  | text name =>
    have halike : AlikeSelected (name, .value e.2) (name, .value e.2) :=
      ⟨rfl, .other nofun nofun nofun nofun, rfl, rfl⟩
    exact same_selected hc hc' halike
  | _ => exact fun _ _ _ _ _ _ _ hx ↦ absurd hx Writing.not_done_throw

private theorem same_items (hm : c.misfits = c'.misfits) (hc : c.misfits.table = none)
    (h : c.Alike c') : Same (c.writeItems t scope) (c'.writeItems t scope) := by
  have hc' : c'.misfits.table = none := hm ▸ hc
  unfold Clauses.writeItems
  rw [← hm]
  cases c.misfits.selection with
  | none => exact Writing.same_mapM (h.selection.imp fun _ _ hx ↦ same_selected hc hc' hx)
  | some v =>
    refine Writing.same_bind (Writing.same_check _) fun entries ↦ Writing.same_mapM ?_
    exact List.forall₂_same.mpr fun e _ ↦ same_selectedValue hc hc' e

private theorem same_selection (hm : c.misfits = c'.misfits) (hc : c.misfits.table = none)
    (h : c.Alike c') : Same (c.writeSelection t scope) (c'.writeSelection t scope) := by
  intro b b' d d' r r' hlevel hx hy
  rw [Clauses.writeSelection_eq (Clauses.not_pending_of_writeSelection hx) hc] at hx
  rw [Clauses.writeSelection_eq (Clauses.not_pending_of_writeSelection hy) (hm ▸ hc)] at hy
  exact Writing.same_map (same_items hm hc h) _ hlevel hx hy

private theorem same_join (scope : Scope) {j j' : Join} (h : AlikeJoin j j') :
    Same (Clauses.writeJoin scope j) (Clauses.writeJoin scope j') := by
  obtain ⟨hkeyword, htable, hon⟩ := h
  unfold Clauses.writeJoin
  rw [hkeyword, htable]
  generalize j.on = on at hon
  generalize j'.on = on' at hon
  cases hon with
  | none => exact Writing.same_pure _
  | some he =>
    by_cases hcross : j'.keyword = "CROSS"
    · simp only [if_pos hcross]
      exact Writing.same_pure _
    · simp only [if_neg hcross]
      exact Writing.same_map (same_expr scope he) _

private theorem same_arrayJoin (scope : Scope) {a a' : ArrayJoin} (h : AlikeArray a a') :
    Same (Clauses.writeArrayJoin scope a) (Clauses.writeArrayJoin scope a') := by
  unfold Clauses.writeArrayJoin
  by_cases hw : a.item.isWritten = true
  · rw [h.aliasName hw]
    exact Writing.same_map (same_operand scope h.item) _
  · intro b b' d d' r r' _ hx
    obtain ⟨sql, b₁, hx, -⟩ := Writing.done_bind.mp hx
    exact absurd (Writing.done_rendering.mp hx) (not_done_of_unwritten hw)

private theorem same_condition (keyword : String) {o o' : Option Operand}
    (h : Option.Rel Operand.Alike o o') :
    Same (Clauses.writeCondition keyword scope o) (Clauses.writeCondition keyword scope o') := by
  cases h with
  | none => exact Writing.same_pure _
  | @some o o' h =>
    intro b b' d d' r r' hlevel hx hy
    obtain ⟨e, he, hx⟩ := Writing.done_check_bind.mp hx
    obtain ⟨e', he', hy⟩ := Writing.done_check_bind.mp hy
    cases h with
    | column _ => cases he
    | expression hlexemes =>
      cases he
      cases he'
      exact Writing.same_map (same_expr scope hlexemes) _ hlevel hx hy
    | other hcol hexp _ _ =>
      cases o with
      | column c => exact absurd rfl (hcol c)
      | expression e => exact absurd rfl (hexp e)
      | _ => cases he

private theorem same_groupBy (hm : c.misfits = c'.misfits) (h : c.Alike c') :
    Same (c.writeGroupBy scope) (c'.writeGroupBy scope) := by
  have hempty := Succeeding.isEmpty_eq h.groupBy
  unfold Clauses.writeGroupBy
  rw [hm, hempty]
  cases c'.misfits.groupBy with
  | none =>
    simp only
    split
    · exact Writing.same_pure _
    · exact Writing.same_map (Writing.same_mapM (h.groupBy.imp fun _ _ ho ↦
        same_operand scope ho)) _
  | some v =>
    intro b b' d d' r r' _ hx
    obtain ⟨_, _, hthrow, -⟩ := Writing.done_bind.mp hx
    exact absurd hthrow Writing.not_done_throw

private theorem same_orderBy (hm : c.misfits = c'.misfits) (h : c.Alike c') :
    Same (c.writeOrderBy scope) (c'.writeOrderBy scope) := by
  have hempty := Succeeding.isEmpty_eq h.orderBy
  unfold Clauses.writeOrderBy
  rw [hm, hempty]
  refine Writing.same_bind (Writing.same_check _) fun _ ↦ ?_
  split
  · exact Writing.same_pure _
  · refine Writing.same_map (Writing.same_mapM (h.orderBy.imp fun o o' ho ↦ ?_)) _
    rw [ho.direction]
    exact Writing.same_map (same_operand scope ho.item) _

private theorem writeSample_eq (hm : c.misfits = c'.misfits) (h : c.Alike c') :
    c.writeSample = c'.writeSample := by
  rw [Clauses.writeSample, Clauses.writeSample, hm, h.sample]

private theorem writeWindows_eq (hm : c.misfits = c'.misfits) (h : c.Alike c') :
    c.writeWindows = c'.writeWindows := by
  rw [Clauses.writeWindows, Clauses.writeWindows, hm, h.windows]

private theorem writeSettings_eq (hm : c.misfits = c'.misfits) (h : c.Alike c') (t : Table) :
    c.writeSettings t = c'.writeSettings t := by
  unfold Clauses.writeSettings Clauses.addsProjections Clauses.setsProjections
  rw [hm, h.settings t]
  cases c'.misfits.settings <;> rfl

end Clauses

/-! ### Subqueries and sources -/

/-- Statements with the same text that bind the same names. -/
def Statement.Alike (s s' : Statement) : Prop :=
  s.sql = s'.sql ∧ s.params.map Prod.fst = s'.params.map Prod.fst

/-- Subqueries are alike when their statements are. -/
def AlikeStatements (x y : Traced Statement) : Prop :=
  ∀ s s', x.result = .ok s → y.result = .ok s' → s.Alike s'

private theorem rebind_names {ps qs : List (String × Value)} {b c : Bindings} (hlevel : b.Level c)
    (h : ps.map Prod.fst = qs.map Prod.fst) :
    (Statement.rebind ps b).1 = (Statement.rebind qs c).1 := by
  induction ps generalizing qs b c with
  | nil =>
    cases qs with
    | nil => rfl
    | cons q qs => cases h
  | cons p ps ih =>
    cases qs with
    | nil => cases h
    | cons q qs =>
      obtain ⟨hname, hnames⟩ := List.cons.inj h
      have hnext : (b.next.push p.2).Level (c.next.push q.2) := hlevel.push p.2 q.2
      change (p.1, Bindings.nameOf (b.count + 1)) :: (Statement.rebind ps (b.next.push p.2)).1 =
        (q.1, Bindings.nameOf (c.count + 1)) :: (Statement.rebind qs (c.next.push q.2)).1
      rw [ih hnext hnames, hlevel.1]
      exact congrArg (fun n ↦ (n, Bindings.nameOf (c.count + 1)) :: _) hname

private theorem same_inlining {x y : Traced Statement} (h : AlikeStatements x y) :
    Same (Writing.inlining x) (Writing.inlining y) := by
  intro b b' c c' r r' hlevel hx hy
  obtain ⟨s, hs, hx⟩ := Writing.done_inlining.mp hx
  obtain ⟨s', hs', hy⟩ := Writing.done_inlining.mp hy
  obtain ⟨hsql, hnames⟩ := h s s' hs hs'
  have htext : (s.inline b).1 = (s'.inline c).1 := by
    change Statement.rename _ s.sql = Statement.rename _ s'.sql
    rw [rebind_names hlevel hnames, hsql]
  have hlen : (s.params.map Prod.snd).length = (s'.params.map Prod.snd).length := by
    have hnumber := congrArg List.length hnames
    simpa only [List.length_map] using hnumber
  have hafter := hlevel.extend hlen
  rw [← Statement.snd_inline, ← Statement.snd_inline, hx, hy] at hafter
  rw [hx, hy] at htext
  exact ⟨htext, hafter⟩

private theorem same_ctes {ctes ctes' : List (String × Traced Statement)}
    (h : List.Forall₂ (fun e e' ↦ e.1 = e'.1 ∧ AlikeStatements e.2 e'.2) ctes ctes') :
    Same (Clauses.writeCtes ctes) (Clauses.writeCtes ctes') := by
  unfold Clauses.writeCtes
  refine Writing.same_map (Writing.same_mapM (h.imp fun e e' he ↦ ?_)) _
  rw [he.1]
  exact Writing.same_map (same_inlining he.2) _

private theorem same_from {c c' : Clauses} {t : Table} {scope : Scope}
    {inner inner' : Option (Traced Statement)} (hm : c.misfits = c'.misfits)
    (hc : c.misfits.table = none) (h : c.Alike c') (hfinal : inner.isNone → c.final = c'.final)
    (hinner : Option.Rel AlikeStatements inner inner') :
    Same (c.writeFrom t inner scope) (c'.writeFrom t inner' scope) := by
  unfold Clauses.writeFrom
  simp only [← hm, hc]
  have hrest (source : String) : Same
      (do
        liftM (Misfits.visit "type" c.misfits.joins)
        let joins ← c.joins.mapM (Clauses.writeJoin scope)
        liftM (Misfits.visitIfAny "expression" c.misfits.arrayJoins)
        let arrays ← c.arrayJoins.mapM (Clauses.writeArrayJoin scope)
        return source ++ String.join joins ++
          if arrays.isEmpty then "" else " ARRAY JOIN " ++ ", ".intercalate arrays)
      (do
        liftM (Misfits.visit "type" c.misfits.joins)
        let joins ← c'.joins.mapM (Clauses.writeJoin scope)
        liftM (Misfits.visitIfAny "expression" c.misfits.arrayJoins)
        let arrays ← c'.arrayJoins.mapM (Clauses.writeArrayJoin scope)
        return source ++ String.join joins ++
          if arrays.isEmpty then "" else " ARRAY JOIN " ++ ", ".intercalate arrays) := by
    have hjoins := Writing.same_mapM (h.joins.imp fun _ _ hj ↦ same_join scope hj)
    have harrays := Writing.same_mapM (h.arrayJoins.imp fun _ _ ha ↦ same_arrayJoin scope ha)
    exact Writing.same_bind (Writing.same_check _) fun _ ↦ Writing.same_bind hjoins fun joins ↦
      Writing.same_bind (Writing.same_check _) fun _ ↦ Writing.same_map harrays _
  cases hinner with
  | none =>
    rw [hfinal rfl]
    exact Writing.same_bind (Writing.same_pure _) hrest
  | some hs =>
    exact Writing.same_bind (same_inlining hs) fun text ↦
      Writing.same_bind (Writing.same_pure _) hrest

/-! ### Queries -/

/-- Queries are alike when they read one table or subqueries that are alike under its name, after
named subqueries that are alike, and have clauses that are alike, with the same misfits. -/
structure Query.Alike (q q' : Query) : Prop where
  misfits : q.clauses.misfits = q'.clauses.misfits
  ctes : List.Forall₂ (fun e e' ↦ e.1 = e'.1 ∧ AlikeStatements e.2.compile e'.2.compile)
    q.ctes q'.ctes
  clauses : q.clauses.Alike q'.clauses
  source : ∀ t inner t' inner', q.source = some (t, inner) → q'.source = some (t', inner') →
    t = t' ∧ (inner.isNone → q.clauses.final = q'.clauses.final) ∧
      Option.Rel (fun i i' ↦ AlikeStatements i.compile i'.compile) inner inner'

/-- Queries that are alike have the same statement, up to the values it binds and its hints. -/
theorem Query.same_statement {q q' : Query} (h : q.Alike q') {s s' : Statement}
    (hs : q.compile.result = .ok s) (hs' : q'.compile.result = .ok s') :
    s.sql = s'.sql ∧ s.params.map Prod.fst = s'.params.map Prod.fst ∧ s.columns = s'.columns := by
  obtain ⟨t, inner, p, hsource, hp, rfl⟩ := pieces_of_compile hs
  obtain ⟨t', inner', p', hsource', hp', rfl⟩ := pieces_of_compile hs'
  obtain ⟨rfl, hfinal, hinner⟩ := h.source t inner t' inner' hsource hsource'
  have hm := h.misfits
  have hc := Clauses.table_of_writeFrom hp.source
  have hclauses := h.clauses
  have hstart : Bindings.Level {} {} := ⟨rfl, rfl⟩
  have hsources : Option.Rel AlikeStatements (inner.map compile) (inner'.map compile) := by
    cases hinner with
    | none => exact .none
    | some hi => exact .some hi
  have hnone : (inner.map compile).isNone → q.clauses.final = q'.clauses.final := by
    cases inner with
    | none => exact fun _ ↦ hfinal rfl
    | some i => exact fun hi ↦ nomatch hi
  have hctes : List.Forall₂ (fun e e' ↦ e.1 = e'.1 ∧ AlikeStatements e.2 e'.2)
      (q.ctes.map fun e ↦ (e.1, e.2.compile)) (q'.ctes.map fun e ↦ (e.1, e.2.compile)) := by
    rw [List.forall₂_map_left_iff, List.forall₂_map_right_iff]
    exact h.ctes
  obtain ⟨hwith, hlevel⟩ := same_ctes hctes hstart hp.ctes hp'.ctes
  obtain ⟨hselection, hlevel⟩ := same_selection hm hc hclauses hlevel hp.selection hp'.selection
  obtain ⟨hfrom, hlevel⟩ :=
    same_from hm hc hclauses hnone hsources hlevel hp.source hp'.source
  obtain ⟨hprewhere, hlevel⟩ :=
    same_condition "PREWHERE" hclauses.prewhere hlevel hp.prewhere hp'.prewhere
  obtain ⟨hcondition, hlevel⟩ :=
    same_condition "WHERE" hclauses.condition hlevel hp.condition hp'.condition
  obtain ⟨hgroupBy, hlevel⟩ := same_groupBy hm hclauses hlevel hp.groupBy hp'.groupBy
  obtain ⟨hhaving, hlevel⟩ := same_condition "HAVING" hclauses.having hlevel hp.having hp'.having
  obtain ⟨horderBy, hlevel⟩ := same_orderBy hm hclauses hlevel hp.orderBy hp'.orderBy
  have hsample : p.sample = p'.sample := Except.ok.inj
    (hp.sample.symm.trans ((writeSample_eq hm hclauses).trans hp'.sample))
  have hwindows : p.windows = p'.windows := Except.ok.inj
    (hp.windows.symm.trans ((writeWindows_eq hm hclauses).trans hp'.windows))
  have hsettings : p.settings = p'.settings := Except.ok.inj
    (hp.settings.symm.trans ((writeSettings_eq hm hclauses t).trans hp'.settings))
  refine ⟨?_, hlevel.2, congrArg Prod.snd hselection⟩
  simp only [Clauses.assemble, hwith, hselection, hfrom, hprewhere, hcondition, hgroupBy, hhaving,
    horderBy, hsample, hwindows, hsettings, hclauses.distinct, hclauses.page]

end Columnar
