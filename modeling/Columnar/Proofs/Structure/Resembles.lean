import Columnar.Proofs.Keys.Alike

/-!
# Queries of one structure

Queries resemble each other when they are the same but for the values of literals, at any depth, and
literals in one place have one type. Queries that resemble each other are alike
(`Query.Resembles.alike`) and give the same hints, and derived tables that are made of them are the
same (`Query.Resembles.derivedTable_eq`).
-/

namespace Columnar

private theorem imp_rel {α β : Type} {R S : α → β → Prop} (h : ∀ a b, R a b → S a b) {x : Option α}
    {y : Option β} (hxy : Option.Rel R x y) : Option.Rel S x y := by
  cases hxy with
  | some hab => exact .some (h _ _ hab)
  | none => exact .none

/-! ### Expressions -/

/-- Literals in one place, with `last` the column directly before it: the same one, or two of one
type. -/
def Value.Resembles (last : Option Column) (v v' : Value) : Prop :=
  v = v' ∨ v ≠ .undefined ∧ v' ≠ .undefined ∧ Literal.inferType v last = Literal.inferType v' last

/-- Bodies with the same texts, columns and inserts, with literals that resemble each other. -/
inductive Body.Resembles : Option Column → Body → Body → Prop
  | missing {last} : Resembles last missing missing
  | done {last} text : Resembles last (done text) (done text)
  | column {last} text c {rest rest'} : Resembles (some c) rest rest' →
    Resembles last (column text c rest) (column text c rest')
  | nested {last} text label {inner inner' rest rest'} : Resembles none inner inner' →
    Resembles none rest rest' →
    Resembles last (nested text label inner rest) (nested text label inner' rest')
  | literal {last} text {v v' rest rest'} : v.Resembles last v' → Resembles none rest rest' →
    Resembles last (literal text v rest) (literal text v' rest')
  | raw {last} text insert {rest rest'} : Resembles none rest rest' →
    Resembles last (raw text insert rest) (raw text insert rest')

theorem Lexeme.ofLiteral_eq {last : Option Column} {v v' : Value} (h : v.Resembles last v') :
    ofLiteral last v = ofLiteral last v' := by
  rcases h with rfl | ⟨hv, hv', htype⟩
  · rfl
  · rw [ofLiteral_of_ne hv, ofLiteral_of_ne hv', htype]

theorem Body.Resembles.lexemes_eq {last : Option Column} {body body' : Body}
    (h : Resembles last body body') : body.lexemes last = body'.lexemes last := by
  induction h with
  | missing => rfl
  | done text => rfl
  | column text c _ ih => rw [lexemes, lexemes, ih]
  | nested text label _ _ ihInner ih => rw [lexemes, lexemes, ihInner, ih]
  | literal text hv _ ih => rw [lexemes, lexemes, Lexeme.ofLiteral_eq hv, ih]
  | raw text insert _ ih => rw [lexemes, lexemes, ih]

/-- Expressions of one label whose bodies resemble each other. -/
structure Expr.Resembles (e e' : Expr) : Prop where
  label : e.label = e'.label
  body : e.body.Resembles none e'.body

/-- Operands that are the same but for the literals of expressions. -/
inductive Operand.Resembles : Operand → Operand → Prop
  | same o : Resembles o o
  | expression {e e'} : e.Resembles e' → Resembles (expression e) (expression e')
  | ordering {o o'} direction : Resembles o o' →
    Resembles (ordering o direction) (ordering o' direction)

namespace Operand.Resembles

variable {o o' : Operand}

theorem alike (h : o.Resembles o') : o.Alike o' := by
  cases h with
  | same o =>
    cases o with
    | column c => exact .column rfl
    | expression e => exact .expression rfl
    | _ => exact .other nofun nofun nofun nofun
  | expression he => exact .expression he.body.lexemes_eq
  | ordering direction _ => exact .other nofun nofun nofun nofun

theorem ownName_eq (h : o.Resembles o') : o.ownName = o'.ownName := by
  cases h with
  | same => rfl
  | expression he => rw [ownName, ownName, he.label]
  | ordering => rfl

theorem ownType_eq (h : o.Resembles o') : o.ownType = o'.ownType := by
  cases h with
  | same => rfl
  | expression he => rw [ownType, ownType, he.label]
  | ordering => rfl

theorem isWritten_eq (h : o.Resembles o') : o.isWritten = o'.isWritten := by
  cases h <;> rfl

/-- A derived table has the same column for both. -/
theorem selected_eq (h : o.Resembles o') : Query.selectedType o = Query.selectedType o' ∧
    Query.selectedNullable o = Query.selectedNullable o' := by
  cases h with
  | same => exact ⟨rfl, rfl⟩
  | expression he => exact ⟨by rw [Query.selectedType, Query.selectedType, he.label], rfl⟩
  | ordering => exact ⟨rfl, rfl⟩

end Operand.Resembles

/-! ### Clauses -/

/-- Items selected under one name that resemble each other. -/
structure ResembleSelected (x x' : String × Operand) : Prop where
  name : x.1 = x'.1
  item : x.2.Resembles x'.2

/-- Joins of one table under conditions that resemble each other. -/
structure Join.Resembles (j j' : Join) : Prop where
  keyword : j.keyword = j'.keyword
  table : j.table = j'.table
  on : Option.Rel Expr.Resembles j.on j'.on

/-- Arrays expanded under one name that resemble each other. -/
structure ArrayJoin.Resembles (a a' : ArrayJoin) : Prop where
  item : a.item.Resembles a'.item
  aliasName : a.aliasName = a'.aliasName

/-- Items ordered in one direction that resemble each other. -/
structure OrderItem.Resembles (o o' : OrderItem) : Prop where
  item : o.item.Resembles o'.item
  direction : o.direction = o'.direction

namespace Clauses

/-- What clauses hold beside expressions. -/
def others (c : Clauses) : Clauses :=
  { c with selection := [], joins := [], arrayJoins := [], prewhere := none, condition := none,
           groupBy := [], having := none, orderBy := [] }

/-- Clauses that are the same but for the literals of expressions. -/
structure Resembles (c c' : Clauses) : Prop where
  selection : List.Forall₂ ResembleSelected c.selection c'.selection
  joins : List.Forall₂ Join.Resembles c.joins c'.joins
  arrayJoins : List.Forall₂ ArrayJoin.Resembles c.arrayJoins c'.arrayJoins
  prewhere : Option.Rel Operand.Resembles c.prewhere c'.prewhere
  condition : Option.Rel Operand.Resembles c.condition c'.condition
  groupBy : List.Forall₂ Operand.Resembles c.groupBy c'.groupBy
  having : Option.Rel Operand.Resembles c.having c'.having
  orderBy : List.Forall₂ OrderItem.Resembles c.orderBy c'.orderBy
  others : c.others = c'.others

namespace Resembles

variable {c c' : Clauses}

/-- What depends on nothing but what clauses hold beside expressions is the same for both. -/
theorem eq_of_others {α : Type} (h : c.Resembles c') (f : Clauses → α)
    (hf : ∀ c, f c.others = f c) : f c = f c' := by
  rw [← hf c, ← hf c', h.others]

theorem misfits_eq (h : c.Resembles c') : c.misfits = c'.misfits :=
  h.eq_of_others misfits fun _ ↦ rfl

theorem alike (h : c.Resembles c') : c.Alike c' where
  distinct := h.eq_of_others distinct fun _ ↦ rfl
  selection := h.selection.imp fun _ _ hx ↦
    ⟨hx.name, hx.item.alike, hx.item.ownName_eq, hx.item.ownType_eq⟩
  joins := h.joins.imp fun _ _ hj ↦
    ⟨hj.keyword, hj.table, imp_rel (fun _ _ he ↦ he.body.lexemes_eq) hj.on⟩
  arrayJoins := h.arrayJoins.imp fun _ _ ha ↦ ⟨ha.item.alike, fun _ ↦ by rw [ha.aliasName]⟩
  prewhere := imp_rel (fun _ _ ho ↦ ho.alike) h.prewhere
  condition := imp_rel (fun _ _ ho ↦ ho.alike) h.condition
  groupBy := h.groupBy.imp fun _ _ ho ↦ ho.alike
  having := imp_rel (fun _ _ ho ↦ ho.alike) h.having
  orderBy := h.orderBy.imp fun _ _ ho ↦ ⟨ho.item.alike, ho.direction⟩
  page := h.eq_of_others limitText fun _ ↦ rfl
  sample := h.eq_of_others sampleText fun _ ↦ rfl
  windows := h.eq_of_others windowText fun _ ↦ rfl
  settings t := h.eq_of_others (settingsText · t) fun _ ↦ rfl

end Resembles

end Clauses

/-! ### Queries -/

namespace Query

/-- Queries that are the same but for the literals of expressions, also in the named subqueries in
front of them and in the derived tables they read. -/
inductive Resembles : Query → Query → Prop
  | mk {c c' ctes ctes' source source'} : c.Resembles c' →
    ctes.map Prod.fst = ctes'.map Prod.fst →
    List.Forall₂ Resembles (ctes.map Prod.snd) (ctes'.map Prod.snd) →
    source.map Prod.fst = source'.map Prod.fst →
    Option.Rel Resembles (source.bind Prod.snd) (source'.bind Prod.snd) →
    Resembles (mk c ctes source) (mk c' ctes' source')

namespace Resembles

variable {q q' : Query}

private theorem forall₂_named {ctes ctes' : List (String × Query)} {R : Query → Query → Prop}
    (hnames : ctes.map Prod.fst = ctes'.map Prod.fst)
    (h : List.Forall₂ Resembles (ctes.map Prod.snd) (ctes'.map Prod.snd))
    (hR : ∀ e ∈ ctes, ∀ q', e.2.Resembles q' → R e.2 q') :
    List.Forall₂ (fun e e' ↦ e.1 = e'.1 ∧ R e.2 e'.2) ctes ctes' := by
  induction ctes generalizing ctes' with
  | nil =>
    cases ctes' with
    | nil => exact .nil
    | cons e' ctes' => cases hnames
  | cons e ctes ih =>
    cases ctes' with
    | nil => cases hnames
    | cons e' ctes' =>
      obtain ⟨hname, hnames⟩ := List.cons.inj hnames
      obtain ⟨hq, hqs⟩ := List.forall₂_cons.mp h
      have hrest := ih hnames hqs fun x hx ↦ hR x (List.mem_cons_of_mem _ hx)
      exact .cons ⟨hname, hR e List.mem_cons_self _ hq⟩ hrest

theorem clauses (h : q.Resembles q') : q.clauses.Resembles q'.clauses := by
  cases h
  assumption

theorem table?_eq (h : q.Resembles q') : q.table? = q'.table? := by
  cases h
  assumption

/-- Queries that resemble each other are alike, since the statements of their subqueries are. -/
theorem alike (h : q.Resembles q') : q.Alike q' := by
  induction q using Query.induction generalizing q' with
  | step c ctes source ihCtes ihSource =>
    cases h with
    | @mk _ c' _ ctes' _ source' hc hnames hctes htables hinner =>
      have hsame : List.Forall₂ (fun e e' ↦ e.1 = e'.1 ∧
          AlikeStatements e.2.compile e'.2.compile) ctes ctes' := by
        apply forall₂_named (R := fun q q' ↦ AlikeStatements q.compile q'.compile) hnames hctes
        intro e he q' hq s s' hs hs'
        obtain ⟨hsql, hparams, -⟩ := same_statement (ihCtes e he hq) hs hs'
        exact ⟨hsql, hparams⟩
      refine ⟨hc.misfits_eq, hsame, hc.alike, ?_⟩
      rintro t inner t' inner' rfl rfl
      obtain rfl := Option.some.inj htables
      refine ⟨rfl, fun _ ↦ hc.eq_of_others Clauses.final fun _ ↦ rfl, ?_⟩
      change Option.Rel Resembles inner inner' at hinner
      cases hinner with
      | none => exact .none
      | some hq =>
        refine .some fun s s' hs hs' ↦ ?_
        obtain ⟨hsql, hparams, -⟩ := same_statement (ihSource _ _ rfl hq) hs hs'
        exact ⟨hsql, hparams⟩

/-- The table that a query reads under a name does not depend on the query's literals. -/
theorem derivedTable_eq (h : q.Resembles q') (name : String) :
    q.derivedTable name = q'.derivedTable name := by
  have hc := h.clauses
  have hempty := Succeeding.isEmpty_eq hc.selection
  have hcheck : q.checkDerivable = q'.checkDerivable := by
    rw [checkDerivable, checkDerivable, hc.misfits_eq, hempty]
  have hcolumns : q.derivedColumns name = q'.derivedColumns name := by
    unfold derivedColumns
    rw [hempty, h.table?_eq]
    congr 1
    refine Succeeding.map_eq hc.selection fun e e' he ↦ ?_
    rw [he.name, he.item.selected_eq.1, he.item.selected_eq.2]
  rw [derivedTable, derivedTable, hcheck, hcolumns]

end Resembles

end Query

end Columnar
