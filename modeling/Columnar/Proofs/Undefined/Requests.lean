import Columnar.Mutation.Basic
import Columnar.Proofs.Undefined.Supplied

/-!
# Undefined values in requests

A request is a query or a mutation that is made into a statement. Its parameters are the serial
forms of its literals, none of which is undefined: where one is, no statement is made
(`Request.sent_literals`). That is all that is refused. An undefined value in a list, a tuple or a
mapping is sent (`Request.not_all_defined`).
-/

namespace Columnar

open Writing (Binds)

/-! ### Mutations -/

namespace Writing

/-- An answer that is rendered is written. -/
theorem rendering_pure {α : Type} (a : α) : rendering (pure a) = pure a := rfl

/-- Rendering in a row is writing in a row. -/
theorem rendering_mapM {α ι : Type} (f : ι → Render α) (items : List ι) :
    rendering (items.mapM f) = items.mapM fun i ↦ rendering (f i) := by
  induction items with
  | nil => rfl
  | cons i items ih =>
    simp only [List.mapM_cons, rendering_bind, rendering_pure, ih]

end Writing

/-- An assigned operand with a value in place of every literal in it that is undefined; a plain
value is a literal here. -/
def Operand.assigned (w : Value) : Operand → Operand
  | value v => value (w.orElse v)
  | o => o.supplied w

namespace MutationDraft

/-- The expression that an assignment is written as. -/
def assignment (t : Table) (e : String × Operand) : Expr :=
  .eq (match t.column? e.1 with
    | some c => .column c
    | none => .value .undefined) e.2

/-- The literals of the assignments, which are written when rows are changed. -/
def assignedLiterals (d : MutationDraft) : List (Value × String) :=
  match d.kind with
  | .delete => []
  | .update => d.assignments.flatMap fun e ↦ (assignment d.table e).literals

/-- The literals of a mutation with their types, in the order in which they stand in its
statement. -/
def literals (d : MutationDraft) : List (Value × String) :=
  d.assignedLiterals ++ d.condition.toList.flatMap Operand.literals

/-- The mutation with a value in place of every literal that is undefined. -/
def supplied (w : Value) (d : MutationDraft) : MutationDraft :=
  { d with
    condition := d.condition.map (Operand.supplied w)
    assignments := d.assignments.map fun e ↦ (e.1, e.2.assigned w) }

variable (w : Value) (d : MutationDraft)

private theorem binds_assignment (scope : Scope) (t : Table) (e : String × Operand) :
    Binds (Writing.rendering (renderAssignment scope t e))
      (Writing.rendering (renderAssignment scope t (e.1, e.2.assigned w)))
      (assignment t e).literals := by
  change Binds (Writing.rendering ((assignment t e).render scope))
    (Writing.rendering ((assignment t (e.1, e.2.assigned w)).render scope)) _
  rcases hc : t.column? e.1 with _ | c
  · have hundefined : ∃ rest, (assignment t e).body = .literal "" .undefined rest := by
      rw [assignment, hc]
      exact ⟨_, rfl⟩
    obtain ⟨rest, hbody⟩ := hundefined
    rw [Expr.render, hbody]
    exact Body.binds_undefined _ _ _ _ _ _ _ _
  · have hsupplied : assignment t (e.1, e.2.assigned w) = (assignment t e).supplied w := by
      rw [assignment, assignment, hc]
      cases e.2 <;> rfl
    rw [hsupplied]
    exact Expr.binds_render w scope _

private theorem binds_condition (scope : Scope) (o : Operand) :
    Binds (Writing.rendering (renderCondition scope o))
      (Writing.rendering (renderCondition scope (o.supplied w))) o.literals := by
  cases o with
  | expression e => exact Expr.binds_render w scope e
  | _ => exact Writing.binds_throw _ _

/-- The text of a mutation binds its literals. -/
private theorem binds_render (o : Operand) :
    Binds (Writing.rendering (d.render o))
      (Writing.rendering ((d.supplied w).render (o.supplied w)))
      (d.assignedLiterals ++ o.literals) := by
  obtain ⟨kind, table, condition, assignments, statement⟩ := d
  cases kind with
  | delete =>
    simp only [render, supplied, Writing.rendering_bind, Writing.rendering_pure, pure_bind]
    exact (binds_condition w _ o).map _
  | update =>
    simp only [render, supplied, Writing.rendering_bind, Writing.rendering_pure,
      Writing.rendering_mapM, List.mapM_map, pure_bind]
    exact (Writing.binds_mapM fun e _ ↦ binds_assignment w _ table e).bind fun texts ↦
      (binds_condition w _ o).map _

/-- What cannot be sent is refused whether or not its missing values are supplied. -/
private theorem checked_supplied :
    (d.supplied w).checked = d.checked.map (Operand.supplied w) := by
  simp only [checked, supplied, List.isEmpty_map]
  split
  · rfl
  · rcases d.condition with _ | o
    · rfl
    · simp only [Option.map_some]
      split <;> rfl

theorem condition_of_checked {o : Operand} (h : d.checked = .ok o) :
    d.condition = some o := by
  unfold checked at h
  split at h
  · cases h
  · rcases hc : d.condition with _ | o' <;> rw [hc] at h
    · cases h
    · simp only at h
      split at h <;> cases h
      rfl

private theorem toSql_eq : d.toSql = d.checked.bind fun o ↦
    (Writing.rendering (d.render o) {}).result.map fun p ↦ (p.1, p.2.params) := by
  unfold toSql Writing.rendering
  rcases d.checked with e | o
  · rfl
  · simp only [bind, Except.bind]
    rcases ((d.render o).run {} : Except Failure String × Bindings) with ⟨e | sql, b⟩ <;> rfl

end MutationDraft

/-! ### Requests -/

/-- What is made into a statement with parameters and sent. -/
inductive Request where
  | query (q : Query)
  | mutation (d : MutationDraft)

namespace Request

/-- The literals, in the order in which they stand in the statement. -/
def literals : Request → List Value
  | query q => q.literals.map Prod.fst
  | mutation d => d.literals.map Prod.fst

/-- The statement and its parameters. -/
def statement : Request → Except Failure (String × Params)
  | query q => q.compile.result.map fun s ↦ (s.sql, s.params)
  | mutation d => d.toSql

/-- The request with a value in place of every literal that is undefined. -/
def supplied (w : Value) : Request → Request
  | query q => query (q.supplied w)
  | mutation d => mutation (d.supplied w)

/-- The literals of a request that has a statement are sent one by one under the first numbers. -/
theorem sentAs_of_statement {r : Request} {sql : String} {params : Params}
    (h : r.statement = .ok (sql, params)) :
    ∃ vs, List.Forall₂ Value.SentAs r.literals vs ∧ params = Bindings.numbered 0 vs := by
  cases r with
  | query q =>
    rw [statement] at h
    rcases hs : q.compile.result with e | s <;> rw [hs] at h <;> cases h
    obtain ⟨vs, hvs, hparams⟩ := (q.binds .null).bound s hs
    exact ⟨vs, List.forall₂_map_left_iff.mpr hvs, hparams⟩
  | mutation d =>
    rw [statement, MutationDraft.toSql_eq] at h
    rcases ho : d.checked with e | o <;> rw [ho] at h
    · cases h
    simp only [Except.bind] at h
    rcases hr : (Writing.rendering (d.render o) {}).result with e | ⟨text, b⟩ <;> rw [hr] at h <;>
      cases h
    obtain ⟨vs, hvs, rfl⟩ := (d.binds_render .null o).bound hr
    have hliterals : d.literals = d.assignedLiterals ++ o.literals := by
      rw [MutationDraft.literals, MutationDraft.condition_of_checked d ho, Option.toList_some,
        List.flatMap_singleton]
    refine ⟨vs, List.forall₂_map_left_iff.mpr ?_, Bindings.params_extend_empty vs⟩
    rw [hliterals]
    exact hvs

/-- The statement of a request is that of the request with its missing values supplied, unless it
fails at a literal that is undefined. -/
theorem statement_supplied (w : Value) (r : Request) :
    LikeSupplied r.statement (r.supplied w).statement := by
  cases r with
  | query q => exact (q.binds w).like.map _
  | mutation d =>
    simp only [supplied, statement, MutationDraft.toSql_eq, MutationDraft.checked_supplied]
    rcases d.checked with e | o
    · exact .inl rfl
    · exact ((d.binds_render w o).like {}).map _

/-- A statement binds the literals of its request, one parameter to each in their order, and each as
its serial form; none of them is undefined, and no parameter holds an undefined value if no literal
holds one inside. A request with a literal that is undefined has no statement: it fails for that
literal, or as it would with any value in its place. -/
theorem sent_literals (r : Request) :
    (∀ sql params, r.statement = .ok (sql, params) →
      ∃ vs, List.Forall₂ Value.SentAs r.literals vs ∧ params = Bindings.numbered 0 vs ∧
        ((∀ v ∈ r.literals, v.holdsUndefined true = true → v = .undefined) →
          ∀ v ∈ r.literals ++ vs, v.holdsUndefined true = false)) ∧
    (.undefined ∈ r.literals → ∀ w, ∃ e : Failure, r.statement = .error e ∧
      (e.IsUndefinedLiteral ∧ e.category = .compilation ∨
        (r.supplied w).statement = .error e)) := by
  constructor
  · intro sql params h
    obtain ⟨vs, hvs, hparams⟩ := sentAs_of_statement h
    refine ⟨vs, hvs, hparams, fun hinside ↦ ?_⟩
    have hliterals : ∀ v ∈ r.literals, v.holdsUndefined true = false := by
      intro v hv
      obtain ⟨p, -, hp⟩ := Succeeding.exists_of_forall₂ hvs hv
      exact Bool.eq_false_iff.mpr fun h ↦ hp.defined (hinside v hv h)
    intro v hv
    rcases List.mem_append.mp hv with hv | hp
    · exact hliterals v hv
    · obtain ⟨l, hl, hsent⟩ := Succeeding.exists_of_forall₂ hvs.flip hp
      rw [hsent.items]
      exact Bool.eq_false_iff.mpr fun h ↦
        Bool.eq_false_iff.mp (hliterals l hl) (Value.holdsUndefined_mono h)
  · intro hmem w
    have hfails : ∃ e, r.statement = .error e := by
      rcases h : r.statement with e | ⟨sql, params⟩
      · exact ⟨e, rfl⟩
      · obtain ⟨vs, hvs, -⟩ := sentAs_of_statement h
        obtain ⟨p, -, hp⟩ := Succeeding.exists_of_forall₂ hvs hmem
        exact absurd rfl hp.defined
    obtain ⟨e, he⟩ := hfails
    refine ⟨e, he, ?_⟩
    rcases statement_supplied w r with heq | ⟨e', he', hundefined⟩
    · exact .inr (heq.symm.trans he)
    · obtain rfl := Except.error.inj (he.symm.trans he')
      obtain ⟨position, columns, before, rfl⟩ := hundefined
      exact .inl ⟨⟨position, columns, before, rfl⟩, rfl⟩

private def userId : Column := { name := "id", type := "UInt64", table := some "users" }

private def users : Table :=
  { name := "users",
    columns := [("id", userId), ("email", { name := "email", type := "String" })],
    options := { appendOnly := false } }

private def correction : MutationDraft where
  kind := .update
  table := users
  condition := some (.expression (.eq (.column userId) (.value (.int 3))))
  assignments := [("email", .value (.text "a"))]

private def among (v : Value) : Query :=
  .mk { condition := some (.expression (.inArray (.column userId) (.value v))) } []
    (some (users, none))

/-- An update sends its assigned value and that of its condition; a query fails for its only
literal, which is undefined and could be supplied. -/
theorem sent_literals_correction :
    (∃ sql, (mutation correction).statement = .ok (sql, Bindings.numbered 0 [.text "a", .int 3])) ∧
    ∃ e : Failure, (query (among .undefined)).statement = .error e ∧ e.IsUndefinedLiteral ∧
      e.category = .compilation := by
  constructor
  · obtain ⟨sql, params, h⟩ : ∃ sql params, (mutation correction).statement = .ok (sql, params) :=
      ⟨_, _, rfl⟩
    obtain ⟨vs, hvs, rfl, -⟩ := (sent_literals (mutation correction)).1 sql params h
    have hserials := Succeeding.mapM_of_forall₂ (hvs.imp fun _ _ hv ↦ hv.serial)
    obtain rfl : [.text "a", .int 3] = vs := Except.ok.inj hserials
    exact ⟨sql, h⟩
  · obtain ⟨e, he, hundefined | hsupplied⟩ :=
      (sent_literals (query (among .undefined))).2 List.mem_cons_self (.int 3)
    · exact ⟨e, he, hundefined⟩
    · cases hsupplied

/-- An undefined value in a list is sent as it is, and one in a mapping as the text of its name. -/
theorem not_all_defined :
    (∃ sql, (query (among (.list [.int 1, .undefined]))).statement =
      .ok (sql, [("p_1", .list [.int 1, .undefined])])) ∧
    ∃ sql, (query (among (.map [(.text "a", .undefined)]))).statement =
      .ok (sql, [("p_1", .text "\x7b\"a\": \"UNDEFINED\"\x7d")]) :=
  ⟨⟨_, rfl⟩, ⟨_, rfl⟩⟩

end Request

end Columnar
