import Columnar.Proofs.Placeholders.Outline

/-!
# Texts and literals of queries

What a query brings into its statement: the texts that were given for any part of it, at any depth
of subqueries, and its literals with their types, in the order in which the parts of a statement
stand. A query is `Unbraced` when none of its texts has an opening brace.
-/

namespace Columnar

/-! ### Expressions -/

/-- The texts of a column. -/
def Column.texts (c : Column) : List String :=
  c.name :: c.type :: (c.table.toList ++ c.aliasName.toList)

/-- The texts of a declared output name and type. -/
def Label.texts (l : Label) : List String := l.aliasName.toList ++ l.type.toList

/-- The texts of a body, those of its columns included. -/
def Body.texts : Body → List String
  | missing => []
  | done text => [text]
  | column text c rest => text :: (c.texts ++ rest.texts)
  | nested text label inner rest => text :: (label.texts ++ (inner.texts ++ rest.texts))
  | literal text _ rest => text :: rest.texts
  | raw text insert rest => text :: insert :: rest.texts

/-- The literals of a body with the types they get, where a column may stand directly before it. -/
def Body.literals (last : Option Column) : Body → List (Value × String)
  | missing | done _ => []
  | column _ c rest => rest.literals (some c)
  | nested _ _ inner rest => inner.literals none ++ rest.literals none
  | literal _ v rest => (v, Literal.inferType v last) :: rest.literals none
  | raw _ _ rest => rest.literals none

/-- The texts of an operand; a plain value has none. -/
def Operand.texts : Operand → List String
  | value _ => []
  | column c => c.texts
  | expression e => e.label.texts ++ e.body.texts
  | raw text => [text]
  | ordering item _ => item.texts

/-- The literals of an expression. -/
def Expr.literals (e : Expr) : List (Value × String) := e.body.literals none

/-- The literals of an operand where it stands in a clause. -/
def Operand.literals : Operand → List (Value × String)
  | expression e => e.literals
  | _ => []

/-! ### Clauses -/

/-- The texts of a table. -/
def Table.texts (t : Table) : List String := t.name :: t.columns.flatMap fun e ↦ e.1 :: e.2.texts

/-- The texts of a join. -/
def Join.texts (j : Join) : List String :=
  j.keyword :: j.table :: j.on.toList.flatMap fun e ↦ (Operand.expression e).texts

/-- The literals of a join; what is given for a cross join is not written. -/
def Join.literals (j : Join) : List (Value × String) :=
  if j.keyword = "CROSS" then [] else j.on.toList.flatMap Expr.literals

/-- The texts of an expanded array. -/
def ArrayJoin.texts (a : ArrayJoin) : List String := a.item.texts ++ a.aliasName.toList

namespace Clauses

/-- The texts of what is selected, or the names for which columns are selected instead. -/
def selectedTexts (c : Clauses) : List String :=
  match c.misfits.selection with
  | none => c.selection.flatMap fun e ↦ e.1 :: e.2.texts
  | some (.map entries) => entries.filterMap fun
    | (.text s, _) => some s
    | _ => none
  | some _ => []

/-- The literals of what is selected. -/
def selectedLiterals (c : Clauses) : List (Value × String) :=
  match c.misfits.selection with
  | none => c.selection.flatMap fun e ↦ e.2.literals
  | some _ => []

/-- The texts of the clauses that end a statement, as they are written. -/
def tailTexts (c : Clauses) (t : Table) : List String :=
  c.limitText :: (c.writeSample.toOption.toList ++
    (c.writeWindows.toOption.toList ++ (c.writeSettings t).toOption.toList))

/-- The texts of the clauses of a query that reads a table. -/
def texts (c : Clauses) (t : Table) : List String :=
  c.selectedTexts ++ (c.joins.flatMap Join.texts ++ (c.arrayJoins.flatMap ArrayJoin.texts ++
    (c.prewhere.toList.flatMap Operand.texts ++ (c.condition.toList.flatMap Operand.texts ++
    (c.groupBy.flatMap Operand.texts ++ (c.having.toList.flatMap Operand.texts ++
    (c.orderBy.flatMap (·.item.texts) ++ c.tailTexts t)))))))

/-- The literals of the joins and the expanded arrays. -/
def joinedLiterals (c : Clauses) : List (Value × String) :=
  c.joins.flatMap Join.literals ++ c.arrayJoins.flatMap (·.item.literals)

/-- The literals of the clauses behind them. -/
def laterLiterals (c : Clauses) : List (Value × String) :=
  c.prewhere.toList.flatMap Operand.literals ++ (c.condition.toList.flatMap Operand.literals ++
    (c.groupBy.flatMap Operand.literals ++ (c.having.toList.flatMap Operand.literals ++
    c.orderBy.flatMap (·.item.literals))))

end Clauses

/-! ### Queries -/

mutual

/-- All texts that were given for a query, at any depth. -/
def Query.texts : Query → List String
  | .mk c ctes source =>
    textsOfCtes ctes ++ (textsOfSource source ++ c.texts ((source.map Prod.fst).getD default))

/-- The texts of named subqueries, their names included. -/
def textsOfCtes : List (String × Query) → List String
  | [] => []
  | (name, q) :: rest => name :: (q.texts ++ textsOfCtes rest)

/-- The texts of a source. -/
def textsOfSource : Option (Table × Option Query) → List String
  | none => []
  | some (t, none) => t.texts
  | some (t, some q) => t.texts ++ q.texts

end

mutual

/-- The literals of a query with their types, in the order in which they stand in its statement:
those of the named subqueries, of the selection, of the source and of the clauses behind it. -/
def Query.literals : Query → List (Value × String)
  | .mk c ctes source =>
    literalsOfCtes ctes ++ (c.selectedLiterals ++
      (literalsOfSource source ++ c.joinedLiterals ++ c.laterLiterals))

/-- The literals of named subqueries. -/
def literalsOfCtes : List (String × Query) → List (Value × String)
  | [] => []
  | (_, q) :: rest => q.literals ++ literalsOfCtes rest

/-- The literals of a source. -/
def literalsOfSource : Option (Table × Option Query) → List (Value × String)
  | none | some (_, none) => []
  | some (_, some q) => q.literals

end

/-- No text given for the query, at any depth, has an opening brace. -/
def Query.Unbraced (q : Query) : Prop := ∀ s ∈ q.texts, Text.Unbraced s

instance (q : Query) : Decidable q.Unbraced := inferInstanceAs (Decidable (∀ s ∈ q.texts, _))

theorem textsOfCtes_eq (ctes : List (String × Query)) :
    textsOfCtes ctes = ctes.flatMap fun e ↦ e.1 :: e.2.texts := by
  induction ctes with
  | nil => rfl
  | cons e rest ih =>
    rw [textsOfCtes, ih]
    rfl

theorem literalsOfCtes_eq (ctes : List (String × Query)) :
    literalsOfCtes ctes = ctes.flatMap fun e ↦ e.2.literals := by
  induction ctes with
  | nil => rfl
  | cons e rest ih =>
    rw [literalsOfCtes, ih]
    rfl

/-! ### Types of literals -/

/-- The type of a value by itself has no opening brace. -/
theorem Literal.unbraced_plainType (v : Value) : Text.Unbraced (plainType v) := by
  fun_induction plainType v with
  | case10 x xs ih | case11 x xs ih =>
    simp only [Text.unbraced_append]
    exact ⟨⟨by decide, ih⟩, by decide⟩
  | _ => decide

/-- The type a literal gets has no opening brace when the column before it has none in its type. -/
theorem Literal.unbraced_inferType {v : Value} {last : Option Column}
    (h : ∀ c ∈ last, Text.Unbraced c.type) : Text.Unbraced (inferType v last) := by
  unfold inferType
  split
  · next type htype =>
    obtain ⟨c, hc, himposed⟩ := Option.bind_eq_some_iff.mp htype
    have htype : type = c.type := by
      unfold imposed? at himposed
      simp only [Option.ite_none_right_eq_some, Option.some.injEq] at himposed
      exact himposed.2.symm
    have hu : Text.Unbraced type := htype ▸ h c hc
    split
    · simp only [Text.unbraced_append]
      exact ⟨⟨by decide, hu⟩, by decide⟩
    · exact hu
  · exact unbraced_plainType v

end Columnar
