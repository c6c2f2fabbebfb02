import Columnar.Proofs.Pieces
import Columnar.Proofs.Succeeding

/-!
# Derived tables and the statements they stand for

A derived table has a column for each key of its query's selection; the statement has an output for
each selected item, under a name the item may bring along, or, when all columns are selected, for
each stored column. `Query.outputs_of_compile` says what the outputs are,
`Query.exists_describes_iff` when they are the columns of the derived table.
-/

namespace Columnar

/-! ### What is selected -/

/-- What stands for an item that is selected under a key: a column or an expression stands for
itself, for anything else the column that the key resolves to. -/
def Table.standIn? (t : Table) (key : String) : Operand → Option Operand
  | .column c => some (.column c)
  | .expression e => some (.expression e)
  | _ => (t.resolve? key).map fun r ↦ .column r.2

theorem Table.result_resolveAlias (t : Table) (key : String) :
    (t.resolveAlias key).result = .ok ((t.resolve? key).map Prod.snd) := by
  unfold resolveAlias
  rcases t.resolve? key with _ | ⟨strategy, c⟩ <;> rfl

/-- What a selected item resolves to is what stands for it. -/
theorem Table.standIn?_of_resolveSelected {t : Table} {key : String} {item r : Operand}
    (h : (t.resolveSelected key item).result = .ok r) : t.standIn? key item = some r := by
  unfold resolveSelected at h
  cases item with
  | column c => exact congrArg some (Except.ok.inj h)
  | expression e => exact congrArg some (Except.ok.inj h)
  | _ =>
    obtain ⟨found, hfound, h⟩ := Traced.result_bind_eq_ok.mp h
    rw [result_resolveAlias] at hfound
    unfold standIn?
    rcases hresolve : t.resolve? key with _ | ⟨strategy, c⟩ <;> rw [hresolve] at hfound
    · cases hfound
      cases h
    · cases hfound
      exact congrArg some (Except.ok.inj h)

namespace Clauses

variable {c : Clauses} {t : Table} {scope : Scope} {b b' : Bindings}

/-- The name and the type of an output. -/
def output (key : String) (r : Operand) : String × String := (outputName key r, outputType r)

private theorem output_of_writeSelected (hm : c.misfits.table = none) {key : String}
    {item : Operand} {w : String × String × String}
    (h : (c.writeSelected t scope key item).Done b w b') :
    ∃ r, t.standIn? key item = some r ∧ w.2 = output key r := by
  obtain ⟨r, hr, h⟩ := Writing.done_traced_bind.mp h
  obtain ⟨sql, b₁, -, h⟩ := Writing.done_bind.mp h
  obtain ⟨rfl, -⟩ := Writing.done_pure.mp h
  simp only [resolve, hm] at hr
  exact ⟨r, Table.standIn?_of_resolveSelected hr, rfl⟩

private theorem outputs_of_writeItems (hm : c.misfits.table = none) {selection : Selection}
    {items : List (String × String × String)}
    (h : (selection.mapM fun e ↦ c.writeSelected t scope e.1 e.2).Done b items b') :
    List.Forall₂ (fun e o ↦ ∃ r, t.standIn? e.1 e.2 = some r ∧ o = output e.1 r) selection
      (items.map Prod.snd) := by
  induction selection generalizing b b' items with
  | nil =>
    obtain ⟨rfl, -⟩ := Writing.done_pure.mp h
    exact .nil
  | cons e selection ih =>
    rw [List.mapM_cons] at h
    obtain ⟨item, b₁, hitem, h⟩ := Writing.done_bind.mp h
    obtain ⟨rest, b₂, hrest, h⟩ := Writing.done_bind.mp h
    obtain ⟨rfl, -⟩ := Writing.done_pure.mp h
    exact .cons (output_of_writeSelected hm hitem) (ih hrest)

end Clauses

namespace Query

variable {q : Query} {s : Statement} {t : Table} {a : String}

/-- The outputs of a statement: one for each selected item, or the stored columns of the source
when all columns are selected. -/
theorem outputs_of_compile (h : q.compile.result = .ok s)
    (hheld : q.clauses.misfits.selection = none) :
    q.clauses.misfits.table = none ∧ ∃ t, q.table? = some t ∧
      if q.clauses.selection = [] then s.columns = t.columns.map fun e ↦ (e.2.name, e.2.type)
      else List.Forall₂ (fun e o ↦ ∃ r, t.standIn? e.1 e.2 = some r ∧ o = Clauses.output e.1 r)
        q.clauses.selection s.columns := by
  obtain ⟨t, inner, p, hsource, hp, rfl⟩ := pieces_of_compile h
  have hm := Clauses.table_of_writeFrom hp.source
  refine ⟨hm, t, by rw [table?, hsource]; rfl, ?_⟩
  have hselection := hp.selection
  rw [Clauses.writeSelection_eq (Clauses.not_pending_of_writeSelection hselection) hm,
    Clauses.writeItems, hheld] at hselection
  obtain ⟨items, b₁, hitems, hend⟩ := Writing.done_bind.mp hselection
  obtain ⟨hcolumns, -⟩ := Writing.done_pure.mp hend
  have houtputs := Clauses.outputs_of_writeItems hm hitems
  change if _ then p.selection.2 = _ else List.Forall₂ _ _ p.selection.2
  rw [hcolumns, Clauses.selected]
  split
  · next hnil =>
    rw [hnil] at houtputs
    obtain rfl := List.map_eq_nil_iff.mp (List.forall₂_nil_left_iff.mp houtputs)
    rfl
  · next hne =>
    have hitems : items.isEmpty = false := by
      cases items with
      | nil => exact absurd (List.forall₂_nil_right_iff.mp houtputs) hne
      | cons item items => rfl
    rw [hitems]
    exact houtputs

/-! ### When a derived table describes its query -/

/-- Whether an item with this own name is selected under the key: it has no name of its own, or the
key is that name. -/
def IsNamed (key : String) (own : Option String) : Prop := ∀ name ∈ own, name = "" ∨ name = key

/-- Whether an item that is selected under a key is written under it, and with the type that a
derived table gives it: a column has a type, and what is neither a column nor an expression counts
as text, so the column that stands for it must hold text. -/
def IsKept (t : Table) (key : String) : Operand → Prop
  | .column c => IsNamed key c.aliasName ∧ c.type ≠ ""
  | .expression e => IsNamed key e.label.aliasName
  | _ => ∀ r, t.resolve? key = some r →
    IsNamed key r.2.aliasName ∧ (r.2.type = "String" ∨ r.2.type = "")

/-- A query whose outputs keep the keys of its selection and the types of what is selected. When all
columns are selected, their keys are their stored names. -/
structure Mirrored (q : Query) : Prop where
  held : q.clauses.misfits.selection = none
  items : ∀ t, q.table? = some t → ∀ e ∈ q.clauses.selection, IsKept t e.1 e.2
  all : ∀ t, q.table? = some t → q.clauses.selection = [] → ∀ e ∈ t.columns, e.2.name = e.1

private theorem getD_filter_eq_iff {key : String} {own : Option String} :
    (own.filter (· ≠ "")).getD key = key ↔ IsNamed key own := by
  rcases own with _ | name
  · simp [IsNamed]
  · by_cases hname : name = "" <;> simp [IsNamed, hname, Option.filter]

private theorem getD_filter_eq_self_iff {type : String} :
    ((some type).filter (· ≠ "")).getD "String" = type ↔ type ≠ "" := by
  by_cases htype : type = "" <;> simp [Option.filter, htype]

private theorem getD_filter_eq_string_iff {type : String} :
    ((some type).filter (· ≠ "")).getD "String" = "String" ↔ type = "String" ∨ type = "" := by
  by_cases htype : type = "" <;> simp [Option.filter, htype]

/-- An item is kept when its output is the column that a derived table has for it. -/
theorem isKept_iff {t : Table} {key : String} {item r : Operand}
    (h : t.standIn? key item = some r) :
    IsKept t key item ↔ Clauses.output key r = (key, selectedType item) := by
  unfold Clauses.output
  rw [Prod.mk.injEq]
  cases item with
  | column c =>
    cases h
    exact and_congr getD_filter_eq_iff.symm getD_filter_eq_self_iff.symm
  | expression e =>
    cases h
    exact (and_iff_left rfl).symm.trans (and_congr_left' getD_filter_eq_iff.symm)
  | _ =>
    obtain ⟨found, hfound, rfl⟩ := Option.map_eq_some_iff.mp h
    simp only [IsKept, hfound, Option.some.injEq, forall_eq']
    exact and_congr getD_filter_eq_iff.symm getD_filter_eq_string_iff.symm

/-- Kept items are those whose outputs are the columns of a derived table, one by one. -/
private theorem outputs_eq_iff {t : Table} {selection : Selection}
    {outputs : List (String × String)}
    (h : List.Forall₂ (fun e o ↦ ∃ r, t.standIn? e.1 e.2 = some r ∧ o = Clauses.output e.1 r)
      selection outputs) :
    selection.map (fun e ↦ (e.1, selectedType e.2)) = outputs ↔
      ∀ e ∈ selection, IsKept t e.1 e.2 := by
  induction h with
  | nil => simp
  | cons hitem _ ih =>
    obtain ⟨r, hr, rfl⟩ := hitem
    rw [List.map_cons, List.cons.injEq, ih, List.forall_mem_cons, isKept_iff hr, eq_comm]

end Query

/-- A table that describes a statement under a name: it has the name, its columns are the outputs
of the statement in order, and what is taken from it is written with the name and an output. -/
structure Table.Describes (t : Table) (a : String) (s : Statement) : Prop where
  name_eq : t.name = a
  outputs_eq : t.columns.map (fun e ↦ (e.2.name, e.2.type)) = s.columns
  references : ∀ e ∈ t.columns, e.2.table = some a ∧ e.2.name ∈ s.columns.map Prod.fst

namespace Query

variable {q : Query} {s : Statement}

private theorem derivedTable_eq (hheld : q.clauses.misfits.selection = none)
    (htable : q.clauses.misfits.table = none) (a : String) :
    q.derivedTable a = .ok { name := a, columns := q.derivedColumns a } := by
  rw [derivedTable, checkDerivable, hheld, htable]
  rfl

private theorem table_of_mem_derivedColumns {a : String} {e : String × Column}
    (he : e ∈ q.derivedColumns a) : e.2.table = some a := by
  unfold derivedColumns at he
  split at he
  · obtain ⟨item, -, rfl⟩ := List.mem_map.mp he
    rfl
  · split at he
    · obtain ⟨column, -, rfl⟩ := List.mem_map.mp he
      rfl
    · cases he

/-- The columns of a derived table are the outputs of the statement exactly for mirrored queries. -/
private theorem derivedColumns_eq_iff (h : q.compile.result = .ok s)
    (hheld : q.clauses.misfits.selection = none) (a : String) :
    (q.derivedColumns a).map (fun e ↦ (e.2.name, e.2.type)) = s.columns ↔ q.Mirrored := by
  obtain ⟨-, t, ht, houtputs⟩ := outputs_of_compile h hheld
  by_cases hnil : q.clauses.selection = []
  · rw [if_pos hnil] at houtputs
    have hcolumns : (q.derivedColumns a).map (fun e ↦ (e.2.name, e.2.type)) =
        t.columns.map fun e ↦ (e.1, e.2.type) := by
      simp [derivedColumns, hnil, ht]
    rw [hcolumns, houtputs, List.map_inj_left]
    constructor
    · intro hall
      refine ⟨hheld, fun _ _ e he ↦ ?_, fun t' ht' _ e he ↦ ?_⟩
      · rw [hnil] at he
        cases he
      · obtain rfl := Option.some.inj (ht.symm.trans ht')
        exact (Prod.mk.inj (hall e he)).1.symm
    · intro hq e he
      rw [hq.all t ht hnil e he]
  · rw [if_neg hnil] at houtputs
    have hcolumns : (q.derivedColumns a).map (fun e ↦ (e.2.name, e.2.type)) =
        q.clauses.selection.map fun e ↦ (e.1, selectedType e.2) := by
      simp [derivedColumns, hnil]
    rw [hcolumns, outputs_eq_iff houtputs]
    constructor
    · intro hitems
      refine ⟨hheld, fun t' ht' e he ↦ ?_, fun _ _ hnil' ↦ absurd hnil' hnil⟩
      obtain rfl := Option.some.inj (ht.symm.trans ht')
      exact hitems e he
    · intro hq
      exact hq.items t ht

/-- The derived table of a query that compiles describes its statement exactly when the outputs
keep the keys of the selection, or the keys of all columns, and the types of what is selected. -/
theorem exists_describes_iff (h : q.compile.result = .ok s) (a : String) :
    (∃ t, q.derivedTable a = .ok t ∧ t.Describes a s) ↔ q.Mirrored := by
  rcases hheld : q.clauses.misfits.selection with _ | v
  · obtain ⟨htable, -⟩ := outputs_of_compile h hheld
    rw [derivedTable_eq hheld htable, ← derivedColumns_eq_iff h hheld a]
    constructor
    · rintro ⟨t, ht, hdescribes⟩
      cases ht
      exact hdescribes.outputs_eq
    · intro houtputs
      refine ⟨_, rfl, rfl, houtputs, fun e he ↦ ⟨table_of_mem_derivedColumns he, ?_⟩⟩
      rw [← houtputs, List.map_map]
      exact List.mem_map_of_mem (f := fun e : String × Column ↦ e.2.name) he
  · refine iff_of_false ?_ fun hq ↦ by cases hheld.symm.trans hq.held
    rintro ⟨t, ht, -⟩
    rw [derivedTable, checkDerivable, hheld] at ht
    cases v <;> cases ht

private def posts : Table :=
  { name := "posts",
    columns := [("userId", { name := "user_id", type := "UInt64", table := some "posts" }),
      ("title", { name := "title", type := "String", table := some "posts" })] }

private def headlines : Query :=
  .mk { selection := [("author", .column { name := "user_id", type := "UInt64" }),
    ("title", .value (.bool true))] } [] (some (posts, none))

/-- A column under a new key, and a key that stands for a column of text. -/
theorem exists_describes_headlines : ∃ s t, headlines.compile.result = .ok s ∧
    s.sql = "SELECT `user_id` AS `author`, `posts`.`title` AS `title` FROM `posts`" ∧
    headlines.derivedTable "p" = .ok t ∧ t.Describes "p" s := by
  have hq : headlines.Mirrored := by
    refine ⟨rfl, ?_, ?_⟩
    · rintro _ ⟨⟩ e he
      rcases List.mem_cons.mp he with rfl | he
      · exact ⟨fun _ hname ↦ (by cases hname), by decide⟩
      · obtain rfl := List.mem_singleton.mp he
        intro r hr
        obtain rfl := Option.some.inj (hr.symm.trans (show posts.resolve? "title" =
          some (.direct, { name := "title", type := "String", table := some "posts" }) from rfl))
        exact ⟨fun _ hname ↦ (by cases hname), .inl rfl⟩
    · rintro _ ⟨⟩ hnil
      cases hnil
  obtain ⟨t, ht, hdescribes⟩ := (exists_describes_iff (q := headlines) rfl "p").mpr hq
  exact ⟨_, t, rfl, rfl, ht, hdescribes⟩

/-- All columns of a table whose keys are not the stored names. -/
def allPosts : Query := .mk {} [] (some (posts, none))

/-- When all columns are selected the outputs have the stored names, and the derived table the
keys. -/
theorem not_exists_describes_allPosts : ¬ ∀ (q : Query) (s : Statement) (a : String),
    q.compile.result = .ok s → ∃ t, q.derivedTable a = .ok t ∧ t.Describes a s := by
  intro h
  obtain ⟨t, ht, hdescribes⟩ := h allPosts _ "p" rfl
  cases ht
  have houtputs := hdescribes.outputs_eq
  revert houtputs
  decide

end Query

end Columnar
