import Columnar.Proofs.Placeholders.InPlace

/-!
# What a source and an ordering leave behind

Two clauses depend on when a query was given its source: whether merged rows are read, and the
hints that were recorded. `Clauses.marked` replaces both and nothing else. `Query.compile_marked`
says what that does to a statement: it has another mark behind the table's name and other hints in
front of the one for projections, and is the same in everything else.
-/

namespace Columnar

/-- The clauses with other marks: whether merged rows are read, and the hints recorded. -/
def Clauses.marked (c : Clauses) (final : Bool) (hints : List String) : Clauses :=
  { c with final, suggestions := hints }

/-- What stands behind the source in a statement; a derived table has no mark. -/
def Clauses.finalMark {α : Type} (inner : Option α) (final : Bool) : String :=
  if inner.isNone && final then " FINAL" else ""

namespace Clauses

variable {c : Clauses} {t : Table} {inner : Option (Traced Statement)} {scope : Scope}
  {b b' : Bindings} {source : String}

/-- The source is written with its mark between two texts, which do not depend on the marks. -/
theorem done_writeFrom_marked {final : Bool} {hints : List String}
    (h : ((c.marked final hints).writeFrom t inner scope).Done b source b') :
    ∃ head tail, source = head ++ finalMark inner final ++ tail ∧ ∀ final' hints',
      ((c.marked final' hints').writeFrom t inner scope).Done b
        (head ++ finalMark inner final' ++ tail) b' := by
  have htable : (c.marked final hints).misfits.table = none := table_of_writeFrom h
  have hparts (final : Bool) (hints : List String) :
      (c.marked final hints).writeFrom t inner scope = (do
        let source ← (c.marked final hints).writeSource t (inner.map Writing.inlining)
        let joins ← c.writeJoins scope
        let arrays ← c.writeArrayJoins scope
        return source ++ joins ++ arrays) := by
    have htable' : (c.marked final hints).misfits.table = none := htable
    rw [writeFrom_eq, writeFromInPlace, htable']
    rfl
  rw [hparts] at h
  obtain ⟨text, b₁, hsource, h⟩ := Writing.done_bind.mp h
  obtain ⟨joins, b₂, hjoins, h⟩ := Writing.done_bind.mp h
  obtain ⟨arrays, b₃, harrays, h⟩ := Writing.done_bind.mp h
  obtain ⟨rfl, rfl⟩ := Writing.done_pure.mp h
  obtain ⟨head, rfl, hhead⟩ : ∃ head, text = head ++ finalMark inner final ∧ ∀ final' hints',
      ((c.marked final' hints').writeSource t (inner.map Writing.inlining)).Done b
        (head ++ finalMark inner final') b₁ := by
    cases inner with
    | none =>
      obtain ⟨rfl, rfl⟩ := Writing.done_pure.mp hsource
      exact ⟨_, rfl, fun final' hints' ↦ Writing.done_pure.mpr ⟨rfl, rfl⟩⟩
    | some s =>
      have hmark (final : Bool) : finalMark (some s) final = "" := rfl
      refine ⟨text, ?_, fun final' hints' ↦ ?_⟩
      · rw [hmark, String.append_empty]
      · rw [hmark, String.append_empty]
        exact hsource
  refine ⟨head, joins ++ arrays, ?_, fun final' hints' ↦ ?_⟩
  · rw [String.append_assoc]
  · rw [hparts, ← String.append_assoc]
    exact Writing.done_bind.mpr ⟨_, _, hhead final' hints', Writing.done_bind.mpr ⟨_, _, hjoins,
      Writing.done_bind.mpr ⟨_, _, harrays, Writing.done_pure.mpr ⟨rfl, rfl⟩⟩⟩⟩

/-- A statement has its source between two texts, which do not depend on it. -/
theorem sql_assemble_source (c : Clauses) (p : Pieces) : ∃ head tail, ∀ source,
    (c.assemble { p with source }).sql = head ++ source ++ tail := by
  let front := [p.ctes, "SELECT " ++ (if c.distinct then "DISTINCT " else "") ++ p.selection.1]
  let back := [p.prewhere, p.condition, p.groupBy, p.having, p.orderBy, c.limitText, p.sample,
    p.windows, p.settings]
  refine ⟨" ".intercalate (front.filter (· ≠ "")) ++ " " ++ "FROM ",
    String.join ((back.filter (· ≠ "")).map (" " ++ ·)), fun source ↦ ?_⟩
  have hfront : front.filter (· ≠ "") ≠ [] := by
    intro hnil
    exact absurd (List.filter_eq_nil_iff.mp hnil _ (List.mem_cons_of_mem _ List.mem_cons_self))
      (by simp)
  have hfrom (xs ys : List String) : (xs ++ ("FROM " ++ source) :: ys).filter (· ≠ "") =
      xs.filter (· ≠ "") ++ ("FROM " ++ source) :: ys.filter (· ≠ "") := by
    rw [List.filter_append, List.filter_cons_of_pos (by simp)]
  change " ".intercalate ((front ++ ("FROM " ++ source) :: back).filter (· ≠ "")) = _
  rw [hfrom, intercalate_append hfront, List.map_cons, String.join_cons]
  simp only [String.append_assoc]

end Clauses

/-- With other marks a query still compiles, and its statement differs in these marks alone. -/
theorem Query.compile_marked {c : Clauses} {ctes : List (String × Query)} {t : Table}
    {inner : Option Query} (hm : c.misfits.suggestions = none) {final : Bool}
    {hints : List String} {s : Statement}
    (hs : (Query.mk (c.marked final hints) ctes (some (t, inner))).compile.result = .ok s)
    (final' : Bool) (hints' : List String) :
    ∃ s', (Query.mk (c.marked final' hints') ctes (some (t, inner))).compile.result = .ok s' ∧
      s.params = s'.params ∧ s.columns = s'.columns ∧
      s.suggestions = hints ++ c.projectionHints t ∧
      s'.suggestions = hints' ++ c.projectionHints t ∧
      ∃ head tail, s.sql = head ++ Clauses.finalMark inner final ++ tail ∧
        s'.sql = head ++ Clauses.finalMark inner final' ++ tail := by
  rw [compile_eq] at hs
  obtain ⟨b, hw⟩ := Writing.result_run'.mp hs
  obtain ⟨p, hp, rfl, -⟩ := Clauses.done_writeWith.mp hw
  have hmark (final : Bool) :
      Clauses.finalMark (inner.map compile) final = Clauses.finalMark inner final := by
    cases inner <;> rfl
  have hhints (final : Bool) (hints : List String) :
      (c.marked final hints).writeSuggestions t = .ok (hints ++ c.projectionHints t) := by
    rw [Clauses.writeSuggestions, Clauses.marked, hm]
    rfl
  obtain ⟨head, tail, hsource, hfrom⟩ := Clauses.done_writeFrom_marked hp.source
  obtain ⟨before, after, hsql⟩ := (c.marked final hints).sql_assemble_source p
  have hown : p.suggestions = hints ++ c.projectionHints t :=
    Except.ok.inj (hp.suggestions.symm.trans (hhints final hints))
  let p' : Pieces :=
    { p with source := head ++ Clauses.finalMark (inner.map compile) final' ++ tail
             suggestions := hints' ++ c.projectionHints t }
  have hp' : (c.marked final' hints').PiecesWith t
      (Clauses.writeCtes (ctes.map fun e ↦ (e.1, e.2.compile)))
      ((c.marked final' hints').writeFrom t (inner.map compile) { columns := t.keys }) {} p' :=
    ⟨hp.hints, hp.noCtes, hp.ctes, hp.selection, hfrom final' hints', hp.prewhere, hp.condition,
      hp.groupBy, hp.having, hp.orderBy, hp.sample, hp.windows, hp.settings, hhints final' hints'⟩
  refine ⟨(c.marked final' hints').assemble p', ?_, rfl, rfl, hown, rfl, before ++ head,
    tail ++ after, ?_, ?_⟩
  · rw [compile_eq]
    exact Writing.result_run'.mpr ⟨_, Clauses.done_writeWith.mpr ⟨p', hp', rfl, rfl⟩⟩
  · have h : ((c.marked final hints).assemble p).sql = before ++ p.source ++ after := hsql p.source
    rw [h, hsource, hmark]
    simp only [String.append_assoc]
  · have h : ((c.marked final' hints').assemble p').sql = before ++ p'.source ++ after :=
      hsql p'.source
    rw [h, ← hmark]
    simp only [p', String.append_assoc]

end Columnar
