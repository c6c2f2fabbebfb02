import Columnar.Template.Prepared

/-!
# Parts of a fingerprint

The fingerprint of a query is put together from one part for each clause. `Query.HasParts` says
what the parts of a query are; `fingerprint_eq_ok` says that a query has a fingerprint exactly
when all of its parts exist, and that the fingerprint is then the whole of them.
-/

namespace Columnar

/-- The parts of a fingerprint, clause by clause. -/
structure Parts where
  ctes : List Fingerprint
  selection : Fingerprint
  source : Fingerprint
  joins : List Fingerprint
  arrayJoins : List Fingerprint
  prewhere : Fingerprint
  condition : Fingerprint
  groupBy : List Fingerprint
  having : Fingerprint
  orderBy : List Fingerprint
  tail : String

/-- The fingerprint that is put together from parts. -/
def Parts.whole (p : Parts) : Fingerprint :=
  .concat [.ofText "SELECT", .clause "|CTES:" p.ctes, p.selection, p.source,
    .clause "|JOINS:" p.joins, .clause "|AJOINS:" p.arrayJoins, p.prewhere, p.condition,
    .clause "|GROUP:" p.groupBy, p.having, .clause "|ORDER:" p.orderBy, .ofText p.tail]

namespace Fingerprint

@[simp] theorem values_ofText (text : String) : (ofText text).values = [] := rfl

/-- The literals of fingerprints in a row. -/
@[simp] theorem values_concat (fs : List Fingerprint) :
    (concat fs).values = fs.flatMap values := by
  induction fs with
  | nil => rfl
  | cons f fs ih => simp [concat, values_append, ih]

/-- The literals of a clause are those of its items. -/
@[simp] theorem values_clause (head : String) (fs : List Fingerprint) :
    (clause head fs).values = fs.flatMap values := by
  unfold clause
  cases fs with
  | nil => rfl
  | cons f fs => simp [values_append]

end Fingerprint

/-- The literals of the parts, clause by clause. -/
theorem Parts.values_whole (p : Parts) :
    p.whole.values = p.ctes.flatMap Fingerprint.values ++ (p.selection.values ++
      (p.source.values ++ (p.joins.flatMap Fingerprint.values ++
      (p.arrayJoins.flatMap Fingerprint.values ++ (p.prewhere.values ++ (p.condition.values ++
      (p.groupBy.flatMap Fingerprint.values ++ (p.having.values ++
        p.orderBy.flatMap Fingerprint.values)))))))) := by
  simp [whole]

/-- The parts for the named subqueries. -/
def Fingerprint.ofCtes (ctes : List (String × Query)) : Traced (List Fingerprint) :=
  ctes.mapM fun e ↦ do
    return Fingerprint.ofStatement ("(" ++ e.1 ++ ":") ")" (← e.2.compile)

/-- The query has these parts, and nothing that stands in place of a clause is in their way. -/
structure Query.HasParts (q : Query) (p : Parts) : Prop where
  noCtes : Misfits.visitIfAny "query" q.clauses.misfits.ctes = .ok ()
  ctes : (Fingerprint.ofCtes q.ctes).result = .ok p.ctes
  selection : Fingerprint.ofSelection q.clauses = .ok p.selection
  source : (Fingerprint.ofSource q.clauses q.source).result = .ok p.source
  noJoins : Misfits.visitIfAny "type" q.clauses.misfits.joins = .ok ()
  joins : q.clauses.joins.mapM Fingerprint.ofJoin = .ok p.joins
  noArrayJoins : Misfits.visitIfAny "expression" q.clauses.misfits.arrayJoins = .ok ()
  arrayJoins : q.clauses.arrayJoins.mapM Fingerprint.ofArrayJoin = .ok p.arrayJoins
  prewhere : Fingerprint.ofCondition "|PREWHERE:" q.clauses.prewhere = .ok p.prewhere
  condition : Fingerprint.ofCondition "|WHERE:" q.clauses.condition = .ok p.condition
  noGroupBy : q.clauses.misfits.groupBy = none
  groupBy : q.clauses.groupBy.mapM Fingerprint.ofGrouped = .ok p.groupBy
  having : Fingerprint.ofCondition "|HAVING:" q.clauses.having = .ok p.having
  noOrderBy : Misfits.visitIfAny "expression" q.clauses.misfits.orderBy = .ok ()
  orderBy : q.clauses.orderBy.mapM Fingerprint.ofOrder = .ok p.orderBy
  tail : Fingerprint.tail q.clauses = .ok p.tail

/-- A query has a fingerprint when it has parts, and it is the whole of them. -/
theorem Query.fingerprint_eq_ok {q : Query} {f : Fingerprint} :
    q.fingerprint.result = .ok f ↔ ∃ p, q.HasParts p ∧ f = p.whole := by
  constructor
  · intro h
    unfold fingerprint at h
    obtain ⟨⟨⟩, noCtes, h⟩ := Traced.result_bind_eq_ok.mp h
    obtain ⟨ctes, hctes, h⟩ := Traced.result_bind_eq_ok.mp h
    obtain ⟨selection, hselection, h⟩ := Traced.result_bind_eq_ok.mp h
    obtain ⟨source, hsource, h⟩ := Traced.result_bind_eq_ok.mp h
    obtain ⟨⟨⟩, noJoins, h⟩ := Traced.result_bind_eq_ok.mp h
    obtain ⟨joins, hjoins, h⟩ := Traced.result_bind_eq_ok.mp h
    obtain ⟨⟨⟩, noArrayJoins, h⟩ := Traced.result_bind_eq_ok.mp h
    obtain ⟨arrayJoins, harrayJoins, h⟩ := Traced.result_bind_eq_ok.mp h
    obtain ⟨prewhere, hprewhere, h⟩ := Traced.result_bind_eq_ok.mp h
    obtain ⟨condition, hcondition, h⟩ := Traced.result_bind_eq_ok.mp h
    have noGroupBy : q.clauses.misfits.groupBy = none := by
      rcases hm : q.clauses.misfits.groupBy with _ | v
      · rfl
      · simp only [hm] at h
        cases h
    simp only [noGroupBy] at h
    obtain ⟨groupBy, hgroupBy, h⟩ := Traced.result_bind_eq_ok.mp h
    obtain ⟨having', hhaving, h⟩ := Traced.result_bind_eq_ok.mp h
    obtain ⟨⟨⟩, noOrderBy, h⟩ := Traced.result_bind_eq_ok.mp h
    obtain ⟨orderBy, horderBy, h⟩ := Traced.result_bind_eq_ok.mp h
    obtain ⟨tail, htail, h⟩ := Traced.result_bind_eq_ok.mp h
    exact ⟨⟨ctes, selection, source, joins, arrayJoins, prewhere, condition, groupBy, having',
      orderBy, tail⟩, ⟨noCtes, hctes, hselection, hsource, noJoins, hjoins, noArrayJoins,
      harrayJoins, hprewhere, hcondition, noGroupBy, hgroupBy, hhaving, noOrderBy, horderBy,
      htail⟩, (Except.ok.inj h).symm⟩
  · rintro ⟨p, h, rfl⟩
    unfold fingerprint
    simp only [h.noGroupBy, Traced.result_bind_eq_ok]
    exact ⟨(), h.noCtes, p.ctes, h.ctes, p.selection, h.selection, p.source, h.source, (),
      h.noJoins, p.joins, h.joins, (), h.noArrayJoins, p.arrayJoins, h.arrayJoins, p.prewhere,
      h.prewhere, p.condition, h.condition, p.groupBy, h.groupBy, p.having, h.having, (),
      h.noOrderBy, p.orderBy, h.orderBy, p.tail, h.tail, rfl⟩

end Columnar
