import Columnar.Proofs.Placeholders.References
import Columnar.Proofs.Placeholders.Verbatim

/-!
# Texts of inlined subqueries

A subquery is compiled on its own and renamed where it is inlined, once at each level. Where the
statements of all subqueries refer to their parameters by placeholders only (`Query.Unmistakable`),
renaming changes nothing but the numbers of these placeholders: the query itself and its subqueries
at any depth stand in the statement as their own outlines, written from other numbers, with every
text that is inserted as it is (`Query.subqueries_stand`). Text that reads like a placeholder is
renamed with them (`Query.not_within_lookalike`).
-/

namespace Columnar

open Writing (Carries)

mutual

/-- The subqueries of a query, at any depth. -/
def Query.subqueries : Query → List Query
  | .mk _ ctes source => subqueriesOfCtes ctes ++ subqueriesOfSource source

/-- Named subqueries and the subqueries in them. -/
def subqueriesOfCtes : List (String × Query) → List Query
  | [] => []
  | (_, q) :: rest => q :: (q.subqueries ++ subqueriesOfCtes rest)

/-- The subqueries of a source. -/
def subqueriesOfSource : Option (Table × Option Query) → List Query
  | none | some (_, none) => []
  | some (_, some q) => q :: q.subqueries

end

namespace Query

/-- The subqueries are those that stand in the query and the ones in these. -/
theorem subqueries_eq (c : Clauses) (ctes : List (String × Query)) (t : Table)
    (inner : Option Query) : (mk c ctes (some (t, inner))).subqueries =
      ctes.flatMap (fun e ↦ e.2 :: e.2.subqueries) ++
        inner.toList.flatMap fun q ↦ q :: q.subqueries := by
  have hctes : subqueriesOfCtes ctes = ctes.flatMap fun e ↦ e.2 :: e.2.subqueries := by
    induction ctes with
    | nil => rfl
    | cons e rest ih =>
      rw [subqueriesOfCtes, ih]
      rfl
  rw [subqueries, hctes]
  cases inner <;> simp [subqueriesOfSource]

/-- Only the placeholders of its literals refer to the parameters of the query's statement. -/
def Unmistakable (q : Query) : Prop :=
  ∀ s, q.compile.result = .ok s → s.references = s.params.length

/-- The query has this statement, which is this outline with numbers from one on, and its texts are
held by the outline. -/
structure OutlinedBy (q : Query) (s : Statement) (o : Outline) : Prop where
  compiles : q.compile.result = .ok s
  sql : s.sql = o.write 0
  params : ∃ vs, o.serials = .ok vs ∧ s.params = Bindings.numbered 0 vs
  holds : ∀ x ∈ q.clauses.verbatim, o.Holds x

/-- The outline is one of the query's statement. -/
def Outlines (q : Query) (o : Outline) : Prop := ∃ s, q.OutlinedBy s o

/-- An inlined subquery carries itself and the subqueries in it. -/
private theorem carries_inlining {q : Query} (hq : ∀ p ∈ q :: q.subqueries, p.Unmistakable)
    (h : ∀ s, q.compile.result = .ok s → (∀ p ∈ q.subqueries, p.Unmistakable) →
      ∃ o, q.OutlinedBy s o ∧ ∀ p ∈ q.subqueries, o.Has p.Outlines) :
    Carries (Writing.inlining q.compile) (fun s ↦ s) ((q :: q.subqueries).map Outlines) := by
  intro b b' sql hx
  obtain ⟨hself, hrest⟩ := List.forall_mem_cons.mp hq
  obtain ⟨s, hs, hinline⟩ := Writing.done_inlining.mp hx
  obtain ⟨o, ho, hparts⟩ := h s hs hrest
  obtain ⟨vs, hvs, hparams⟩ := ho.params
  have hlength := Outline.length_of_serials hvs
  have hreferences : Statement.referencesIn (Outline.firstNames vs.length) (o.write 0).toList =
      vs.length := by
    have hcount := hself s hs
    rwa [Statement.references, hparams, Outline.map_fst_numbered, ho.sql,
      Outline.length_numbered] at hcount
  have hfirst : (s.inline b).1 = o.write b.count := by
    rw [← (Outline.rename_write_iff hlength b).mpr (.inr hreferences), ← hparams]
    exact congrArg (Statement.rename _) ho.sql
  have hsecond : (s.inline b).2 = b.extend vs := by
    rw [Statement.snd_inline, hparams, Bindings.values_numbered]
  rw [hinline] at hfirst hsecond
  refine ⟨o, ⟨hfirst, vs, hvs, hsecond⟩, fun R hR ↦ ?_⟩
  obtain ⟨p, hp, rfl⟩ := List.mem_map.mp hR
  rcases List.mem_cons.mp hp with rfl | hp
  · exact .of ⟨s, ho⟩
  · exact hparts p hp

/-- The outline of a statement has outlines of all subqueries, at any depth. -/
theorem exists_outlinedBy {q : Query} {s : Statement} (h : q.compile.result = .ok s)
    (hq : ∀ p ∈ q.subqueries, p.Unmistakable) :
    ∃ o, q.OutlinedBy s o ∧ ∀ p ∈ q.subqueries, o.Has p.Outlines := by
  induction q using induction generalizing s with
  | step c ctes source hctes hsource =>
    obtain ⟨t, inner, b, rfl, hm, hw⟩ := done_of_compile h
    rw [subqueries_eq] at hq ⊢
    simp only [List.forall_mem_append] at hq
    have hcte : ∀ e ∈ ctes, Carries (Writing.inlining e.2.compile) (fun s ↦ s)
        ((e.2 :: e.2.subqueries).map Outlines) := fun e he ↦
      carries_inlining (fun p hp ↦ hq.1 p (List.mem_flatMap.mpr ⟨e, he, hp⟩))
        fun _ hs ↦ hctes e he hs
    have hinner : ∀ p ∈ inner, Carries (Writing.inlining p.compile) (fun s ↦ s)
        ((p :: p.subqueries).map Outlines) := by
      rintro p ⟨⟩
      exact carries_inlining (fun p' hp ↦ hq.2 p' (List.mem_flatMap.mpr ⟨p, by simp, hp⟩))
        fun _ hs ↦ hsource t p rfl hs
    simp only [clauses, Query.ctes] at hw
    have hdone := hw
    rw [Clauses.write_eq, List.map_map, Option.map_map] at hdone
    obtain ⟨o, ⟨hsql, vs, hvs, rfl⟩, hhas⟩ := Clauses.carries_statement hm
      (Clauses.carries_ctes Prod.fst hcte)
      (Clauses.carries_from { columns := t.keys } hm hinner) hdone
    have hparams : s.params = Bindings.numbered 0 vs := by
      rw [Clauses.write_eq] at hw
      obtain ⟨p, -, rfl, hafter⟩ := Clauses.done_writeWith.mp hw
      rw [← Bindings.params_extend_empty, hafter]
      rfl
    simp only [List.forall_mem_append] at hhas
    refine ⟨o, ⟨h, hsql, ⟨vs, hvs, hparams⟩, fun x hx ↦ ?_⟩, ?_⟩
    · exact (hhas.2.2 _ (List.mem_map_of_mem hx)).holds
    · refine List.forall_mem_append.mpr ⟨fun p hp ↦ ?_, fun p hp ↦ ?_⟩
      · obtain ⟨e, he, hp⟩ := List.mem_flatMap.mp hp
        exact hhas.1 _ (List.mem_flatMap.mpr ⟨e, he, List.mem_map_of_mem hp⟩)
      · obtain ⟨p', hp', hp⟩ := List.mem_flatMap.mp hp
        exact hhas.2.1 _ (List.mem_flatMap.mpr ⟨p', hp', List.mem_map_of_mem hp⟩)

/-- The query stands in a statement: its own statement is the outline `o` with numbers from one on,
and the same outline stands there with numbers after others. Its parameters stand among those of the
statement accordingly, and its texts stand in the SQL as they are. -/
def StandsIn (q : Query) (s : Statement) : Prop :=
  ∃ own o before after vs ws, q.OutlinedBy own o ∧
    s.sql = before ++ o.write vs.length ++ after ∧
    s.params.map Prod.snd = vs ++ own.params.map Prod.snd ++ ws ∧
    ∀ x ∈ q.clauses.verbatim, Text.Within x s.sql

/-- What an outline of a statement has stands in the statement. -/
private theorem OutlinedBy.standsIn {q p : Query} {s : Statement} {o : Outline}
    (h : q.OutlinedBy s o) (hp : o.Has p.Outlines) : p.StandsIn s := by
  obtain ⟨part, ⟨before, after, rfl⟩, own, hown⟩ := hp
  obtain ⟨all, hall, hparams⟩ := h.params
  obtain ⟨us, hus, hownParams⟩ := hown.params
  obtain ⟨front, ws, hfront, hws, rfl⟩ := Outline.serials_append_eq_ok.mp hall
  obtain ⟨vs, us', hvs, hus', rfl⟩ := Outline.serials_append_eq_ok.mp hfront
  obtain rfl := Except.ok.inj (hus.symm.trans hus')
  have hsql : s.sql = Outline.write 0 before ++ Outline.write vs.length part ++
      Outline.write (vs ++ us).length after := by
    rw [h.sql, Outline.write_append, Outline.write_append, Nat.zero_add, Nat.zero_add,
      Outline.length_of_serials hvs, Outline.length_of_serials hfront]
  refine ⟨own, part, _, _, vs, ws, hown, hsql, ?_, fun x hx ↦ ?_⟩
  · rw [hparams, hownParams, Bindings.values_numbered, Bindings.values_numbered]
  · rw [hsql]
    exact ((hown.holds x hx).within vs.length).trans (Text.within_append _ _ _)

/-- A query that compiles stands in its statement, and so does every subquery, at any depth. -/
theorem subqueries_stand {q : Query} {s : Statement} (h : q.compile.result = .ok s)
    (hq : ∀ p ∈ q.subqueries, p.Unmistakable) : ∀ p ∈ q :: q.subqueries, p.StandsIn s := by
  obtain ⟨o, ho, hparts⟩ := exists_outlinedBy h hq
  exact List.forall_mem_cons.mpr
    ⟨ho.standsIn (.of ⟨s, ho⟩), fun p hp ↦ ho.standsIn (hparts p hp)⟩

private def ledger : Table := { name := "ledger" }

/-- A text between braces and quotes. -/
private def braced (text : String) : String := "'\x7b" ++ text ++ "\x7d'"

/-- A raw text and a literal. -/
private def ledgerNote (label : String) (n : Int) : Operand :=
  .expression ⟨{}, .raw "label = " label
    (.column " AND " { name := "id", type := "UInt64" } (.literal " = " (.int n) (.done "")))⟩

private def entry (label : String) (n : Int) : Query :=
  .mk { condition := some (ledgerNote label n) } [] (some (ledger, none))

private def commented : Query :=
  .mk { condition := some (ledgerNote (braced "p_7:x") 8), windows := [("w", braced "p_")],
        settings := [("log_comment", .text (braced "p_6:"))] } []
    (some ({ name := "e" }, some (entry (braced "p_5:x") 7)))

private def nestedLabels : Query :=
  .mk { condition := some (ledgerNote (braced "p_1:x") 9) }
    [("first", entry (braced "") 6), ("c", commented)] (some (ledger, none))

/-- Braces of which none reads like a placeholder of the subquery they stand in. -/
theorem subqueries_stand_labels : (∀ p ∈ nestedLabels.subqueries, p.Unmistakable) ∧
    ∃ s, nestedLabels.compile.result = .ok s ∧
      ∀ p ∈ nestedLabels :: nestedLabels.subqueries, p.StandsIn s := by
  have hq : ∀ p ∈ nestedLabels.subqueries, p.Unmistakable := by
    change ∀ p ∈ [entry (braced "") 6, commented, entry (braced "p_5:x") 7], p.Unmistakable
    simp only [List.forall_mem_cons]
    refine ⟨?_, ?_, ?_, List.forall_mem_nil _⟩ <;> rintro s ⟨⟩ <;> decide +kernel
  exact ⟨hq, _, rfl, subqueries_stand rfl hq⟩

/-- Two subqueries, the second of which has a text that reads like its placeholder. -/
private def lookalike : Query :=
  .mk {} [("a", entry "''" 1), ("b", entry (braced "p_1:x") 2)] (some (ledger, none))

/-- A text that reads like a placeholder of its subquery is renamed with the placeholders. -/
theorem not_within_lookalike : ¬ ∀ (q : Query) (s : Statement), q.compile.result = .ok s →
    ∀ p ∈ q.subqueries, ∀ x ∈ p.clauses.verbatim, Text.Within x s.sql := by
  intro h
  have hmem : entry (braced "p_1:x") 2 ∈ lookalike.subqueries :=
    List.mem_cons_of_mem _ List.mem_cons_self
  have hwithin := h lookalike _ rfl _ hmem (braced "p_1:x") (by decide)
  revert hwithin
  decide +kernel

end Query

end Columnar
