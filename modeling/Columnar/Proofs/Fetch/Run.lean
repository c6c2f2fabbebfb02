import Columnar.Fetch.Engine
import Columnar.Proofs.Fetch.Statement
import Columnar.Proofs.Templates

/-!
# What a fetch answers

A fetch builds its query, prepares it through the cache, runs the statement on the client and makes
objects of the rows. Where the cache holds no template but the query's own under its key
(`TemplateCache.Own`), it runs the statement that the query compiles to, and what it answers is made
of the client's rows (`Fetch.outcome_findMany`).
-/

namespace Columnar

/-! ### Through a cache -/

/-- Under the key of a query the cache holds the query's own template, if any. -/
def TemplateCache.Own (c : TemplateCache) (q : Query) : Prop :=
  ∀ f t, q.fingerprint.result = .ok f → c.find? f.key = some t →
    ∃ s, q.compile.result = .ok s ∧ t = .ofStatement s

namespace Query

variable {q : Query} {c : TemplateCache} {s : Statement}

/-- A query that compiles is prepared as its statement. -/
theorem outcome_prepare (hj : q.CrossJoinsBare) (hn : q.SettingsNamed) (hown : c.Own q)
    (hs : q.compile.result = .ok s) :
    ∃ e, (q.prepare.outcome c).1 = .ok e ∧ e.sql = s.sql ∧ e.params = s.params := by
  obtain ⟨f, hf, -⟩ := fingerprint_of_compile hj hn hs
  have hvalues : f.values = s.params.map Prod.snd := by
    rw [params_of_fingerprint hj hs hf, Bindings.values_numbered]
  have htemplate : (q.templateFor.outcome c).1 = .ok (.ofStatement s, f.values) := by
    rw [outcome_templateFor, hf]
    rcases hfound : c.find? f.key with _ | t
    · have hlen : ¬ s.params.length ≠ f.values.length := by
        rw [length_params_of_fingerprint hj hs hf]
        exact not_not_intro rfl
      simp only [hs, hfound, if_neg hlen]
    · obtain ⟨s', hs', rfl⟩ := hown f t hf hfound
      obtain rfl := Except.ok.inj (hs.symm.trans hs')
      simp only [hfound]
  have hfit : ¬ f.values.length ≠ (Template.ofStatement s).paramNames.length := by
    rw [hvalues, List.length_map]
    exact not_not_intro (List.length_map _).symm
  have hzip : (s.params.map Prod.fst).zip (s.params.map Prod.snd) = s.params := by
    rw [← List.unzip_fst, ← List.unzip_snd, List.zip_unzip]
  rw [prepare, Session.outcome_bind]
  rcases ho : q.templateFor.outcome c with ⟨answer, c'⟩
  rw [ho] at htemplate
  obtain rfl := htemplate
  have hbind : (Template.ofStatement s).bind f.values = .ok
      { sql := s.sql, params := s.params, template := some (.ofStatement s) } := by
    rw [Template.bind, if_neg hfit, hvalues, Template.ofStatement, hzip]
  simp only [hbind]
  exact ⟨_, rfl, rfl, rfl⟩

/-- A query that does not compile is not prepared. -/
theorem outcome_prepare_error {e : Failure} (hown : c.Own q) (hs : q.compile.result = .error e) :
    ∃ e, (q.prepare.outcome c).1 = .error e := by
  have htemplate : ∃ e, (q.templateFor.outcome c).1 = .error e := by
    rw [outcome_templateFor]
    rcases hf : q.fingerprint.result with e' | f
    · exact ⟨e', rfl⟩
    · rcases hfound : c.find? f.key with _ | t
      · exact ⟨e, by simp only [hs, hfound]⟩
      · obtain ⟨s, hs', -⟩ := hown f t hf hfound
        cases hs.symm.trans hs'
  obtain ⟨e', he'⟩ := htemplate
  rw [prepare, Session.outcome_bind]
  rcases ho : q.templateFor.outcome c with ⟨answer, c'⟩
  rw [ho] at he'
  obtain rfl := he'
  exact ⟨e', rfl⟩

end Query

/-! ### Fetches -/

/-- The joins of a plan pair no rows without a condition. -/
theorem Node.keyword_joins_ne (strategy : JoinStrategy) (source : Table) (nodes : List Node) :
    ∀ j ∈ joins strategy source nodes, j.keyword ≠ "CROSS" := by
  induction nodes using forest_induction generalizing source with
  | nil => exact List.forall_mem_nil _
  | cons level children rest ihChildren ihRest =>
    rw [joins, joinsOf]
    refine List.forall_mem_append.mpr ⟨List.forall_mem_cons.mpr ⟨?_, ?_⟩, ihRest source⟩
    · exact strategy.keyword_ne_cross source level.table
    · rcases level.aggregated
      · exact ihChildren level.table
      · exact List.forall_mem_nil _

namespace Fetch

variable {σ : Type} {c : Catalog} {id : TableId} {r : Request} {q : Query} {nodes : List Node}
  {options : FindOptions}

/-- The query of a fetch is that of its plan. -/
theorem query_of_build (h : (build c id r).result = .ok (q, nodes, options)) :
    query (c.entry id).source nodes options = .ok q := by
  obtain ⟨options', -, h⟩ := Traced.result_bind_eq_ok.mp h
  obtain ⟨nodes', -, h⟩ := Traced.result_bind_eq_ok.mp h
  obtain ⟨q', hq, h⟩ := Traced.result_bind_eq_ok.mp h
  obtain ⟨rfl, hrest⟩ := Prod.mk.inj (Except.ok.inj h)
  obtain ⟨rfl, rfl⟩ := Prod.mk.inj hrest
  exact hq

theorem crossJoinsBare_of_query {source : Table × Option Query}
    (h : query source nodes options = .ok q) : q.CrossJoinsBare := by
  obtain ⟨condition, rfl⟩ := query_eq h
  exact fun j hj hcross ↦ absurd hcross (Node.keyword_joins_ne _ _ _ j hj)

theorem settingsNamed_of_query {source : Table × Option Query}
    (h : query source nodes options = .ok q) : q.SettingsNamed := by
  obtain ⟨condition, rfl⟩ := query_eq h
  intro v hv
  cases hv

/-- A fetch that can be built and compiled answers the objects of the client's rows. -/
theorem outcome_findMany {s : Statement} {client : Client σ} {cache : TemplateCache} {st : σ}
    {rows : List Row} (hbuild : (build c id r).result = .ok (q, nodes, options))
    (hs : q.compile.result = .ok s) (hown : cache.Own q)
    (hrows : (client.query s.sql s.params st).1 = .ok rows) :
    ((findMany client c id r).outcome (cache, st)).1 =
      (objects (c.table id) nodes rows).result := by
  have hq := query_of_build hbuild
  obtain ⟨e, he, hsql, hparams⟩ := Query.outcome_prepare (crossJoinsBare_of_query hq)
    (settingsNamed_of_query hq) hown hs
  have hrun : ((e.execute client).outcome st).1 = .ok rows := by
    rw [Executable.execute, Session.outcome_logFailure, hsql, hparams]
    exact hrows
  rw [findMany, Session.outcome_bind, Session.outcome_liftM, hbuild]
  simp only [Session.outcome_bind, Session.outcome_onFirst, Session.outcome_onSecond, he, hrun,
    Session.outcome_liftM]

/-- A fetch whose query does not compile fails. -/
theorem outcome_findMany_error {e : Failure} {client : Client σ} {cache : TemplateCache} {st : σ}
    (hbuild : (build c id r).result = .ok (q, nodes, options))
    (hs : q.compile.result = .error e) (hown : cache.Own q) :
    ∃ e, ((findMany client c id r).outcome (cache, st)).1 = .error e := by
  obtain ⟨e', he'⟩ := Query.outcome_prepare_error hown hs
  refine ⟨e', ?_⟩
  rw [findMany, Session.outcome_bind, Session.outcome_liftM, hbuild]
  simp only [Session.outcome_bind, Session.outcome_onFirst, he']

/-- A fetch that cannot be built fails. -/
theorem outcome_findMany_of_build {e : Failure} {client : Client σ} {s : TemplateCache × σ}
    (hbuild : (build c id r).result = .error e) :
    ((findMany client c id r).outcome s).1 = .error e := by
  rw [findMany, Session.outcome_bind, Session.outcome_liftM, hbuild]

/-- The first object of a fetch is the first one of those that a limit of one leaves. -/
theorem outcome_findFirst (client : Client σ) (s : TemplateCache × σ) :
    ((findFirst client c id r).outcome s).1 =
      ((findMany client c id { r with limit := .int 1 }).outcome s).1.map List.head? := by
  rw [findFirst, Session.outcome_bind]
  rcases (findMany client c id { r with limit := .int 1 }).outcome s with ⟨e | os, s'⟩ <;> rfl

end Fetch

end Columnar
