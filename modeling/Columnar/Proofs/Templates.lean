import Columnar.Proofs.Lockstep
import Columnar.Proofs.Sessions

/-!
# Preparing through a cache

What preparing a query answers and leaves depends on its fingerprint, on what the cache holds under
its key and on its statement, in that order. `outcome_templateFor` says how; the failure for values
and parameters that differ in number has no place in it, by the lockstep of fingerprints and
statements (`params_of_fingerprint`).
-/

namespace Columnar

namespace TemplateCache

/-- Reading a key answers what is held under it and leaves the cache as consulted. -/
theorem outcome_get (key : String) (c : TemplateCache) :
    (get key).outcome c = (.ok (c.consult key).1, (c.consult key).2) := rfl

/-- Storing a template leaves the cache with it. -/
theorem outcome_put (key : String) (t : Template) (c : TemplateCache) :
    (put key t).outcome c = (.ok ⟨⟩, (c.store key t).2) := by
  unfold put
  rw [Session.outcome_bind]
  exact Session.outcome_forM (fun _ _ ↦ rfl) _ _

end TemplateCache

namespace Query

/-- A statement binds the values of the fingerprint, under the first numbers. -/
theorem params_of_fingerprint {q : Query} {s : Statement} {f : Fingerprint}
    (hj : q.CrossJoinsBare) (h : q.compile.result = .ok s) (hf : q.fingerprint.result = .ok f) :
    s.params = Bindings.numbered 0 f.values := by
  obtain ⟨f', hf', hp⟩ := fingerprint_of_compile hj (settingsNamed_of_fingerprint h hf) h
  obtain rfl := Except.ok.inj (hf.symm.trans hf')
  exact hp

/-- The template under the key of a query, or else the template of its statement, with the query's
values. -/
theorem outcome_templateFor (q : Query) (c : TemplateCache) :
    q.templateFor.outcome c = match q.fingerprint.result with
      | .error e => (.error e, c)
      | .ok f => match c.find? f.key with
        | some t => (.ok (t, f.values), (c.consult f.key).2)
        | none => match q.compile.result with
          | .error e => (.error e, c)
          | .ok s =>
            if s.params.length ≠ f.values.length then
              (.error (.valueCount f.values.length s.params.length), c)
            else (.ok (.ofStatement s, f.values), (c.store f.key (.ofStatement s)).2) := by
  unfold templateFor
  rw [Session.outcome_bind, Session.outcome_liftM]
  rcases q.fingerprint.result with e | f
  · rfl
  · simp only [Session.outcome_bind, TemplateCache.outcome_get, TemplateCache.consult]
    rcases c.find? f.key with _ | t
    · simp only [Session.outcome_bind, Session.outcome_liftM]
      rcases q.compile.result with e | s
      · rfl
      · by_cases hn : s.params.length ≠ f.values.length
        · simp only [if_pos hn]
          rfl
        · simp only [if_neg hn, Session.outcome_bind, TemplateCache.outcome_put]
          rw [Session.outcome_forM fun _ _ ↦ rfl]
          rfl
    · rfl

/-- The template under the key of a query is answered, whatever statement it was made of. -/
theorem outcome_templateFor_of_find? {q : Query} {c : TemplateCache} {f : Fingerprint}
    {t : Template} (hf : q.fingerprint.result = .ok f) (h : c.find? f.key = some t) :
    q.templateFor.outcome c = (.ok (t, f.values), (c.consult f.key).2) := by
  simp only [outcome_templateFor, hf, h]

/-- The text of a query and its parameters are made of its template, whatever values there are. -/
theorem outcome_toSql (q : Query) (c : TemplateCache) :
    q.toSql.outcome c = match q.templateFor.outcome c with
      | (.error e, c') => (.error e, c')
      | (.ok (t, values), c') => (.ok (t.sql, t.paramNames.zip values, t.suggestions), c') := by
  rw [toSql, Session.outcome_bind]
  rcases q.templateFor.outcome c with ⟨e | ⟨t, values⟩, c'⟩ <;> rfl

/-- A query is prepared by binding its values to its template. -/
theorem outcome_prepare_eq (q : Query) (c : TemplateCache) :
    q.prepare.outcome c = match q.templateFor.outcome c with
      | (.error e, c') => (.error e, c')
      | (.ok (t, values), c') => (t.bind values, c') := by
  rw [prepare, Session.outcome_bind]
  rcases q.templateFor.outcome c with ⟨e | ⟨t, values⟩, c'⟩ <;> rfl

/-- A statement binds as many parameters as the fingerprint has values. -/
theorem length_params_of_fingerprint {q : Query} {s : Statement} {f : Fingerprint}
    (hj : q.CrossJoinsBare) (h : q.compile.result = .ok s) (hf : q.fingerprint.result = .ok f) :
    s.params.length = f.values.length := by
  rw [params_of_fingerprint hj h hf, ← List.length_map Prod.snd, Bindings.values_numbered]

/-- A query that compiles has a fingerprint exactly when its settings are named, and the fingerprint
collects the values that the statement binds, in the same order. So preparing a query fails only
when one of the two does. -/
theorem lockstep (q : Query) (hj : q.CrossJoinsBare) :
    (∀ s, q.compile.result = .ok s →
      ((∃ f, q.fingerprint.result = .ok f) ↔ q.SettingsNamed) ∧
      ∀ f, q.fingerprint.result = .ok f → f.values = s.params.map Prod.snd) ∧
    ∀ c failure, (q.templateFor.outcome c).1 = .error failure →
      q.fingerprint.result = .error failure ∨
        (∃ f, q.fingerprint.result = .ok f) ∧ q.compile.result = .error failure := by
  refine ⟨fun s h ↦ ⟨⟨?_, ?_⟩, ?_⟩, ?_⟩
  · rintro ⟨f, hf⟩
    exact settingsNamed_of_fingerprint h hf
  · intro hs
    obtain ⟨f, hf, -⟩ := fingerprint_of_compile hj hs h
    exact ⟨f, hf⟩
  · intro f hf
    rw [params_of_fingerprint hj h hf, Bindings.values_numbered]
  · intro c failure h
    rw [outcome_templateFor] at h
    rcases hf : q.fingerprint.result with e | f <;> rw [hf] at h
    · cases h
      exact .inl rfl
    · refine .inr ⟨⟨f, rfl⟩, ?_⟩
      simp only at h
      split at h
      · cases h
      · rcases hc : q.compile.result with e | s <;> rw [hc] at h
        · cases h
          rfl
        · simp only [length_params_of_fingerprint hj hc hf, ne_eq, not_true_eq_false,
            if_false] at h
          cases h

private def readings : Table :=
  { name := "readings",
    columns := [("id", { name := "id", type := "UInt64", table := some "readings" })] }

private def above (table : String) (n : Int) : Operand :=
  .expression ⟨{}, .column "" { name := "id", type := "UInt64", table := some table }
    (.literal " > " (.int n) (.done ""))⟩

private def recent : Query :=
  .mk { condition := some (above "readings" 7) } [] (some (readings, none))

private def nested : Query :=
  .mk { condition := some (above "r" 9) } [("earlier", recent)]
    (some ({ name := "r" }, some recent))

/-- The values of a named subquery come first, then a derived table's, then the query's own. -/
theorem lockstep_nested :
    nested.CrossJoinsBare ∧ ∃ f, nested.fingerprint.result = .ok f ∧
      f.values = [.int 7, .int 7, .int 9] := by
  have hj : nested.CrossJoinsBare := fun _ hj ↦ (List.not_mem_nil hj).elim
  have hs : nested.SettingsNamed := by
    intro v hv
    cases hv
  obtain ⟨hnamed, hvalues⟩ := (lockstep nested hj).1 _ rfl
  obtain ⟨f, hf⟩ := hnamed.mpr hs
  exact ⟨hj, f, hf, hvalues f hf⟩

/-- A query with a row of pairs in place of its settings. -/
def paired : Query :=
  .mk { misfits := { settings := some (.list [.list [.text "max_threads", .int 4]]) } } []
    (some (readings, none))

/-- A row of pairs in place of the settings is written but cannot be sorted by its names. -/
theorem not_lockstep_paired : ¬ ∀ q : Query, q.CrossJoinsBare → ∀ s, q.compile.result = .ok s →
    ∃ f, q.fingerprint.result = .ok f ∧ f.values = s.params.map Prod.snd := by
  intro h
  obtain ⟨f, hf, -⟩ := h paired (fun _ hj ↦ (List.not_mem_nil hj).elim) _ rfl
  cases hf

end Query

end Columnar
