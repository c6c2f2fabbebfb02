import Columnar.Proofs.Cache.Lookups
import Columnar.Proofs.Keys.Counting
import Mathlib.Data.Set.Basic

/-!
# Binding values to templates

Preparing a query counts its values before it binds them to a template; asking for its SQL does not.
The two answer the same where the values fit the template (`Query.preparedAlike_iff`). A template of
the query's own statement always fits. One that is found may be that of another query under the same
key, so it fits in every reachable cache exactly when keys tell how many values there are
(`preparedAlike_reached`). They do where no text in a key has an opening brace; a text that spells
out a placeholder is not told from a literal (`not_preparedAlike_spelled`).
-/

namespace Columnar

/-! ### One query -/

namespace Query

/-- What preparing the query answers: its SQL, its parameters and its hints. -/
def prepared (q : Query) (c : TemplateCache) : Except Failure (String × Params × List String) :=
  (q.prepare.outcome c).1.map fun e ↦ (e.sql, e.params, e.suggestions)

/-- The query is answered the same, and leaves the cache the same, whether it is prepared or asked
for its SQL. -/
def PreparedAlike (q : Query) (c : TemplateCache) : Prop :=
  q.toSql.outcome c = (q.prepared c, (q.prepare.outcome c).2)

/-- Whatever the answer is, it is the SQL of the query's template, with all parameters of the
template bound to all values of the query. -/
def BindsAll (q : Query) (c : TemplateCache)
    (answer : Except Failure (String × Params × List String)) : Prop :=
  ∀ sql params hints, answer = .ok (sql, params, hints) → ∃ t values,
    (q.templateFor.outcome c).1 = .ok (t, values) ∧ sql = t.sql ∧
      params.map Prod.fst = t.paramNames ∧ params.map Prod.snd = values

/-- The template that the query is answered has a parameter for each of its values. -/
def Fits (q : Query) (c : TemplateCache) : Prop :=
  ∀ t values, (q.templateFor.outcome c).1 = .ok (t, values) → values.length = t.paramNames.length

variable {q : Query} {c : TemplateCache} {t : Template} {values : List Value}

/-- Values that fit are bound the same; others are refused by one and not by the other. -/
theorem bind_cases (q : Query) (c : TemplateCache) : q.Fits c ∧ q.PreparedAlike c ∨
    ∃ t values, (q.templateFor.outcome c).1 = .ok (t, values) ∧
      values.length ≠ t.paramNames.length ∧
      (q.prepare.outcome c).1 = .error (.bindingCount t.paramNames.length values.length) ∧
      (q.toSql.outcome c).1 = .ok (t.sql, t.paramNames.zip values, t.suggestions) := by
  unfold Fits PreparedAlike prepared
  rw [outcome_toSql, outcome_prepare_eq]
  rcases q.templateFor.outcome c with ⟨e | ⟨t, values⟩, c'⟩
  · refine .inl ⟨?_, rfl⟩
    rintro t values ⟨⟩
  · simp only [Template.bind]
    by_cases hfit : values.length ≠ t.paramNames.length
    · rw [if_pos hfit]
      exact .inr ⟨t, values, rfl, hfit, rfl, rfl⟩
    · rw [if_neg hfit]
      refine .inl ⟨?_, rfl⟩
      rintro t' values' ⟨⟩
      exact not_not.mp hfit

theorem preparedAlike_iff : q.PreparedAlike c ↔ q.Fits c := by
  rcases bind_cases q c with ⟨hfits, halike⟩ | ⟨t, values, ht, hnot, hprepare, hsql⟩
  · exact iff_of_true halike hfits
  · refine iff_of_false (fun halike ↦ ?_) fun hfits ↦ hnot (hfits t values ht)
    rw [PreparedAlike, prepared, hprepare] at halike
    rw [congrArg Prod.fst halike] at hsql
    cases hsql

/-- The SQL of a query binds all of its values when they fit. -/
theorem Fits.bindsAll (h : q.Fits c) : q.BindsAll c (q.toSql.outcome c).1 := by
  intro sql params hints hanswer
  rw [outcome_toSql] at hanswer
  rcases ho : q.templateFor.outcome c with ⟨e | ⟨t, values⟩, c'⟩ <;> rw [ho] at hanswer <;>
    cases hanswer
  have hfit := h t values (congrArg Prod.fst ho)
  refine ⟨t, values, rfl, rfl, ?_, ?_⟩
  · exact List.map_fst_zip (Nat.le_of_eq hfit.symm)
  · exact List.map_snd_zip (Nat.le_of_eq hfit)

/-- Whatever the cache holds, a query that is prepared binds all of its values. -/
theorem bindsAll_prepared (q : Query) (c : TemplateCache) : q.BindsAll c (q.prepared c) := by
  rcases bind_cases q c with ⟨hfits, halike⟩ | ⟨t, values, -, -, hprepare, -⟩
  · have hbinds := hfits.bindsAll
    rwa [halike] at hbinds
  · rw [prepared, hprepare]
    rintro sql params hints ⟨⟩

end Query

/-! ### Reachable caches -/

/-- Keys tell how many values there are: whoever finds the own template of another query has as many
values as that query. -/
def LengthsDecided (queries : Set Query) : Prop :=
  ∀ q ∈ queries, ∀ q' ∈ queries, ∀ f f' t, q.fingerprint.result = .ok f → q'.OwnTemplate f' t →
    f.key = f'.key → f.values.length = f'.values.length

/-- Keys without braces in their texts tell how many values there are. -/
theorem lengthsDecided_of_unbraced {queries : Set Query} (h : ∀ q ∈ queries, q.KeyUnbraced) :
    LengthsDecided queries := by
  intro q hq q' hq' f f' t hf hown hkey
  exact Query.length_values_of_key (h q hq) (h q' hq') hf hown.fingerprint hkey

namespace TemplateCache

/-- A use for the queries: it stores nothing but what their lookups do. -/
structure Use.Serves (queries : Set Query) (use : Use) : Prop where
  mem : ∀ q, use.query? = some q → q ∈ queries
  ne_put : ∀ key t, use ≠ .op (.put key t)

/-- A cache after uses for the queries, empty at first. -/
def Reached (queries : Set Query) (c : TemplateCache) : Prop :=
  ∃ (new : TemplateCache) (uses : List Use), new.entries = [] ∧
    (∀ use ∈ uses, use.Serves queries) ∧ c = new.after uses

variable {queries : Set Query} {c : TemplateCache}

/-- A call on one of the queries reaches a cache. -/
theorem Reached.of_call {new : TemplateCache} (hempty : new.entries = []) {call : CacheCall}
    (h : ∀ q, call.query? = some q → q ∈ queries) : (new.after [.call call]).Reached queries := by
  refine ⟨new, [.call call], hempty, fun use huse ↦ ?_, rfl⟩
  obtain rfl := List.mem_singleton.mp huse
  exact ⟨h, by rintro key t ⟨⟩⟩

/-- Each template in a cache that is reached is the own one of one of the queries. -/
theorem Reached.own_of_mem (hc : c.Reached queries) {key : String} {t : Template}
    (h : (key, t) ∈ c.entries) : ∃ q ∈ queries, ∃ f, q.OwnTemplate f t ∧ f.key = key := by
  obtain ⟨new, uses, hempty, hserves, rfl⟩ := hc
  obtain ⟨before, use, later, rfl, hstored⟩ :=
    storedBy_of_mem (tidy_of_entries_eq_nil hempty) hempty uses (key, t) h
  have huse := hserves use (by simp)
  rcases hstored with hput | ⟨q, f, hquery, hown, hkey, -⟩
  · exact absurd hput (huse.ne_put key t)
  · exact ⟨q, huse.mem q hquery, f, hown, hkey⟩

theorem Reached.tidy (hc : c.Reached queries) : c.Tidy := by
  obtain ⟨new, uses, hempty, -, rfl⟩ := hc
  exact (tidy_of_entries_eq_nil hempty).after uses

end TemplateCache

namespace Query

variable {queries : Set Query} {c : TemplateCache} {q : Query}

open TemplateCache (Reached)

/-- In a cache that is reached the values fit, when keys tell how many there are. -/
theorem fits_of_reached (hd : LengthsDecided queries) (hc : c.Reached queries) (hq : q ∈ queries) :
    q.Fits c := by
  intro t values ht
  have hlookup := lookup_templateFor hc.tidy q
  rw [ht] at hlookup
  generalize (q.templateFor.outcome c).2 = c' at hlookup
  cases hlookup with
  | @found f t before after hf held =>
    have hmem : (f.key, t) ∈ c.entries := by simp [held]
    obtain ⟨q', hq', f', hown, hkey⟩ := hc.own_of_mem hmem
    rw [hd q hq q' hq' f f' t hf hown hkey.symm, hown.length_eq]
  | added own => exact own.length_eq.symm
  | replaced own => exact own.length_eq.symm

end Query

/-- A query that is looked up after another one under its key finds the other one's template. -/
theorem LengthsDecided.of_fits {queries : Set Query}
    (h : ∀ c, TemplateCache.Reached queries c → ∀ q ∈ queries, q.Fits c) :
    LengthsDecided queries := by
  intro q hq q' hq' f f' t hf hown hkey
  let new : TemplateCache := { capacity := 1, positive := Nat.one_pos }
  let use : TemplateCache.Use := .call (.toSql 0 q')
  have hreached : TemplateCache.Reached queries (new.after [use]) := by
    refine .of_call rfl ?_
    rintro p ⟨⟩
    exact hq'
  have hleft : use.leave new = (q'.templateFor.outcome new).2 :=
    TemplateCache.leave_of_query rfl new
  obtain ⟨c, hfound⟩ := hown.outcome_templateFor_after (c := new) List.not_mem_nil hf hkey
  have hfit := h (use.leave new) hreached q hq t f.values (by rw [hleft, hfound])
  exact hfit.trans hown.length_eq

/-- Whatever a cache holds, a query that is prepared binds all of its values to all parameters, and
its SQL is answered the same unless it is refused for their number. In the caches that the queries
reach it is always answered the same, with all parameters bound, exactly when their keys tell how
many values there are; they do when no text in them has an opening brace. -/
theorem preparedAlike_reached (queries : Set Query) :
    (∀ (q : Query) (c : TemplateCache), q.BindsAll c (q.prepared c) ∧
      (q.PreparedAlike c ∨ ∃ expected given, expected ≠ given ∧
        q.prepared c = .error (.bindingCount expected given))) ∧
    ((∀ q ∈ queries, q.KeyUnbraced) → LengthsDecided queries) ∧
    (LengthsDecided queries ↔ ∀ c, TemplateCache.Reached queries c → ∀ q ∈ queries,
      q.PreparedAlike c ∧ q.BindsAll c (q.toSql.outcome c).1) := by
  refine ⟨fun q c ↦ ⟨Query.bindsAll_prepared q c, ?_⟩, lengthsDecided_of_unbraced, ?_, ?_⟩
  · rcases Query.bind_cases q c with ⟨-, halike⟩ | ⟨t, values, -, hnot, hprepare, -⟩
    · exact .inl halike
    · refine .inr ⟨_, _, hnot.symm, ?_⟩
      rw [Query.prepared, hprepare]
      rfl
  · intro hd c hc q hq
    have hfits := Query.fits_of_reached hd hc hq
    exact ⟨Query.preparedAlike_iff.mpr hfits, hfits.bindsAll⟩
  · intro h
    exact LengthsDecided.of_fits fun c hc q hq ↦ Query.preparedAlike_iff.mp (h c hc q hq).1

private def ordersAbove (n : Int) : Query :=
  .mk { condition := some (.expression ⟨{}, .column ""
    { name := "id", type := "UInt64", table := some "orders" } (.literal " > " (.int n)
      (.done ""))⟩) } [] (some ({ name := "orders" }, none))

/-- A query that finds the template of one with another value is answered its own value, whether it
is prepared or asked for its SQL. -/
theorem preparedAlike_reached_orders :
    (∀ q ∈ ({ordersAbove 3, ordersAbove 5} : Set Query), q.KeyUnbraced) ∧
    ∃ c, TemplateCache.Reached {ordersAbove 3, ordersAbove 5} c ∧ c.size = 1 ∧
      (ordersAbove 5).PreparedAlike c ∧
      (ordersAbove 5).BindsAll c ((ordersAbove 5).toSql.outcome c).1 ∧
      (ordersAbove 5).prepared c = .ok
        ("SELECT * FROM `orders` WHERE `orders`.`id` > \x7bp_1:UInt64\x7d",
          [("p_1", .int 5)], []) := by
  obtain ⟨-, hunbraced, hdecided⟩ := preparedAlike_reached {ordersAbove 3, ordersAbove 5}
  have hkeys : ∀ q ∈ ({ordersAbove 3, ordersAbove 5} : Set Query), q.KeyUnbraced := by
    rintro q (rfl | rfl) <;> decide
  let new : TemplateCache := { capacity := 1, positive := Nat.one_pos }
  have hreached : TemplateCache.Reached {ordersAbove 3, ordersAbove 5}
      (new.after [.call (.toSql 0 (ordersAbove 3))]) := by
    refine .of_call rfl ?_
    rintro q ⟨⟩
    exact .inl rfl
  obtain ⟨halike, hbinds⟩ := hdecided.mp (hunbraced hkeys) _ hreached (ordersAbove 5) (.inr rfl)
  exact ⟨hkeys, _, hreached, rfl, halike, hbinds, rfl⟩

/-! ### A text that spells out a placeholder -/

private def usersKey : Column := { name := "id", type := "UInt64", table := some "users" }

private def usersWhere (body : Body) : Query :=
  .mk { condition := some (.expression ⟨{}, body⟩) } []
    (some ({ name := "users", columns := [("id", usersKey)] }, none))

private def five : Query := usersWhere (.column "" usersKey (.literal " = " (.int 5) (.done "")))

private def spelled : Query := usersWhere (.done "users.id = \x7b:UInt64\x7d")

/-- A condition that spells out a placeholder has the key of one with a literal in that place. Once
the latter was looked up, the SQL of the former has a parameter that nothing is bound to, and
preparing it fails. -/
theorem not_preparedAlike_spelled :
    ∃ c, TemplateCache.Reached {five, spelled} c ∧ ¬ spelled.PreparedAlike c ∧
      (spelled.toSql.outcome c).1 =
        .ok ("SELECT * FROM `users` WHERE `users`.`id` = \x7bp_1:UInt64\x7d", [], []) ∧
      spelled.prepared c = .error (.bindingCount 1 0) := by
  let new : TemplateCache := { capacity := 1, positive := Nat.one_pos }
  refine ⟨new.after [.call (.toSql 0 five)], .of_call rfl ?_, ?_, rfl, rfl⟩
  · rintro q ⟨⟩
    exact .inl rfl
  · intro halike
    have hanswer := congrArg Prod.fst halike
    cases hanswer

end Columnar
