import Columnar.Proofs.Cache.Lookups
import Columnar.Proofs.Keys.Hints

/-!
# Hints through a cache

A template keeps the hints of the statement that it was made of, and whoever finds it is answered
those. `suggestions_of_templateFor` is the step: the template of a query has its hints as long as
queries with one key have the same. `hints_onRuns` says so for whole runs, where keys that do not
tell the hints are the only way to be answered those of another query. Keys leave out what a query
recorded, so legible queries are answered their own hints when they recorded what their orderings
give (`Query.Hinted`), and one that was ordered before it had a source may be answered others
(`not_hints_onRuns_sourceLast`).
-/

namespace Columnar

/-! ### What keys have to tell -/

/-- Two queries have statements, and both stand under one key. -/
structure Query.ShareKey (q q' : Query) (s s' : Statement) : Prop where
  left : q.compile.result = .ok s
  right : q'.compile.result = .ok s'
  key : ∃ f f', q.fingerprint.result = .ok f ∧ q'.fingerprint.result = .ok f' ∧ f.key = f'.key

/-- Queries with one key have the same hints. -/
def HintsDecided (queries : List Query) : Prop :=
  ∀ q ∈ queries, ∀ q' ∈ queries, ∀ s s', q.ShareKey q' s s' → s.suggestions = s'.suggestions

/-- Queries with one key recorded the same hints while they were built. -/
def RecordsDecided (queries : List Query) : Prop :=
  ∀ q ∈ queries, ∀ q' ∈ queries, ∀ s s', q.ShareKey q' s s' →
    q.clauses.suggestions = q'.clauses.suggestions

/-- Queries that can be read back from their keys and agree on the tables of one name. -/
structure ReadBack (queries : List Query) : Prop where
  legible : ∀ q ∈ queries, q.Legible
  tables : ∀ q ∈ queries, ∀ q' ∈ queries, q.SharesTables q'

namespace ReadBack

variable {queries : List Query} (h : ReadBack queries)

include h

/-- Keys tell the hints when they tell those that were recorded. -/
theorem hintsDecided_iff : HintsDecided queries ↔ RecordsDecided queries := by
  unfold HintsDecided RecordsDecided
  refine forall₂_congr fun q hq ↦ forall₂_congr fun q' hq' ↦ forall₂_congr fun s s' ↦ ?_
  refine forall_congr' fun ⟨hs, hs', f, f', hf, hf', hkey⟩ ↦ ?_
  exact Query.suggestions_eq_iff (h.legible q hq) (h.legible q' hq') hs hs' hf hf' hkey
    (h.tables q hq q' hq')

/-- Keys tell what was recorded when it is what the orderings give. -/
theorem recordsDecided (hhinted : ∀ q ∈ queries, q.Hinted) : RecordsDecided queries := by
  rintro q hq q' hq' s s' ⟨hs, hs', f, f', hf, hf', hkey⟩
  have hl := h.legible q hq
  have hl' := h.legible q' hq'
  have hshare := h.tables q hq q' hq'
  exact Query.suggestions_eq_of_hinted (Query.alike_of_key hl hl' hshare hs hs' hf hf' hkey)
    (Query.table?_of_key hl hl' hs hs' hf hf' hkey hshare) (hhinted q hq) (hhinted q' hq')

/-- The settings of a query that is read back are named. -/
theorem settingsNamed {q : Query} (hq : q ∈ queries) : q.SettingsNamed := by
  intro v hv
  rw [(h.legible q hq).clauses.fitting] at hv
  cases hv

end ReadBack

namespace Query

variable {queries : List Query} {c : TemplateCache} {q : Query} {s : Statement}

/-- The template that a query is answered has the hints of the query, when keys tell them. -/
theorem suggestions_of_templateFor (hd : HintsDecided queries) (hc : c.Sound queries)
    (hq : q ∈ queries) (hs : q.compile.result = .ok s) {t : Template} {values : List Value}
    (ho : (q.templateFor.outcome c).1 = .ok (t, values)) : t.suggestions = s.suggestions := by
  rw [outcome_templateFor] at ho
  rcases hf : q.fingerprint.result with e | f <;> rw [hf] at ho
  · cases ho
  rcases ht : c.find? f.key with _ | held <;> simp only [ht] at ho
  · rw [hs] at ho
    dsimp only at ho
    split at ho
    · cases ho
    · cases ho
      rfl
  · cases ho
    obtain ⟨q', hq', f', s', hf', hkey, hs', rfl⟩ := hc _ (TemplateCache.mem_of_find? ht)
    exact (hd q hq q' hq' s s' ⟨hs, hs', f, f', hf, hf', hkey.symm⟩).symm

/-- A query that has a statement is answered a template and as many values as fit it, when it is
read back from its key. -/
theorem fits_of_templateFor (hread : ReadBack queries) (hc : c.Sound queries) (hq : q ∈ queries)
    (hj : q.CrossJoinsBare) (hs : q.compile.result = .ok s) :
    ∃ t values c', q.templateFor.outcome c = (.ok (t, values), c') ∧
      values.length = t.paramNames.length := by
  obtain ⟨f, hf, -⟩ := fingerprint_of_compile hj (hread.settingsNamed hq) hs
  have hlen := length_params_of_fingerprint hj hs hf
  rw [outcome_templateFor, hf]
  rcases ht : c.find? f.key with _ | held <;> simp only [ht]
  · simp only [hs, hlen, ne_eq, not_true_eq_false, if_false]
    refine ⟨_, _, _, rfl, ?_⟩
    rw [Template.ofStatement, List.length_map, hlen]
  · refine ⟨_, _, _, rfl, ?_⟩
    obtain ⟨q', hq', f', s', hf', hkey, hs', rfl⟩ := hc _ (TemplateCache.mem_of_find? ht)
    have halike := alike_of_key (hread.legible q hq) (hread.legible q' hq')
      (hread.tables q hq q' hq') hs hs' hf hf' hkey.symm
    obtain ⟨-, hnames, -⟩ := same_statement halike hs hs'
    rw [Template.ofStatement, ← hnames, List.length_map, hlen]

end Query

/-! ### Calls and runs -/

namespace CacheCall

variable {queries : List Query} {c : TemplateCache} {call : CacheCall} {q : Query}

/-- The hints that a call is answered; clearing answers none. -/
def hints : CacheCall → Session TemplateCache (Option (List String))
  | templateFor _ q => do
    let (t, _) ← q.templateFor
    return some t.suggestions
  | prepare _ q => do
    let e ← q.prepare
    return some e.suggestions
  | toSql _ q => do
    let (_, _, hints) ← q.toSql
    return some hints
  | clear _ => do
    modify TemplateCache.clear
    return none

/-- The hints that calls made one after another are answered. -/
def hintsAll : List CacheCall → TemplateCache → List (Except Failure (Option (List String)))
  | [], _ => []
  | call :: rest, c =>
    let (answer, c) := call.hints.outcome c
    answer :: hintsAll rest c

/-- Hints that a call is answered are those of its query's own statement. -/
def HintsRight (call : CacheCall) (answer : Except Failure (Option (List String))) : Prop :=
  ∀ q s, call.query? = some q → q.compile.result = .ok s →
    ∀ hints, answer = .ok hints → hints = some s.suggestions

/-- A call on a query that has a statement is answered hints. -/
def HintsGiven (call : CacheCall) (answer : Except Failure (Option (List String))) : Prop :=
  ∀ q s, call.query? = some q → q.compile.result = .ok s → ∃ hints, answer = .ok (some hints)

/-- Runs of calls on the queries, through a cache that is empty at first, are answered so. -/
def OnRuns (queries : List Query)
    (p : CacheCall → Except Failure (Option (List String)) → Prop) : Prop :=
  ∀ (calls : List CacheCall) (c : TemplateCache), c.entries = [] →
    (∀ call ∈ calls, ∀ q, call.query? = some q → q ∈ queries) →
    List.Forall₂ p calls (hintsAll calls c)

private theorem hints_of_error (hquery : call.query? = some q) {e : Failure} {c' : TemplateCache}
    (ho : q.templateFor.outcome c = (.error e, c')) : call.hints.outcome c = (.error e, c') := by
  cases call with
  | templateFor k q' | prepare k q' | toSql k q' =>
    cases hquery
    simp only [hints, Query.outcome_prepare_eq, Query.outcome_toSql, Session.outcome_bind, ho]
  | clear k => cases hquery

section

variable {t : Template} {values : List Value} {c' : TemplateCache}
  (ho : q.templateFor.outcome c = (.ok (t, values), c'))

include ho

private theorem hints_toSql (k : ClientId) :
    (toSql k q).hints.outcome c = (.ok (some t.suggestions), c') := by
  simp only [hints, Query.outcome_toSql, Session.outcome_bind, ho, Session.outcome_pure]

/-- A call is answered the hints of the template, or fails as the values do not fit it. -/
private theorem hints_of_templateFor (hquery : call.query? = some q) :
    call.hints.outcome c = (.ok (some t.suggestions), c') ∨
      values.length ≠ t.paramNames.length ∧ ∃ e, call.hints.outcome c = (.error e, c') := by
  cases call with
  | templateFor k q' =>
    cases hquery
    refine .inl ?_
    simp only [hints, Session.outcome_bind, ho, Session.outcome_pure]
  | prepare k q' =>
    cases hquery
    simp only [hints, Query.outcome_prepare_eq, Session.outcome_bind, ho, Template.bind]
    by_cases hfit : values.length = t.paramNames.length
    · rw [if_neg (not_not_intro hfit)]
      exact .inl rfl
    · rw [if_pos hfit]
      exact .inr ⟨hfit, _, rfl⟩
  | toSql k q' =>
    cases hquery
    exact .inl (hints_toSql ho k)
  | clear k => cases hquery

end

/-- One call keeps a sound cache sound. -/
theorem sound_hints (hc : c.Sound queries) (hq : ∀ q, call.query? = some q → q ∈ queries) :
    (call.hints.outcome c).2.Sound queries := by
  rcases hquery : call.query? with _ | q
  · cases call with
    | clear k => exact TemplateCache.sound_clear
    | _ => cases hquery
  · have hsound := Query.sound_of_templateFor hc (hq q hquery)
    rcases ho : q.templateFor.outcome c with ⟨e | ⟨t, values⟩, c'⟩ <;> rw [ho] at hsound
    · rw [hints_of_error hquery ho]
      exact hsound
    · rcases hints_of_templateFor ho hquery with hcall | ⟨-, e, hcall⟩ <;> rw [hcall] <;>
        exact hsound

/-- One call on a sound cache is answered the right hints, when keys tell them. -/
theorem hintsRight_hints (hd : HintsDecided queries) (hc : c.Sound queries)
    (hq : ∀ q, call.query? = some q → q ∈ queries) :
    call.HintsRight (call.hints.outcome c).1 := by
  intro q s hquery hs hints hhints
  rcases ho : q.templateFor.outcome c with ⟨e | ⟨t, values⟩, c'⟩
  · rw [hints_of_error hquery ho] at hhints
    cases hhints
  · have hown := Query.suggestions_of_templateFor hd hc (hq q hquery) hs (congrArg Prod.fst ho)
    rcases hints_of_templateFor ho hquery with hcall | ⟨-, e, hcall⟩ <;> rw [hcall] at hhints
    · rw [← Except.ok.inj hhints, hown]
    · cases hhints

/-- One call on a sound cache is answered hints, when its query is read back from its key. -/
theorem hintsGiven_hints (hread : ReadBack queries) (hj : ∀ q ∈ queries, q.CrossJoinsBare)
    (hc : c.Sound queries) (hq : ∀ q, call.query? = some q → q ∈ queries) :
    call.HintsGiven (call.hints.outcome c).1 := by
  intro q s hquery hs
  have hmem := hq q hquery
  obtain ⟨t, values, c', ho, hfit⟩ := Query.fits_of_templateFor hread hc hmem (hj q hmem) hs
  rcases hints_of_templateFor ho hquery with hcall | ⟨hnot, -⟩
  · exact ⟨t.suggestions, congrArg Prod.fst hcall⟩
  · exact absurd hfit hnot

/-- What holds of one call on a sound cache holds of all calls of a run. -/
theorem onRuns {p : CacheCall → Except Failure (Option (List String)) → Prop}
    (hp : ∀ (call : CacheCall) (c : TemplateCache), c.Sound queries →
      (∀ q, call.query? = some q → q ∈ queries) → p call (call.hints.outcome c).1) :
    OnRuns queries p := by
  intro calls c hempty hq
  have hc : c.Sound queries := TemplateCache.sound_of_entries_eq_nil hempty
  clear hempty
  induction calls generalizing c with
  | nil => exact .nil
  | cons call calls ih =>
    have hcall := hq call List.mem_cons_self
    exact .cons (hp call c hc hcall) (ih (call.hints.outcome c).2
      (fun other hmem ↦ hq other (List.mem_cons_of_mem _ hmem)) (sound_hints hc hcall))

/-- A query is answered the hints of the one that was prepared before it under the same key. -/
theorem hintsAll_pair {q' : Query} {s s' : Statement} (hj' : q'.CrossJoinsBare)
    (hshare : q.ShareKey q' s s') : ∃ c : TemplateCache, c.entries = [] ∧
      hintsAll [.toSql 0 q', .toSql 0 q] c =
        [.ok (some s'.suggestions), .ok (some s'.suggestions)] := by
  obtain ⟨hs, hs', f, f', hf, hf', hkey⟩ := hshare
  let c : TemplateCache := { capacity := 1, positive := Nat.one_pos }
  have hown : q'.OwnTemplate f' (.ofStatement s') := {
    fingerprint := hf'
    statement := ⟨s', hs', rfl⟩
    length_eq := by
      rw [Template.ofStatement, List.length_map, Query.length_params_of_fingerprint hj' hs' hf'] }
  have hfirst := hown.outcome_templateFor (c := c) List.not_mem_nil
  obtain ⟨c', hsecond⟩ := hown.outcome_templateFor_after (c := c) List.not_mem_nil hf hkey
  rw [hfirst] at hsecond
  refine ⟨c, rfl, ?_⟩
  simp only [hintsAll, hints_toSql hfirst, hints_toSql hsecond]
  rfl

/-- Keys tell the hints when runs are answered the right ones. -/
theorem hintsDecided_of_onRuns (hj : ∀ q ∈ queries, q.CrossJoinsBare)
    (h : OnRuns queries HintsRight) : HintsDecided queries := by
  intro q hq q' hq' s s' hshare
  obtain ⟨c, hempty, hanswers⟩ := hintsAll_pair (hj q' hq') hshare
  have hruns := h [.toSql 0 q', .toSql 0 q] c hempty (by
    rintro call hcall p hp
    simp only [List.mem_cons, List.not_mem_nil, or_false] at hcall
    rcases hcall with rfl | rfl <;> cases hp <;> assumption)
  rw [hanswers, List.forall₂_cons, List.forall₂_cons] at hruns
  have hsecond := hruns.2.1 q s rfl hshare.left _ rfl
  exact (Option.some.inj hsecond).symm

end CacheCall

/-- Runs through one cache are answered the hints of each query's own statement when keys tell the
hints, as they do for queries that are read back from their keys and recorded what their orderings
give. When no join of all rows has a condition it is only then: queries that are read back are
always answered, and with their own hints exactly when those with one key recorded the same. -/
theorem hints_onRuns (queries : List Query) :
    (HintsDecided queries → CacheCall.OnRuns queries CacheCall.HintsRight) ∧
    (ReadBack queries → (∀ q ∈ queries, q.Hinted) →
      CacheCall.OnRuns queries CacheCall.HintsRight) ∧
    ((∀ q ∈ queries, q.CrossJoinsBare) →
      (CacheCall.OnRuns queries CacheCall.HintsRight → HintsDecided queries) ∧
      (ReadBack queries → CacheCall.OnRuns queries CacheCall.HintsGiven ∧
        (CacheCall.OnRuns queries CacheCall.HintsRight ↔ RecordsDecided queries))) := by
  have hright : HintsDecided queries → CacheCall.OnRuns queries CacheCall.HintsRight :=
    fun hd ↦ CacheCall.onRuns fun _ _ hc hq ↦ CacheCall.hintsRight_hints hd hc hq
  refine ⟨hright, fun hread hhinted ↦ ?_, fun hj ↦ ?_⟩
  · exact hright (hread.hintsDecided_iff.mpr (hread.recordsDecided hhinted))
  · have hdecided := CacheCall.hintsDecided_of_onRuns hj
    refine ⟨hdecided, fun hread ↦ ⟨?_, ?_⟩⟩
    · exact CacheCall.onRuns fun _ _ hc hq ↦ CacheCall.hintsGiven_hints hread hj hc hq
    · rw [← hread.hintsDecided_iff]
      exact ⟨hdecided, hright⟩

/-! ### Two orders of building -/

private def userId : Column := { name := "id", type := "UInt64", table := some "users" }

private def email : Column := { name := "email", type := "String", table := some "users" }

private def users : Table :=
  { name := "users", columns := [("id", userId), ("email", email)],
    options := { orderBy := ["id"] } }

private def emailHint : String :=
  s!"Ordering by {email.name} not in physical ORDER BY; may be inefficient."

private def byEmail (hints : List String) (prewhere : Option Operand) : Query :=
  .mk { orderBy := [⟨.column email, .asc⟩], suggestions := hints, prewhere } []
    (some (users, none))

private def above (n : Int) : Operand :=
  .expression ⟨{}, .column "" userId (.literal " > " (.int n) (.done ""))⟩

private theorem legible_byEmail (hints : List String) {prewhere : Option Operand}
    (h : ∀ o ∈ prewhere, o.legible = true) : (byEmail hints prewhere).Legible where
  clauses := {
    fitting := rfl
    selection := by rintro e ⟨⟩
    joins := by rintro j ⟨⟩
    arrayJoins := by rintro a ⟨⟩
    conditions := by
      rintro o (ho | ho | ho)
      · exact h o ho
      · cases ho
      · cases ho
    groupBy := by rintro o ⟨⟩
    orderBy := by
      intro o ho
      obtain rfl := List.mem_singleton.mp ho
      decide
    numbers := by
      change lacks ['|'] Value.null.display = true ∧ lacks ['|'] Value.null.display = true
      decide
    sample := by rintro s ⟨⟩
    settings := ⟨List.nodup_nil, by rintro e ⟨⟩⟩
    windows := by rintro e ⟨⟩ }
  ctes := by rintro e ⟨⟩
  source := by
    rintro t inner ⟨⟩
    exact ⟨by decide, by decide, by rintro i ⟨⟩⟩

private theorem readBack_byEmail {queries : List Query}
    (h : ∀ q ∈ queries, ∃ hints, ∃ prewhere : Option Operand,
      q = byEmail hints prewhere ∧ ∀ o ∈ prewhere, o.legible = true) : ReadBack queries where
  legible := by
    intro q hq
    obtain ⟨hints, prewhere, rfl, hlegible⟩ := h q hq
    exact legible_byEmail hints hlegible
  tables := by
    intro q hq q' hq'
    obtain ⟨hints, prewhere, rfl, -⟩ := h q hq
    obtain ⟨hints', prewhere', rfl, -⟩ := h q' hq'
    rintro t inner t' inner' ⟨⟩ ⟨⟩ _ _
    rfl

private def sourceFirst : Except Failure Query := do
  (← Query.empty.fromSource (users, none)).orderBy (.column email) (.text "ASC")

private def sourceLast : Except Failure Query := do
  (← Query.empty.orderBy (.column email) (.text "ASC")).fromSource (users, none)

private theorem hinted_sourceFirst {q : Query} (h : sourceFirst = .ok q) : q.Hinted := by
  obtain ⟨q₀, hq₀, h⟩ := Succeeding.bind_eq_ok.mp h
  cases hq₀
  have hsource : (Query.mk {} [] (some (users, none))).Hinted := Query.hinted_of_eq_nil rfl rfl
  exact hsource.addOrder rfl h

/-- Two queries that differ in a value and were ordered after they had a source: runs of them are
answered the hint of the ordering. -/
theorem hints_onRuns_above : ∃ q, sourceFirst = .ok q ∧
    CacheCall.OnRuns [q.prewhere (above 3), q.prewhere (above 5)] CacheCall.HintsRight ∧
    CacheCall.OnRuns [q.prewhere (above 3), q.prewhere (above 5)] CacheCall.HintsGiven := by
  have hfirst : sourceFirst = .ok (byEmail [emailHint] none) := rfl
  have hmem {p : Query} (hp : p ∈ [(byEmail [emailHint] none).prewhere (above 3),
      (byEmail [emailHint] none).prewhere (above 5)]) :
      ∃ n, (n = 3 ∨ n = 5) ∧ p = (byEmail [emailHint] none).prewhere (above n) := by
    simp only [List.mem_cons, List.not_mem_nil, or_false] at hp
    rcases hp with rfl | rfl
    · exact ⟨3, .inl rfl, rfl⟩
    · exact ⟨5, .inr rfl, rfl⟩
  refine ⟨_, hfirst, ?_⟩
  have hread : ReadBack [(byEmail [emailHint] none).prewhere (above 3),
      (byEmail [emailHint] none).prewhere (above 5)] := readBack_byEmail fun p hp ↦ by
    obtain ⟨n, hn, rfl⟩ := hmem hp
    refine ⟨[emailHint], some (above n), rfl, ?_⟩
    rintro o ⟨⟩
    rcases hn with rfl | rfl <;> decide
  obtain ⟨-, hright, hgiven⟩ := hints_onRuns [(byEmail [emailHint] none).prewhere (above 3),
    (byEmail [emailHint] none).prewhere (above 5)]
  constructor
  · refine hright hread fun p hp ↦ ?_
    obtain ⟨n, -, rfl⟩ := hmem hp
    exact (hinted_sourceFirst hfirst).modify rfl rfl rfl
  · refine ((hgiven fun p hp j hj ↦ ?_).2 hread).1
    obtain ⟨n, -, rfl⟩ := hmem hp
    cases hj

/-- A query that is ordered before it has a source has no hint and the key of the one that is
ordered afterwards; whichever comes second through a cache is answered the hints of the other. -/
theorem not_hints_onRuns_sourceLast : ∃ q q', sourceLast = .ok q ∧ sourceFirst = .ok q' ∧
    ReadBack [q, q'] ∧ (∀ p ∈ [q, q'], p.CrossJoinsBare) ∧
    ¬ CacheCall.OnRuns [q, q'] CacheCall.HintsRight := by
  have hmem {p : Query} (hp : p ∈ [byEmail [] none, byEmail [emailHint] none]) :
      ∃ hints, p = byEmail hints none := by
    simp only [List.mem_cons, List.not_mem_nil, or_false] at hp
    rcases hp with rfl | rfl <;> exact ⟨_, rfl⟩
  have hbare : ∀ p ∈ [byEmail [] none, byEmail [emailHint] none], p.CrossJoinsBare := by
    intro p hp j hj
    obtain ⟨hints, rfl⟩ := hmem hp
    cases hj
  refine ⟨byEmail [] none, byEmail [emailHint] none, rfl, rfl, ?_, hbare, fun hruns ↦ ?_⟩
  · refine readBack_byEmail fun p hp ↦ ?_
    obtain ⟨hints, rfl⟩ := hmem hp
    exact ⟨hints, none, rfl, by rintro o ⟨⟩⟩
  · have hdecided := CacheCall.hintsDecided_of_onRuns hbare hruns
    have hsame := hdecided (byEmail [] none) (by simp) (byEmail [emailHint] none) (by simp) _ _
      ⟨rfl, rfl, _, _, rfl, rfl, rfl⟩
    cases hsame

end Columnar
