import Columnar.Connection
import Columnar.Proofs.Cache.Entries
import Columnar.Proofs.Templates
import Mathlib.Data.List.Forall2

/-!
# Transparency of the cache

Databases that share a template cache prepare queries through it, in any order and with any
capacity. As long as queries under one key compile alike, no answer tells what the cache holds:
`Sound` is the invariant of the cache, `sound_of_templateFor` says that preparing a query keeps it,
`answer_of_templateFor` that it answers as a fresh statement does, and `faithful_runAll` says so for
whole runs.
-/

namespace Columnar

/-- Two queries both fail to compile, or have statements that differ in the values of their
parameters and in their hints at most. -/
def Query.CompilesAlike (q q' : Query) : Prop :=
  match q.compile.result, q'.compile.result with
  | .error _, .error _ => True
  | .ok s, .ok s' =>
    s.sql = s'.sql ∧ s.params.map Prod.fst = s'.params.map Prod.fst ∧ s.columns = s'.columns
  | _, _ => False

/-- Queries with the same key compile alike. -/
def KeysDecide (queries : List Query) : Prop :=
  ∀ q ∈ queries, ∀ q' ∈ queries, ∀ f f', q.fingerprint.result = .ok f →
    q'.fingerprint.result = .ok f' → f.key = f'.key → q.CompilesAlike q'

namespace TemplateCache

/-- Every template that is held is that of a statement of one of the queries, under its key. -/
def Sound (queries : List Query) (c : TemplateCache) : Prop :=
  ∀ e ∈ c.entries, ∃ q ∈ queries, ∃ f s, q.fingerprint.result = .ok f ∧ f.key = e.1 ∧
    q.compile.result = .ok s ∧ e.2 = .ofStatement s

variable {queries : List Query} {c : TemplateCache}

/-- An empty cache is sound. -/
theorem sound_of_entries_eq_nil (h : c.entries = []) : c.Sound queries := by
  intro e he
  rw [h] at he
  cases he

/-- Clearing makes a cache sound. -/
theorem sound_clear : c.clear.Sound queries := sound_of_entries_eq_nil rfl

/-- Reading a key keeps a cache sound. -/
theorem sound_consult (h : c.Sound queries) (key : String) : (c.consult key).2.Sound queries :=
  fun e he ↦ h e (mem_of_mem_consult he)

/-- Storing the template of a statement under the key of its query keeps a cache sound. -/
theorem sound_store (h : c.Sound queries) {q : Query} (hq : q ∈ queries) {f : Fingerprint}
    {s : Statement} (hf : q.fingerprint.result = .ok f) (hs : q.compile.result = .ok s) :
    (c.store f.key (.ofStatement s)).2.Sound queries := by
  intro e he
  rcases mem_of_mem_store he with he | rfl
  · exact h e he
  · exact ⟨q, hq, f, s, hf, rfl, hs, rfl⟩

end TemplateCache

namespace Query

/-- What a query is answered when it is prepared: the text and the parameters of its own statement,
or a failure when it has none or its settings are not named. -/
def Answers (q : Query) (r : Except Failure (String × Params)) : Prop :=
  (∀ s, q.compile.result = .ok s → q.SettingsNamed → r = .ok (s.sql, s.params)) ∧
  ((∃ e, r = .error e) ↔ (∃ e, q.compile.result = .error e) ∨ ¬ q.SettingsNamed)

private theorem answers_ok {q : Query} {s : Statement} (hs : q.compile.result = .ok s)
    (hn : q.SettingsNamed) : q.Answers (.ok (s.sql, s.params)) := by
  constructor
  · intro s' hs' _
    obtain rfl := Except.ok.inj (hs.symm.trans hs')
    rfl
  · constructor
    · rintro ⟨e, he⟩
      cases he
    · rintro (⟨e, he⟩ | hnot)
      · cases hs.symm.trans he
      · exact absurd hn hnot

private theorem answers_error {q : Query} {e : Failure}
    (h : ∀ s, q.compile.result = .ok s → ¬ q.SettingsNamed) : q.Answers (.error e) := by
  constructor
  · intro s hs hn
    exact absurd hn (h s hs)
  · refine ⟨fun _ ↦ ?_, fun _ ↦ ⟨e, rfl⟩⟩
    rcases hq : q.compile.result with e' | s
    · exact .inl ⟨e', rfl⟩
    · exact .inr (h s hq)

/-- Preparing a query through a sound cache keeps the cache sound. -/
theorem sound_of_templateFor {queries : List Query} {c : TemplateCache} (hc : c.Sound queries)
    {q : Query} (hq : q ∈ queries) : (q.templateFor.outcome c).2.Sound queries := by
  rw [outcome_templateFor]
  rcases hf : q.fingerprint.result with e | f
  · exact hc
  · rcases ht : c.find? f.key with _ | t <;> simp only [ht]
    · rcases hs : q.compile.result with e | s
      · exact hc
      · dsimp only
        split
        · exact hc
        · exact TemplateCache.sound_store hc hq hf hs
    · exact TemplateCache.sound_consult hc f.key

/-- Preparing a query through a sound cache answers a template and values that make up the query's
own statement; it fails only when the query has no statement or its settings are not named. -/
theorem answer_of_templateFor {queries : List Query} {c : TemplateCache} (hk : KeysDecide queries)
    (hc : c.Sound queries) {q : Query} (hq : q ∈ queries) (hj : q.CrossJoinsBare) :
    match (q.templateFor.outcome c).1 with
    | .error _ => ∀ s, q.compile.result = .ok s → ¬ q.SettingsNamed
    | .ok (t, values) => ∃ s, q.compile.result = .ok s ∧ q.SettingsNamed ∧ t.sql = s.sql ∧
        t.paramNames = s.params.map Prod.fst ∧ values = s.params.map Prod.snd := by
  rw [outcome_templateFor]
  rcases hf : q.fingerprint.result with e | f
  · intro s hs hn
    obtain ⟨f, hf', -⟩ := fingerprint_of_compile hj hn hs
    cases hf.symm.trans hf'
  · have hparams {s : Statement} (hs : q.compile.result = .ok s) :
        q.SettingsNamed ∧ f.values = s.params.map Prod.snd := by
      refine ⟨settingsNamed_of_fingerprint hs hf, ?_⟩
      rw [params_of_fingerprint hj hs hf, Bindings.values_numbered]
    rcases ht : c.find? f.key with _ | t <;> simp only [ht]
    · rcases hs : q.compile.result with e | s
      · intro s hs'
        cases hs'
      · obtain ⟨hn, hv⟩ := hparams hs
        have hlen : ¬ s.params.length ≠ f.values.length := by
          rw [hv, List.length_map]
          exact not_not_intro rfl
        simp only [if_neg hlen]
        exact ⟨s, rfl, hn, rfl, rfl, hv⟩
    · obtain ⟨q', hq', f', s', hf', hkey, hs', rfl⟩ := hc _ (TemplateCache.mem_of_find? ht)
      have halike := hk q hq q' hq' f f' hf hf' hkey.symm
      unfold CompilesAlike at halike
      rw [hs'] at halike
      rcases hs : q.compile.result with e | s <;> rw [hs] at halike
      · exact halike.elim
      · obtain ⟨hsql, hnames, -⟩ := halike
        obtain ⟨hn, hv⟩ := hparams hs
        exact ⟨s, rfl, hn, hsql.symm, hnames.symm, hv⟩

end Query

/-! ### Calls and runs -/

/-- A call that goes through the cache of a database, made on the database through one of its
clients. -/
inductive CacheCall where
  | templateFor (client : ClientId) (q : Query)
  | prepare (client : ClientId) (q : Query)
  | toSql (client : ClientId) (q : Query)
  | clear (client : ClientId)

namespace CacheCall

/-- The client. -/
def client : CacheCall → ClientId
  | templateFor k _ | prepare k _ | toSql k _ | clear k => k

/-- The query, unless the cache is cleared. -/
def query? : CacheCall → Option Query
  | templateFor _ q | prepare _ q | toSql _ q => some q
  | clear _ => none

/-- What a call does with the cache: it answers a text and its parameters, or clears. -/
def onCache : CacheCall → Session TemplateCache (Option (String × Params))
  | templateFor _ q => do
    let (t, values) ← q.templateFor
    return some (t.sql, t.paramNames.zip values)
  | prepare _ q => do
    let e ← q.prepare
    return some (e.sql, e.params)
  | toSql _ q => do
    let (sql, params, _) ← q.toSql
    return some (sql, params)
  | clear _ => do
    modify TemplateCache.clear
    return none

/-- A call on a database. -/
def run (d : Database) (call : CacheCall) : Session Connections (Option (String × Params)) :=
  Connections.onCacheOnly (d.withClient call.client).cache call.onCache

/-- The answers of calls made one after another, and what they leave. -/
def runAll (d : Database) : List CacheCall → Connections →
    List (Except Failure (Option (String × Params))) × Connections
  | [], c => ([], c)
  | call :: rest, c =>
    let (answer, c) := (call.run d).outcome c
    let (answers, c) := runAll d rest c
    (answer :: answers, c)

/-- A call answers for its query, and clearing answers nothing. -/
def Faithful (call : CacheCall) (answer : Except Failure (Option (String × Params))) : Prop :=
  match call.query? with
  | none => answer = .ok none
  | some q => ∃ r, q.Answers r ∧ answer = r.map some

section

variable {call : CacheCall} {q : Query} {c c' : TemplateCache}

/-- A call fails as the lookup of its query's template does. -/
theorem onCache_of_error {e : Failure} (hquery : call.query? = some q)
    (ho : q.templateFor.outcome c = (.error e, c')) : call.onCache.outcome c = (.error e, c') := by
  cases call with
  | templateFor k q' =>
    cases hquery
    rw [onCache, Session.outcome_bind, ho]
  | prepare k q' =>
    cases hquery
    rw [onCache, Session.outcome_bind, Query.outcome_prepare_eq, ho]
  | toSql k q' =>
    cases hquery
    rw [onCache, Session.outcome_bind, Query.outcome_toSql, ho]
  | clear k => cases hquery

/-- A call is answered the text of the template and its parameters with the values, or fails as the
values do not fit it. -/
theorem onCache_of_templateFor {t : Template} {values : List Value} (hquery : call.query? = some q)
    (ho : q.templateFor.outcome c = (.ok (t, values), c')) :
    call.onCache.outcome c = (.ok (some (t.sql, t.paramNames.zip values)), c') ∨
      values.length ≠ t.paramNames.length ∧ ∃ e, call.onCache.outcome c = (.error e, c') := by
  cases call with
  | templateFor k q' =>
    cases hquery
    rw [onCache, Session.outcome_bind, ho]
    exact .inl rfl
  | prepare k q' =>
    cases hquery
    rw [onCache, Session.outcome_bind, Query.outcome_prepare_eq, ho]
    by_cases hfit : values.length ≠ t.paramNames.length
    · simp only [Template.bind, if_pos hfit]
      exact .inr ⟨hfit, _, rfl⟩
    · simp only [Template.bind, if_neg hfit]
      exact .inl rfl
  | toSql k q' =>
    cases hquery
    rw [onCache, Session.outcome_bind, Query.outcome_toSql, ho]
    exact .inl rfl
  | clear k => cases hquery

end

variable {queries : List Query}

private theorem zip_params (s : Statement) :
    (s.params.map Prod.fst).zip (s.params.map Prod.snd) = s.params := by
  rw [← List.unzip_fst, ← List.unzip_snd, List.zip_unzip]

/-- One call keeps a sound cache sound and is answered faithfully. -/
theorem sound_onCache {c : TemplateCache} (hk : KeysDecide queries) (hc : c.Sound queries)
    {call : CacheCall} (hq : ∀ q, call.query? = some q → q ∈ queries ∧ q.CrossJoinsBare) :
    (call.onCache.outcome c).2.Sound queries ∧ call.Faithful (call.onCache.outcome c).1 := by
  rcases hquery : call.query? with _ | q
  · cases call with
    | clear k => exact ⟨TemplateCache.sound_clear, rfl⟩
    | _ => cases hquery
  obtain ⟨hmem, hj⟩ := hq q hquery
  have hsound := Query.sound_of_templateFor hc hmem
  have h := Query.answer_of_templateFor hk hc hmem hj
  simp only [Faithful, hquery]
  rcases ho : q.templateFor.outcome c with ⟨e | ⟨t, values⟩, c'⟩ <;> rw [ho] at hsound h
  · rw [onCache_of_error hquery ho]
    exact ⟨hsound, .error e, Query.answers_error h, rfl⟩
  · obtain ⟨s, hs, hn, hsql, hnames, hvalues⟩ := h
    have hfit : values.length = t.paramNames.length := by
      rw [hvalues, hnames, List.length_map, List.length_map]
    rcases onCache_of_templateFor hquery ho with hcall | ⟨hnot, -⟩
    · rw [hcall]
      refine ⟨hsound, _, Query.answers_ok hs hn, ?_⟩
      rw [hsql, hnames, hvalues, zip_params]
      rfl
    · exact absurd hfit hnot

/-- The cache of a database that is in use holds only templates of the queries. -/
def SoundFor (queries : List Query) (d : Database) (c : Connections) : Prop :=
  d.cache < c.caches.size ∧ (c.cache d.cache).Sound queries

/-- One call on a database keeps its cache in use and sound. -/
theorem sound_run {d : Database} {c : Connections} (hk : KeysDecide queries)
    (hc : SoundFor queries d c) {call : CacheCall}
    (hq : ∀ q, call.query? = some q → q ∈ queries ∧ q.CrossJoinsBare) :
    SoundFor queries d ((call.run d).outcome c).2 ∧ call.Faithful ((call.run d).outcome c).1 := by
  obtain ⟨hin, hsound⟩ := hc
  obtain ⟨hafter, hfaithful⟩ := sound_onCache hk hsound hq
  refine ⟨⟨?_, ?_⟩, hfaithful⟩
  · change d.cache < (c.caches.setIfInBounds d.cache _).size
    rw [Array.size_setIfInBounds]
    exact hin
  · have hcache : ((call.run d).outcome c).2.cache d.cache =
        (call.onCache.outcome (c.cache d.cache)).2 := by
      change (c.caches.setIfInBounds d.cache _).getD d.cache _ = _
      simp only [Array.getD_eq_getD_getElem?, Array.getElem?_setIfInBounds, hin, if_true]
      rfl
    rw [hcache]
    exact hafter

/-- Calls made one after another are all answered faithfully. -/
theorem faithful_runAll {d : Database} {c : Connections} (hk : KeysDecide queries)
    (hc : SoundFor queries d c) {calls : List CacheCall}
    (hq : ∀ call ∈ calls, ∀ q, call.query? = some q → q ∈ queries ∧ q.CrossJoinsBare) :
    List.Forall₂ Faithful calls (runAll d calls c).1 := by
  induction calls generalizing c with
  | nil => exact .nil
  | cons call calls ih =>
    obtain ⟨hafter, hfaithful⟩ := sound_run hk hc (hq call (by simp))
    exact .cons hfaithful (ih hafter fun other hmem ↦ hq other (by simp [hmem]))

/-- A connection with a new cache has room for one template or more, and its cache is empty. -/
theorem soundFor_connect {capacity : Int} (hcap : 1 ≤ capacity) (client : ClientId) (name : String)
    (schema : List (String × TableId)) (c : Connections) :
    ∃ d c', (Connections.connect client name schema none capacity).outcome c = (.ok d, c') ∧
      SoundFor queries d c' := by
  have hnew : TemplateCache.new capacity =
      .ok { capacity := capacity.toNat, positive := by omega } := by
    rw [TemplateCache.new, dif_pos hcap]
  unfold Connections.connect
  simp only [hnew]
  refine ⟨_, _, rfl, ?_, ?_⟩
  · change c.caches.size < (c.caches.push _).size
    rw [Array.size_push]
    omega
  · apply TemplateCache.sound_of_entries_eq_nil
    let fresh : TemplateCache := { capacity := capacity.toNat, positive := by omega }
    change ((c.addCache fresh).2.cache (c.addCache fresh).1).entries = []
    rw [Connections.cache_addCache]

end CacheCall

/-- A run of calls through one cache, whatever its capacity: when queries under one key compile
alike, each call is answered as a fresh statement of its own query would be. -/
theorem cache_transparent (capacity : Int) (hcap : 1 ≤ capacity) (client : ClientId)
    (name : String) (schema : List (String × TableId)) (c : Connections) (calls : List CacheCall)
    (hj : ∀ q ∈ calls.filterMap CacheCall.query?, q.CrossJoinsBare)
    (hk : KeysDecide (calls.filterMap CacheCall.query?)) :
    ∃ d c', (Connections.connect client name schema none capacity).outcome c = (.ok d, c') ∧
      List.Forall₂ CacheCall.Faithful calls (CacheCall.runAll d calls c').1 := by
  obtain ⟨d, c', hconnect, hsound⟩ := CacheCall.soundFor_connect hcap client name schema c
  refine ⟨d, c', hconnect, CacheCall.faithful_runAll hk hsound ?_⟩
  intro call hcall q hq
  have hmem : q ∈ calls.filterMap CacheCall.query? := List.mem_filterMap.mpr ⟨call, hcall, hq⟩
  exact ⟨hmem, hj q hmem⟩

private def eventId : Column := { name := "id", type := "UInt64", table := some "events" }

private def later (n : Int) : Query :=
  .mk { condition := some (.expression ⟨{}, .column "" eventId (.literal " > " (.int n)
    (.done ""))⟩) } [] (some ({ name := "events", columns := [("id", eventId)] }, none))

private def laterCalls : List CacheCall :=
  [.toSql 0 (later 3), .prepare 1 (later 5), .clear 0, .templateFor 1 (later 3)]

/-- Two queries that differ in a value share a template, also through another client and after the
cache was cleared; each is answered with its own value. -/
theorem cache_transparent_later :
    ∃ d c', (Connections.connect 0 "default" [] none 1).outcome {} = (.ok d, c') ∧
      List.Forall₂ CacheCall.Faithful laterCalls (CacheCall.runAll d laterCalls c').1 := by
  have hqueries : ∀ q ∈ laterCalls.filterMap CacheCall.query?, q = later 3 ∨ q = later 5 := by
    intro q hq
    have hmem : q ∈ [later 3, later 5, later 3] := hq
    simp only [List.mem_cons, List.not_mem_nil, or_false] at hmem
    tauto
  apply cache_transparent 1 (by decide) 0 "default" [] {} laterCalls
  · intro q hq j hj
    rcases hqueries q hq with rfl | rfl <;> cases hj
  · intro q hq q' hq' f f' _ _ _
    rcases hqueries q hq with rfl | rfl <;> rcases hqueries q' hq' with rfl | rfl <;>
      exact ⟨rfl, rfl, rfl⟩

/-- A row of pairs in place of the settings fails to be prepared, though it has a statement. -/
theorem not_cache_transparent_paired : (∃ s, Query.paired.compile.result = .ok s) ∧
    Query.paired.CrossJoinsBare ∧ KeysDecide [Query.paired] ∧
    ∀ d c, ∃ e, (CacheCall.runAll d [.toSql 0 Query.paired] c).1 = [.error e] := by
  refine ⟨⟨_, rfl⟩, ?_, ?_, fun d c ↦ ⟨_, rfl⟩⟩
  · intro j hj
    cases hj
  · intro q hq q' _ f _ hf _ _
    obtain rfl := List.mem_singleton.mp hq
    cases hf

end Columnar
