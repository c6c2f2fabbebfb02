import Columnar.Proofs.Cache.Recency
import Columnar.Proofs.Transparency

/-!
# Lookups of templates

What a lookup of a query's template answers and does with the cache. `Query.Lookup` lists all that
can happen: the cache stays as it was when the lookup fails, a key that is found moves behind all
others, and a template that is missing is put there, in place of the one used longest ago when there
is no room. Databases that share a cache, and operations on the cache itself, use it in any order;
`lookup_after` says so of a lookup after any uses, and where each template held then comes from.
-/

namespace Columnar

/-! ### One lookup -/

/-- The query has the fingerprint, and the template is that of its statement, with a parameter for
each value of the fingerprint. -/
structure Query.OwnTemplate (q : Query) (f : Fingerprint) (t : Template) : Prop where
  fingerprint : q.fingerprint.result = .ok f
  statement : ∃ s, q.compile.result = .ok s ∧ t = .ofStatement s
  length_eq : t.paramNames.length = f.values.length

/-- What a lookup of the query's template in a cache answers, and the cache after it. -/
inductive Query.Lookup (q : Query) (c : TemplateCache) :
    Except Failure (Template × List Value) → TemplateCache → Prop
  | unmarked {e : Failure} (failed : q.fingerprint.result = .error e) : Lookup q c (.error e) c
  | unwritten {f : Fingerprint} {e : Failure} (fingerprint : q.fingerprint.result = .ok f)
      (missing : f.key ∉ c.keys) (failed : q.compile.result = .error e) : Lookup q c (.error e) c
  | uneven {f : Fingerprint} {s : Statement} (fingerprint : q.fingerprint.result = .ok f)
      (missing : f.key ∉ c.keys) (statement : q.compile.result = .ok s)
      (uneven : s.params.length ≠ f.values.length) :
      Lookup q c (.error (.valueCount f.values.length s.params.length)) c
  | found {f : Fingerprint} {t : Template} {before after : List (String × Template)}
      (fingerprint : q.fingerprint.result = .ok f)
      (held : c.entries = before ++ (f.key, t) :: after) :
      Lookup q c (.ok (t, f.values)) { c with entries := before ++ after ++ [(f.key, t)] }
  | added {f : Fingerprint} {t : Template} (own : q.OwnTemplate f t) (missing : f.key ∉ c.keys)
      (room : c.size < c.capacity) :
      Lookup q c (.ok (t, f.values)) { c with entries := c.entries ++ [(f.key, t)] }
  | replaced {f : Fingerprint} {t : Template} {oldest : String × Template}
      {others : List (String × Template)} (own : q.OwnTemplate f t) (missing : f.key ∉ c.keys)
      (full : c.size = c.capacity) (held : c.entries = oldest :: others) :
      Lookup q c (.ok (t, f.values)) { c with entries := others ++ [(f.key, t)] }

namespace Query

variable {q : Query} {c c' : TemplateCache}

/-- A lookup that fails leaves the cache as it was. -/
theorem Lookup.eq_of_error {e : Failure} (h : q.Lookup c (.error e) c') : c' = c := by
  cases h <;> rfl

/-- A template that is missing is stored. -/
theorem OwnTemplate.outcome_templateFor {f : Fingerprint} {t : Template} (hown : q.OwnTemplate f t)
    (hmissing : f.key ∉ c.keys) :
    q.templateFor.outcome c = (.ok (t, f.values), (c.store f.key t).2) := by
  obtain ⟨s, hs, rfl⟩ := hown.statement
  have hlength := hown.length_eq
  rw [Template.ofStatement, List.length_map] at hlength
  simp only [Query.outcome_templateFor, hown.fingerprint,
    TemplateCache.find?_eq_none_iff.mpr hmissing, hs, hlength, ne_eq, not_true_eq_false, if_false]

/-- A query that is looked up after another one that missed their key is answered the other one's
template, and has its own values. -/
theorem OwnTemplate.outcome_templateFor_after {q' : Query} {f f' : Fingerprint} {t : Template}
    (hown : q'.OwnTemplate f' t) (hmissing : f'.key ∉ c.keys) (hf : q.fingerprint.result = .ok f)
    (hkey : f.key = f'.key) : ∃ c', q.templateFor.outcome (q'.templateFor.outcome c).2 =
      (.ok (t, f.values), c') := by
  rw [hown.outcome_templateFor hmissing]
  refine ⟨_, outcome_templateFor_of_find? hf ?_⟩
  rw [hkey]
  exact TemplateCache.find?_store c f'.key t

/-- A template that is missing is put behind the others, of which the first leaves when there is no
room. -/
theorem OwnTemplate.lookup {f : Fingerprint} {t : Template} (hown : q.OwnTemplate f t) (hc : c.Tidy)
    (hmissing : f.key ∉ c.keys) : q.Lookup c (.ok (t, f.values)) (c.store f.key t).2 := by
  have hentries := hc.entries_store_of_notMem hmissing t
  have hstore : (c.store f.key t).2 =
      { c with entries := (c.store f.key t).2.entries } := rfl
  rw [hstore, hentries]
  split
  · next hroom => exact .added hown hmissing hroom
  · next hfull =>
    have hsize : c.size = c.capacity := Nat.le_antisymm hc.size_le (Nat.le_of_not_lt hfull)
    rcases hheld : c.entries with _ | ⟨oldest, others⟩
    · have hpositive := c.positive
      rw [TemplateCache.size, hheld, List.length_nil] at hsize
      omega
    · exact .replaced hown hmissing hsize hheld

/-- A lookup does with a tidy cache what is listed, and nothing else. -/
theorem lookup_templateFor (hc : c.Tidy) (q : Query) :
    q.Lookup c (q.templateFor.outcome c).1 (q.templateFor.outcome c).2 := by
  rw [outcome_templateFor]
  rcases hf : q.fingerprint.result with e | f
  · exact .unmarked hf
  rcases hfound : c.find? f.key with _ | t
  · have hmissing := TemplateCache.find?_eq_none_iff.mp hfound
    rcases hs : q.compile.result with e | s
    · simp only [hfound]
      exact .unwritten hf hmissing hs
    · by_cases hlength : s.params.length ≠ f.values.length
      · simp only [hfound, if_pos hlength]
        exact .uneven hf hmissing hs hlength
      · have hown : q.OwnTemplate f (.ofStatement s) := {
          fingerprint := hf
          statement := ⟨s, hs, rfl⟩
          length_eq := by
            rw [Template.ofStatement, List.length_map]
            exact not_not.mp hlength }
        simp only [hfound, if_neg hlength]
        exact hown.lookup hc hmissing
  · obtain ⟨before, after, hheld⟩ := List.append_of_mem (TemplateCache.mem_of_find? hfound)
    simp only [hfound, TemplateCache.consult_of_find? hfound, TemplateCache.touched,
      TemplateCache.without_of_entries hc hheld]
    exact .found hf hheld

/-- A lookup keeps a cache tidy. -/
theorem tidy_templateFor (hc : c.Tidy) (q : Query) : (q.templateFor.outcome c).2.Tidy := by
  rw [outcome_templateFor]
  rcases q.fingerprint.result with e | f
  · exact hc
  rcases hfound : c.find? f.key with _ | t <;> simp only [hfound]
  · rcases q.compile.result with e | s <;> dsimp only
    · exact hc
    · split
      · exact hc
      · exact hc.store _ _
  · exact hc.consult f.key

/-- What is held after a lookup was held before, or is the query's own template that was missing. -/
theorem Lookup.origin {r : Except Failure (Template × List Value)} (h : q.Lookup c r c')
    {e : String × Template} (he : e ∈ c'.entries) :
    e ∈ c.entries ∨ ∃ f, q.OwnTemplate f e.2 ∧ f.key = e.1 ∧ e.1 ∉ c.keys := by
  cases h with
  | unmarked | unwritten | uneven => exact .inl he
  | found _ held =>
    rw [held]
    simp only [List.mem_append, List.mem_cons, List.not_mem_nil, or_false] at he ⊢
    tauto
  | added own missing =>
    rcases List.mem_append.mp he with he | he
    · exact .inl he
    · obtain rfl := List.mem_singleton.mp he
      exact .inr ⟨_, own, rfl, missing⟩
  | replaced own missing _ held =>
    rcases List.mem_append.mp he with he | he
    · rw [held]
      exact .inl (List.mem_cons_of_mem _ he)
    · obtain rfl := List.mem_singleton.mp he
      exact .inr ⟨_, own, rfl, missing⟩

end Query

/-! ### Uses one after another -/

namespace TemplateCache

/-- A use of a shared cache: a call of a database, or an operation on the cache itself. -/
inductive Use where
  | call (made : CacheCall)
  | op (made : Op)

/-- The query whose template is looked up. -/
def Use.query? : Use → Option Query
  | call made => made.query?
  | op _ => none

/-- What a use leaves of a cache. -/
def Use.leave (c : TemplateCache) : Use → TemplateCache
  | call made => (made.onCache.outcome c).2
  | op made => (made.run.outcome c).2

/-- The cache after uses made one after another. -/
def after (c : TemplateCache) (uses : List Use) : TemplateCache := uses.foldl Use.leave c

/-- The entry was put there by one of the uses: stored by an operation, or by a lookup of a query
that missed it and has the template as its own. -/
def StoredBy (c : TemplateCache) (uses : List Use) (e : String × Template) : Prop :=
  ∃ before use later, uses = before ++ use :: later ∧
    (use = .op (.put e.1 e.2) ∨ ∃ q f, use.query? = some q ∧ q.OwnTemplate f e.2 ∧ f.key = e.1 ∧
      e.1 ∉ (c.after before).keys)

variable {c : TemplateCache} {use : Use} {uses : List Use}

theorem after_concat (c : TemplateCache) (uses : List Use) (use : Use) :
    c.after (uses ++ [use]) = use.leave (c.after uses) := by
  rw [after, List.foldl_append]
  rfl

/-- A use that looks up a query leaves what the lookup leaves, whatever is made of its answer. -/
theorem leave_of_query {q : Query} (h : use.query? = some q) (c : TemplateCache) :
    use.leave c = (q.templateFor.outcome c).2 := by
  cases use with
  | op made => cases h
  | call made =>
    rw [Use.leave]
    rcases ho : q.templateFor.outcome c with ⟨e | ⟨t, values⟩, c'⟩
    · rw [CacheCall.onCache_of_error h ho]
    · rcases CacheCall.onCache_of_templateFor h ho with hcall | ⟨-, e, hcall⟩ <;> rw [hcall]

/-- A use that looks up no query reads a key, stores a template or clears. -/
theorem leave_cases (h : use.query? = none) (c : TemplateCache) :
    (∃ key, use.leave c = (c.consult key).2) ∨
      (∃ key t, use = .op (.put key t) ∧ use.leave c = (c.store key t).2) ∨
      use.leave c = c.clear := by
  cases use with
  | call made =>
    cases made with
    | clear k => exact .inr (.inr rfl)
    | _ => cases h
  | op made =>
    cases made with
    | get key => exact .inl ⟨key, rfl⟩
    | clear => exact .inr (.inr rfl)
    | put key t =>
      exact .inr (.inl ⟨key, t, rfl, congrArg Prod.snd (Op.outcome_run_put key t c)⟩)

/-- Every use keeps a cache tidy. -/
theorem Tidy.leave (hc : c.Tidy) (use : Use) : (use.leave c).Tidy := by
  rcases hquery : use.query? with _ | q
  · rcases leave_cases hquery c with ⟨key, h⟩ | ⟨key, t, -, h⟩ | h <;> rw [h]
    · exact hc.consult key
    · exact hc.store key t
    · exact tidy_clear
  · rw [leave_of_query hquery]
    exact Query.tidy_templateFor hc q

theorem Tidy.after (hc : c.Tidy) (uses : List Use) : (c.after uses).Tidy := by
  induction uses using List.reverseRecOn with
  | nil => exact hc
  | append_singleton uses use ih =>
    rw [after_concat]
    exact ih.leave use

theorem StoredBy.concat {e : String × Template} (h : c.StoredBy uses e) (use : Use) :
    c.StoredBy (uses ++ [use]) e := by
  obtain ⟨before, first, later, rfl, hstored⟩ := h
  refine ⟨before, first, later ++ [use], ?_, hstored⟩
  rw [List.append_assoc, List.cons_append]

/-- What is held after uses of an empty cache was put there by one of them. -/
theorem storedBy_of_mem (hc : c.Tidy) (hempty : c.entries = []) (uses : List Use) :
    ∀ e ∈ (c.after uses).entries, c.StoredBy uses e := by
  induction uses using List.reverseRecOn with
  | nil =>
    intro e he
    change e ∈ c.entries at he
    rw [hempty] at he
    cases he
  | append_singleton uses use ih =>
    intro e he
    rw [after_concat] at he
    rcases hquery : use.query? with _ | q
    · rcases leave_cases hquery (c.after uses) with ⟨key, h⟩ | ⟨key, t, huse, h⟩ | h <;>
        rw [h] at he
      · exact (ih e (mem_of_mem_consult he)).concat use
      · rcases mem_of_mem_store he with he | rfl
        · exact (ih e he).concat use
        · exact ⟨uses, use, [], rfl, .inl huse⟩
      · cases he
    · rw [leave_of_query hquery] at he
      rcases (Query.lookup_templateFor (hc.after uses) q).origin he with he | ⟨f, hown, hkey, hnot⟩
      · exact (ih e he).concat use
      · exact ⟨uses, use, [], rfl, .inr ⟨q, f, hquery, hown, hkey, hnot⟩⟩

end TemplateCache

/-- A lookup, after any uses of a new cache, answers and changes what `Query.Lookup` lists: one that
fails leaves the cache as it was. Each template that is held was stored by an operation, or by a
lookup that missed it; then it is the own template of that lookup's query, with a parameter for each
value of the query's fingerprint. -/
theorem Query.lookup_after (capacity : Int) (hcap : 1 ≤ capacity) (uses : List TemplateCache.Use)
    (q : Query) : ∃ new answer c, TemplateCache.new capacity = .ok new ∧
      q.templateFor.outcome (new.after uses) = (answer, c) ∧ q.Lookup (new.after uses) answer c ∧
      (∀ e, answer = .error e → c = new.after uses) ∧
      ∀ e ∈ (new.after uses).entries, new.StoredBy uses e := by
  obtain ⟨new, hnew, -, hempty⟩ := TemplateCache.exists_new hcap
  have htidy := TemplateCache.tidy_of_entries_eq_nil hempty
  have hlookup := lookup_templateFor (htidy.after uses) q
  rcases houtcome : q.templateFor.outcome (new.after uses) with ⟨answer, c⟩
  rw [houtcome] at hlookup
  refine ⟨new, answer, c, hnew, houtcome, hlookup, ?_,
    TemplateCache.storedBy_of_mem htidy hempty uses⟩
  rintro e rfl
  exact hlookup.eq_of_error

private def visitsAbove (n : Int) : Query :=
  .mk { condition := some (.expression ⟨{}, .column ""
    { name := "id", type := "UInt64", table := some "visits" } (.literal " > " (.int n)
      (.done ""))⟩) } [] (some ({ name := "visits" }, none))

/-- A query without a source has a fingerprint and no statement. Its lookup fails, and the cache,
which has no room left, keeps the template that was stored before. -/
theorem Query.lookup_after_unsourced : (1 : Int) ≤ 1 ∧ ∃ new answer c,
    TemplateCache.new 1 = .ok new ∧
      Query.empty.templateFor.outcome (new.after [.call (.toSql 0 (visitsAbove 7))]) = (answer, c) ∧
      answer = .error .noSource ∧
      c.keys = ["SELECT|SEL:*|FROM:visits|WHERE:visits.id > \x7b:UInt64\x7d"] ∧
      Query.empty.Lookup (new.after [.call (.toSql 0 (visitsAbove 7))]) answer c ∧
      ∀ e ∈ c.entries, new.StoredBy [.call (.toSql 0 (visitsAbove 7))] e := by
  refine ⟨by decide, ?_⟩
  obtain ⟨new, answer, c, hnew, houtcome, hlookup, hkept, hstored⟩ :=
    Query.lookup_after 1 (by decide) [.call (.toSql 0 (visitsAbove 7))] Query.empty
  have hanswer : answer = .error .noSource := by
    obtain rfl := Except.ok.inj hnew
    exact (congrArg Prod.fst houtcome).symm
  obtain rfl := hkept _ hanswer
  refine ⟨new, answer, _, hnew, houtcome, hanswer, ?_, hlookup, hstored⟩
  obtain rfl := Except.ok.inj hnew
  rfl

end Columnar
