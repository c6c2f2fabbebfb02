import Columnar.Proofs.Keys.Soundness
import Columnar.Query.Build

/-!
# Hints and keys

The hints of a statement are those recorded while its query was built, and one for projections. The
key of a legible query tells the second, so that queries with one key have the same hints exactly
when they recorded the same (`Query.suggestions_eq_iff`). What was recorded it tells only where that
is what the ordering gives on the source (`Query.Hinted`): then whatever was built before the source
was known, or was put in place of a clause later, recorded nothing else.
-/

namespace Columnar

/-- Alike operands give the same hint. -/
theorem Query.orderHints_congr {q q' : Query} {o o' : Operand}
    (hm : q.clauses.misfits = q'.clauses.misfits) (ht : q.table? = q'.table?) (h : o.Alike o') :
    q.orderHints o = q'.orderHints o' := by
  unfold orderHints
  rw [hm, ht]
  cases h with
  | @column c c' hc =>
    obtain ⟨-, hname⟩ := Lexeme.column.inj hc
    dsimp only
    rw [hname]
  | expression he => rfl
  | other hc he hc' he' =>
    cases o with
    | column c => exact absurd rfl (hc c)
    | _ =>
      cases o' with
      | column c => exact absurd rfl (hc' c)
      | _ => rfl

namespace Query

variable {q q' : Query} {s s' : Statement}

/-! ### What is recorded -/

/-- Whether the hints that a query recorded are those of its ordering on its source. -/
def Hinted (q : Query) : Prop :=
  ∃ hints, q.clauses.orderBy.mapM (fun o ↦ q.orderHints o.item) = .ok hints ∧
    q.clauses.suggestions = hints.flatten

/-- A query that recorded nothing and has no ordering. -/
theorem hinted_of_eq_nil (horder : q.clauses.orderBy = []) (hhints : q.clauses.suggestions = []) :
    q.Hinted := ⟨[], by rw [horder]; rfl, hhints⟩

/-- What an ordering gives depends on the source only. -/
theorem orderHints_modify {f : Clauses → Clauses}
    (htable : (f q.clauses).misfits.table = q.clauses.misfits.table) :
    (q.modify f).orderHints = q.orderHints := by
  funext o
  unfold orderHints
  rw [show (q.modify f).clauses.misfits.table = q.clauses.misfits.table from htable]
  rfl

/-- Changes of other clauses keep the hints those of the ordering. -/
theorem Hinted.modify (h : q.Hinted) {f : Clauses → Clauses}
    (horder : (f q.clauses).orderBy = q.clauses.orderBy)
    (hhints : (f q.clauses).suggestions = q.clauses.suggestions)
    (htable : (f q.clauses).misfits.table = q.clauses.misfits.table) : (q.modify f).Hinted := by
  obtain ⟨hints, hmap, hflat⟩ := h
  refine ⟨hints, ?_, hhints.trans hflat⟩
  rw [orderHints_modify htable]
  exact horder ▸ hmap

/-- Ordering keeps the hints those of the ordering, once the query has its source. -/
theorem Hinted.addOrder (h : q.Hinted) (hlist : q.clauses.misfits.suggestions = none)
    {o : OrderItem} (hadd : q.addOrder o = .ok q') : q'.Hinted := by
  obtain ⟨hints, hmap, hflat⟩ := h
  obtain ⟨given, hgiven, hadd⟩ := Succeeding.bind_eq_ok.mp hadd
  obtain ⟨q₁, hq₁, hadd⟩ := Succeeding.bind_eq_ok.mp hadd
  obtain ⟨⟨⟩, -, hadd⟩ := Succeeding.bind_eq_ok.mp hadd
  rw [addSuggestions, hlist] at hq₁
  cases hq₁
  cases hadd
  refine ⟨hints ++ [given], ?_, ?_⟩
  · rw [orderHints_modify rfl, orderHints_modify rfl]
    change (q.clauses.orderBy ++ [o]).mapM _ = _
    simp only [List.mapM_append, hmap, List.mapM_cons, hgiven, List.mapM_nil]
    rfl
  · change q.clauses.suggestions ++ given = _
    rw [hflat, List.flatten_append, List.flatten_singleton]

/-- Alike queries whose hints are those of their orderings recorded the same. -/
theorem suggestions_eq_of_hinted (halike : q.Alike q') (htable : q.table? = q'.table?)
    (h : q.Hinted) (h' : q'.Hinted) : q.clauses.suggestions = q'.clauses.suggestions := by
  obtain ⟨hints, hmap, hflat⟩ := h
  obtain ⟨hints', hmap', hflat'⟩ := h'
  have horder : q.clauses.orderBy.mapM (fun o ↦ q.orderHints o.item) =
      q'.clauses.orderBy.mapM fun o ↦ q'.orderHints o.item := by
    have hall := halike.clauses.orderBy
    generalize q.clauses.orderBy = items at hall
    generalize q'.clauses.orderBy = items' at hall
    induction hall with
    | nil => rfl
    | cons hitem _ ih =>
      rw [List.mapM_cons, List.mapM_cons, ih,
        orderHints_congr halike.misfits htable hitem.item]
  rw [hmap, hmap'] at horder
  rw [hflat, hflat', Except.ok.inj horder]

/-! ### What a key tells -/

/-- The hints of a statement: those recorded, and one for projections. -/
theorem suggestions_of_compile (hm : q.clauses.misfits = {}) (hs : q.compile.result = .ok s) :
    ∃ t, q.table? = some t ∧
      s.suggestions = q.clauses.suggestions ++ q.clauses.projectionHints t := by
  obtain ⟨t, inner, p, hsource, hp, rfl⟩ := pieces_of_compile hs
  refine ⟨t, by rw [table?, hsource]; rfl, ?_⟩
  have hsuggestions := hp.suggestions
  rw [Clauses.writeSuggestions, hm] at hsuggestions
  exact (Except.ok.inj hsuggestions).symm

section Legible

variable (h : q.Legible) (h' : q'.Legible) (hs : q.compile.result = .ok s)
  (hs' : q'.compile.result = .ok s') {f f' : Fingerprint} (hf : q.fingerprint.result = .ok f)
  (hf' : q'.fingerprint.result = .ok f') (hkey : f.key = f'.key)

include h h' hs hs' hf hf' hkey

/-- Legible queries with one key say alike whether projections are read. -/
theorem setsProjections_of_key : q.clauses.setsProjections = q'.clauses.setsProjections := by
  obtain ⟨t, inner, -, hsource, -, -⟩ := pieces_of_compile hs
  obtain ⟨t', inner', -, hsource', -, -⟩ := pieces_of_compile hs'
  have hsegments := segments_of_key h h' hs hs' hf hf' hkey hsource hsource'
  simp only [segments, List.cons.injEq, Prod.mk.injEq, true_and, and_true] at hsegments
  obtain ⟨-, -, -, -, -, -, -, -, -, -, -, -, -, hsettings, -⟩ := hsegments
  exact Clauses.setsProjections_congr h.clauses.fitting h'.clauses.fitting
    (Clauses.sorted_of_entries h.clauses.settings.2 h'.clauses.settings.2 hsettings)

variable (hshare : q.SharesTables q')

include hshare

/-- Legible queries with one key read one table. -/
theorem table?_of_key : q.table? = q'.table? := by
  obtain ⟨t, inner, -, hsource, -, -⟩ := pieces_of_compile hs
  obtain ⟨t', inner', -, hsource', -, -⟩ := pieces_of_compile hs'
  obtain ⟨rfl, -⟩ := (alike_of_key h h' hshare hs hs' hf hf' hkey).source t inner t' inner'
    hsource hsource'
  rw [table?, table?, hsource, hsource']
  rfl

/-- Legible queries with one key have the same hints when they recorded the same. -/
theorem suggestions_eq_iff :
    s.suggestions = s'.suggestions ↔ q.clauses.suggestions = q'.clauses.suggestions := by
  obtain ⟨t, ht, hsuggestions⟩ := suggestions_of_compile h.clauses.fitting hs
  obtain ⟨t', ht', hsuggestions'⟩ := suggestions_of_compile h'.clauses.fitting hs'
  have htable := table?_of_key h h' hs hs' hf hf' hkey hshare
  obtain rfl := Option.some.inj (ht.symm.trans (htable.trans ht'))
  have hprojections : q.clauses.projectionHints t = q'.clauses.projectionHints t := by
    rw [Clauses.projectionHints, Clauses.projectionHints, Clauses.addsProjections,
      Clauses.addsProjections, setsProjections_of_key h h' hs hs' hf hf' hkey]
  rw [hsuggestions, hsuggestions', hprojections, List.append_left_inj]

end Legible

end Query

end Columnar
