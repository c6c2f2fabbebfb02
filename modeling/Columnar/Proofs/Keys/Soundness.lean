import Columnar.Proofs.Keys.Reading

/-!
# Soundness of keys

Legible queries with the same key have the same statement, up to the values it binds and its hints
(`Query.statement_of_key`): the key is taken apart into its segments, each clause is read back from
its segment, and clauses that are read back alike are written alike. Keys of other queries may be
the same though their statements differ (`Query.not_statement_of_key_dotted`).
-/

namespace Columnar

open Segment (ended bracketed items entries)

/-! ### Subqueries and sources -/

/-- The names of the placeholders in a text: what stands between a brace and the next colon. -/
def placeholders : List Char → List (List Char)
  | [] => []
  | c :: rest =>
    if c == '\x7b' then rest.takeWhile (· != ':') :: placeholders rest else placeholders rest

/-- Whether a subquery is told by its SQL: there is no bar in it, and its placeholders are those of
the values it binds. -/
structure Query.Embeddable (q : Query) : Prop where
  lacksBar : lacks ['|'] q.sql = true
  placeholders : ∀ s, q.compile.result = .ok s →
    placeholders s.sql.toList = s.params.map fun p ↦ p.1.toList

/-- Whether a query can be read back from its key. -/
structure Query.Legible (q : Query) : Prop where
  clauses : q.clauses.Legible
  ctes : ∀ e ∈ q.ctes, lacks ['|', ':'] e.1 = true ∧ e.2.Embeddable ∧
    ¬ [')', '('] <:+: e.1.toList ++ ':' :: e.2.sql.toList
  source : ∀ t inner, q.source = some (t, inner) → lacks ['|', ':', '('] t.name = true ∧
    lacks ['|'] (",".intercalate t.options.projections) = true ∧ ∀ i ∈ inner, i.Embeddable

/-- Whether tables of one name, and derived tables of one name and SQL, are the same for both of
two queries. -/
def Query.SharesTables (q q' : Query) : Prop :=
  ∀ t inner t' inner', q.source = some (t, inner) → q'.source = some (t', inner') →
    t.name = t'.name → inner.map sql = inner'.map sql → t = t'

namespace Query

variable {q q' : Query}

private theorem sql_of_compile {s : Statement} (h : q.compile.result = .ok s) : q.sql = s.sql := by
  rw [sql, h]

/-- Subqueries with the same SQL are alike. -/
theorem alikeStatements_of_sql (h : q.Embeddable) (h' : q'.Embeddable) (hsql : q.sql = q'.sql) :
    AlikeStatements q.compile q'.compile := by
  intro s s' hs hs'
  rw [sql_of_compile hs, sql_of_compile hs'] at hsql
  refine ⟨hsql, ?_⟩
  have hnames : s.params.map (fun p ↦ p.1.toList) = s'.params.map fun p ↦ p.1.toList := by
    rw [← h.placeholders s hs, ← h'.placeholders s' hs', hsql]
  refine List.map_injective_iff.mpr (fun _ _ ↦ String.toList_injective) ?_
  rw [List.map_map, List.map_map]
  exact hnames

/-- Named subqueries are read back. -/
private theorem ctes_of_text (h : q.Legible) (h' : q'.Legible)
    (heq : items bracketed (q.ctes.map fun e ↦ e.1.toList ++ ':' :: e.2.sql.toList) =
      items bracketed (q'.ctes.map fun e ↦ e.1.toList ++ ':' :: e.2.sql.toList)) :
    List.Forall₂ (fun e e' ↦ e.1 = e'.1 ∧ AlikeStatements e.2.compile e'.2.compile)
      q.ctes q'.ctes := by
  have hmap := Segment.eq_of_bracketed
    (List.forall_mem_map.mpr fun e he ↦ (h.ctes e he).2.2)
    (List.forall_mem_map.mpr fun e he ↦ (h'.ctes e he).2.2) heq
  refine Segment.forall₂_of_map_eq h.ctes h'.ctes (fun e e' he he' hsame ↦ ?_) hmap
  obtain ⟨hname, hsub, -⟩ := he
  obtain ⟨hname', hsub', -⟩ := he'
  obtain ⟨hnames, hsqls⟩ := Splitting.eq_of_first (Lexeme.not_mem_of_lacks hname (by decide))
    (Lexeme.not_mem_of_lacks hname' (by decide)) hsame
  exact ⟨String.toList_injective hnames,
    alikeStatements_of_sql hsub hsub' (String.toList_injective hsqls)⟩

private theorem ends_readingText (c : Clauses) (t : Table) :
    Splitting.Ends ':' (c.readingText t) := by
  unfold Clauses.readingText
  split
  · exact Splitting.ends_cons ':' _
  · split
    · exact Splitting.ends_nil ':'
    · exact Splitting.ends_cons ':' _

/-- A subquery is not taken for a table, whose name has no bracket. -/
private theorem sourceText_ne {c c' : Clauses} {t t' : Table} {i : Query}
    (h : lacks ['|', ':', '('] t.name = true) :
    c.sourceText t none ≠ c'.sourceText t' (some i) := by
  intro heq
  have hsub : "SUB(".toList = "SUB".toList ++ ['('] := rfl
  rw [Clauses.sourceText, Clauses.sourceText, hsub, List.append_assoc] at heq
  apply Lexeme.not_mem_of_lacks h (c := '(') (by decide)
  exact Splitting.mem_of_until (ends_readingText c t) (by decide) (by decide) heq

/-- Whether a table is read merged is read back. -/
private theorem final_of_text {c c' : Clauses} {t : Table}
    (h : c.readingText t = c'.readingText t) : c.final = c'.final := by
  have hfinal := List.append_cancel_right h
  cases hc : c.final <;> cases hc' : c'.final <;> rw [hc, hc'] at hfinal <;>
    first | rfl | exact absurd hfinal (by decide)

/-- The source is read back. -/
private theorem source_of_text (h : q.Legible) (h' : q'.Legible) (hshare : q.SharesTables q')
    {t t' : Table} {inner inner' : Option Query} (hsource : q.source = some (t, inner))
    (hsource' : q'.source = some (t', inner'))
    (heq : q.clauses.sourceText t inner = q'.clauses.sourceText t' inner') :
    t = t' ∧ (inner.isNone → q.clauses.final = q'.clauses.final) ∧
      Option.Rel (fun i i' ↦ AlikeStatements i.compile i'.compile) inner inner' := by
  obtain ⟨hname, -, hinner⟩ := h.source t inner hsource
  obtain ⟨hname', -, hinner'⟩ := h'.source t' inner' hsource'
  have hcolon {text : String} (ht : lacks ['|', ':', '('] text = true) : ':' ∉ text.toList :=
    Lexeme.not_mem_of_lacks ht (by decide)
  cases inner with
  | none =>
    cases inner' with
    | none =>
      obtain ⟨hnames, hreading⟩ := Splitting.eq_of_until (hcolon hname) (hcolon hname')
        (ends_readingText _ t) (ends_readingText _ t') heq
      obtain rfl := hshare t none t' none hsource hsource' (String.toList_injective hnames) rfl
      exact ⟨rfl, fun _ ↦ final_of_text hreading, .none⟩
    | some i' => exact absurd heq (sourceText_ne hname)
  | some i =>
    cases inner' with
    | none => exact absurd heq.symm (sourceText_ne hname')
    | some i' =>
      rw [Clauses.sourceText, Clauses.sourceText] at heq
      have hrest := List.append_cancel_left heq
      rw [← List.append_assoc, ← List.append_assoc] at hrest
      obtain ⟨hsqls, hnames⟩ := Splitting.eq_of_last (hcolon hname) (hcolon hname') hrest
      have hsql : i.sql = i'.sql := String.toList_injective (List.append_cancel_right hsqls)
      have htable : t = t' := hshare t (some i) t' (some i') hsource hsource'
        (String.toList_injective hnames) (congrArg some hsql)
      refine ⟨htable, fun hnone ↦ ?_, ?_⟩
      · cases hnone
      · exact .some (alikeStatements_of_sql (hinner i rfl) (hinner' i' rfl) hsql)

/-! ### Bars -/

private theorem not_mem_ended {item : List Char} (h : '|' ∉ item) : '|' ∉ ended item := by
  simp [ended, h]

private theorem not_mem_bracketed {item : List Char} (h : '|' ∉ item) : '|' ∉ bracketed item := by
  simp [bracketed, h]

private theorem bar_notMem_selection {c : Clauses} (h : c.Legible) : '|' ∉ c.selectionText := by
  have hitems := Segment.not_mem_items (fun _ ↦ not_mem_ended)
    (List.forall_mem_map.mpr fun e he ↦ not_mem_selectedText (h.selection e he)
      (by decide))
  have hdistinct : '|' ∉ if c.distinct then "DISTINCT:".toList else [] := by
    split <;> decide
  rw [Clauses.selectionText, List.mem_append, not_or]
  refine ⟨hdistinct, ?_⟩
  cases hi : items ended (c.selection.map selectedText) with
  | none => decide
  | some body => exact hitems body hi

private theorem bar_notMem_source (h : q.Legible) {t : Table} {inner : Option Query}
    (hsource : q.source = some (t, inner)) : '|' ∉ q.clauses.sourceText t inner := by
  obtain ⟨hname, hprojections, hinner⟩ := h.source t inner hsource
  have hname : '|' ∉ t.name.toList := Lexeme.not_mem_of_lacks hname (by decide)
  cases inner with
  | none =>
    have hprojections := Lexeme.not_mem_of_lacks hprojections (c := '|') (by decide)
    have hfinal : '|' ∉ if q.clauses.final then ":FINAL".toList else [] := by
      split <;> decide
    rw [Clauses.sourceText, Clauses.readingText, List.mem_append, List.mem_append, not_or, not_or]
    refine ⟨hname, hfinal, ?_⟩
    split
    · exact List.not_mem_nil
    · rw [List.mem_append, not_or]
      exact ⟨by decide, hprojections⟩
  | some i =>
    have hsql := Lexeme.not_mem_of_lacks (hinner i rfl).lacksBar (c := '|') (by decide)
    simp [Clauses.sourceText, hname, hsql]

private theorem bar_notMem_entries {es : List (String × String)}
    (h : ∀ e ∈ es, legibleEntry e = true) : ∀ body ∈ entries es, '|' ∉ body :=
  Segment.not_mem_items (fun _ ↦ not_mem_ended) (List.forall_mem_map.mpr fun e he ↦
    not_mem_entryText (h e ((Setting.sorted_perm es).mem_iff.mp he)) (by decide))

/-- No clause of a legible query holds a bar. -/
private theorem bar_notMem_segments (h : q.Legible) {t : Table} {inner : Option Query}
    (hsource : q.source = some (t, inner)) :
    ∀ s ∈ q.segments t inner, ∀ body ∈ s.2, '|' ∉ body := by
  have hbar : '|' ∈ closing := by decide
  have hcondition {o : Option Operand} (ho : ∀ x ∈ o, x.legible = true) :
      ∀ body ∈ o.map Operand.signature, '|' ∉ body := by
    intro body hbody
    obtain ⟨x, hx, rfl⟩ := Option.map_eq_some_iff.mp hbody
    exact Operand.not_mem_signature (ho x hx) hbar
  have hnumber {v : Value} (hv : lacks ['|'] v.display = true) :
      ∀ body ∈ Clauses.numberText v, '|' ∉ body := by
    intro body hbody
    unfold Clauses.numberText at hbody
    split at hbody
    · cases hbody
    · obtain rfl := Option.some.inj hbody
      exact Lexeme.not_mem_of_lacks hv (by decide)
  have hc := h.clauses
  simp only [segments, List.forall_mem_cons]
  refine ⟨?ctes, ?selection, ?source, ?joins, ?arrayJoins, ?prewhere, ?condition, ?groupBy,
    ?having, ?orderBy, ?limit, ?offset, ?sample, ?settings, ?windows, List.forall_mem_nil _⟩
  case ctes =>
    refine Segment.not_mem_items (fun _ ↦ not_mem_bracketed)
      (List.forall_mem_map.mpr fun e he ↦ ?_)
    obtain ⟨hname, hsub, -⟩ := h.ctes e he
    have hname := Lexeme.not_mem_of_lacks hname (c := '|') (by decide)
    have hsql := Lexeme.not_mem_of_lacks hsub.lacksBar (c := '|') (by decide)
    simp [hname, hsql]
  case selection =>
    rintro body ⟨⟩
    exact bar_notMem_selection hc
  case source =>
    rintro body ⟨⟩
    exact bar_notMem_source h hsource
  case joins =>
    exact Segment.not_mem_items (fun _ ↦ not_mem_ended)
      (List.forall_mem_map.mpr fun j hj ↦ not_mem_joinText (hc.joins j hj) hbar)
  case arrayJoins =>
    exact Segment.not_mem_items (fun _ ↦ not_mem_ended)
      (List.forall_mem_map.mpr fun a ha ↦ not_mem_arrayText (hc.arrayJoins a ha) hbar)
  case prewhere => exact hcondition fun x hx ↦ hc.conditions x (.inl hx)
  case condition => exact hcondition fun x hx ↦ hc.conditions x (.inr (.inl hx))
  case groupBy =>
    exact Segment.not_mem_items (fun _ ↦ not_mem_ended)
      (List.forall_mem_map.mpr fun o ho ↦ Operand.not_mem_keyText (hc.groupBy o ho) hbar)
  case having => exact hcondition fun x hx ↦ hc.conditions x (.inr (.inr hx))
  case orderBy =>
    exact Segment.not_mem_items (fun _ ↦ not_mem_ended)
      (List.forall_mem_map.mpr fun o ho ↦ not_mem_orderText (hc.orderBy o ho) hbar)
  case limit => exact hnumber hc.numbers.1
  case offset => exact hnumber hc.numbers.2
  case sample =>
    intro body hbody
    obtain ⟨s, hs, rfl⟩ := Option.map_eq_some_iff.mp hbody
    obtain ⟨hratio, hoffset, -⟩ := hc.sample s hs
    have hratio := Lexeme.not_mem_of_lacks hratio (c := '|') (by decide)
    have hoffset := Lexeme.not_mem_of_lacks hoffset (c := '|') (by decide)
    simp [hratio, hoffset]
  case settings => exact bar_notMem_entries hc.settings.2
  case windows => exact bar_notMem_entries hc.windows

/-! ### Reading a query back -/

/-- What a condition holds is that of an expression. -/
private theorem tag_of_ofCondition {lead : String} {o : Operand} {f : Fingerprint}
    (h : Fingerprint.ofCondition lead (some o) = .ok f) : o.tag = "EXPR:" := by
  obtain ⟨e, he, -⟩ := Succeeding.bind_eq_ok.mp h
  cases o with
  | expression e => rfl
  | _ => cases he

/-- The conditions of a legible query that has a fingerprint are legible expressions. -/
private theorem expression_of_fingerprint (h : q.Legible) {f : Fingerprint}
    (hf : q.fingerprint.result = .ok f) {o : Operand}
    (ho : o ∈ q.clauses.prewhere ∨ o ∈ q.clauses.condition ∨ o ∈ q.clauses.having) :
    o.legible = true ∧ o.tag = "EXPR:" := by
  obtain ⟨p, hp, -⟩ := fingerprint_eq_ok.mp hf
  refine ⟨h.clauses.conditions o ho, ?_⟩
  rcases ho with ho | ho | ho
  · exact tag_of_ofCondition (ho ▸ hp.prewhere)
  · exact tag_of_ofCondition (ho ▸ hp.condition)
  · exact tag_of_ofCondition (ho ▸ hp.having)

/-- The selection of a query that compiles does not wait for a source. -/
private theorem pending_of_compile {s : Statement} (hs : q.compile.result = .ok s) :
    q.clauses.pending = none := by
  obtain ⟨t, inner, p, -, hp, -⟩ := pieces_of_compile hs
  have hnot := Clauses.not_pending_of_writeSelection hp.selection
  cases hpending : q.clauses.pending with
  | none => rfl
  | some f =>
    rw [hpending] at hnot
    exact absurd rfl hnot

/-- Legible queries with the same segments are alike. -/
theorem alike_of_segments (h : q.Legible) (h' : q'.Legible) (hshare : q.SharesTables q')
    {f f' : Fingerprint} (hf : q.fingerprint.result = .ok f) (hf' : q'.fingerprint.result = .ok f')
    {t t' : Table} {inner inner' : Option Query} (hsource : q.source = some (t, inner))
    (hsource' : q'.source = some (t', inner'))
    (heq : q.segments t inner = q'.segments t' inner') : q.Alike q' := by
  have hc := h.clauses
  have hc' := h'.clauses
  simp only [segments, List.cons.injEq, Prod.mk.injEq, Option.some.injEq, true_and, and_true]
    at heq
  obtain ⟨hctes, hselection, hfrom, hjoins, harrays, hprewhere, hcondition, hgroups, hhaving,
    horder, hlimit, hoffset, hsample, hsettings, hwindows⟩ := heq
  have hexpr {x : Operand} := expression_of_fingerprint h hf (o := x)
  have hexpr' {x : Operand} := expression_of_fingerprint h' hf' (o := x)
  have hprewhere := Clauses.alike_of_conditions (fun x hx ↦ hexpr (.inl hx))
    (fun x hx ↦ hexpr' (.inl hx)) hprewhere
  have hcondition := Clauses.alike_of_conditions (fun x hx ↦ hexpr (.inr (.inl hx)))
    (fun x hx ↦ hexpr' (.inr (.inl hx))) hcondition
  have hhaving := Clauses.alike_of_conditions (fun x hx ↦ hexpr (.inr (.inr hx)))
    (fun x hx ↦ hexpr' (.inr (.inr hx))) hhaving
  exact {
    misfits := hc.fitting.trans hc'.fitting.symm
    ctes := ctes_of_text h h' hctes
    clauses := Clauses.alike_of_texts hc hc' hselection hjoins harrays hprewhere hcondition hgroups
      hhaving horder hlimit hoffset hsample hsettings hwindows
    source := by
      intro t₁ inner₁ t₂ inner₂ h₁ h₂
      obtain ⟨rfl, rfl⟩ := Prod.mk.inj (Option.some.inj (hsource.symm.trans h₁))
      obtain ⟨rfl, rfl⟩ := Prod.mk.inj (Option.some.inj (hsource'.symm.trans h₂))
      exact source_of_text h h' hshare hsource hsource' hfrom }

/-- The heads of the segments of a key, in their order. -/
def heads : List String :=
  ["CTES", "SEL", "FROM", "JOINS", "AJOINS", "PREWHERE", "WHERE", "GROUP", "HAVING", "ORDER",
    "LIMIT", "OFFSET", "SAMPLE", "SETTINGS", "WINDOWS"]

theorem heads_of_segments (q : Query) (t : Table) (inner : Option Query) :
    (q.segments t inner).map Prod.fst = heads := rfl

/-- Legible queries with the same key have the same segments. -/
theorem segments_of_key (h : q.Legible) (h' : q'.Legible) {s s' : Statement}
    (hs : q.compile.result = .ok s) (hs' : q'.compile.result = .ok s') {f f' : Fingerprint}
    (hf : q.fingerprint.result = .ok f) (hf' : q'.fingerprint.result = .ok f')
    (hkey : f.key = f'.key) {t t' : Table} {inner inner' : Option Query}
    (hsource : q.source = some (t, inner)) (hsource' : q'.source = some (t', inner')) :
    q.segments t inner = q'.segments t' inner' := by
  have htext := congrArg String.toList hkey
  rw [key_of_fingerprint hf h.clauses.fitting (pending_of_compile hs) hsource,
    key_of_fingerprint hf' h'.clauses.fitting (pending_of_compile hs') hsource'] at htext
  have hnodup : heads.Nodup := by decide
  have hcolons : ∀ head ∈ heads, ':' ∉ head.toList := by decide
  exact Segment.eq_of_join (heads_of_segments q' t' inner').symm hnodup hcolons
    (bar_notMem_segments h hsource) (bar_notMem_segments h' hsource')
    (List.append_cancel_left htext)

/-- Legible queries with the same key are alike. -/
theorem alike_of_key (h : q.Legible) (h' : q'.Legible) (hshare : q.SharesTables q')
    {s s' : Statement} (hs : q.compile.result = .ok s) (hs' : q'.compile.result = .ok s')
    {f f' : Fingerprint} (hf : q.fingerprint.result = .ok f)
    (hf' : q'.fingerprint.result = .ok f') (hkey : f.key = f'.key) : q.Alike q' := by
  obtain ⟨t, inner, -, hsource, -, -⟩ := pieces_of_compile hs
  obtain ⟨t', inner', -, hsource', -, -⟩ := pieces_of_compile hs'
  exact alike_of_segments h h' hshare hf hf' hsource hsource'
    (segments_of_key h h' hs hs' hf hf' hkey hsource hsource')

/-- Legible queries with the same key have the same SQL, bind values under the same names and
answer the same columns. -/
theorem statement_of_key (h : q.Legible) (h' : q'.Legible) (hshare : q.SharesTables q')
    {s s' : Statement} (hs : q.compile.result = .ok s) (hs' : q'.compile.result = .ok s')
    {f f' : Fingerprint} (hf : q.fingerprint.result = .ok f)
    (hf' : q'.fingerprint.result = .ok f') (hkey : f.key = f'.key) :
    s.sql = s'.sql ∧ s.params.map Prod.fst = s'.params.map Prod.fst ∧ s.columns = s'.columns :=
  same_statement (alike_of_key h h' hshare hs hs' hf hf' hkey) hs hs'

private def eventKey : Column := { name := "id", type := "UInt64", table := some "events" }

private def events : Table := { name := "events", columns := [("id", eventKey)] }

private def under (n : Int) : Query :=
  .mk { condition := some (.expression ⟨{}, .column "" eventKey (.literal " < " (.int n)
    (.done ""))⟩) } [] (some (events, none))

private def firstAbove (n : Int) : Query :=
  .mk { selection := [("x", .column eventKey)], limit := .int 10,
        condition := some (.expression ⟨{}, .column "" eventKey (.literal " > " (.int n)
          (.done ""))⟩) } [("low", under 7)] (some (events, none))

private theorem embeddable_under : (under 7).Embeddable where
  lacksBar := by decide
  placeholders := by
    intro s hs
    obtain rfl := Except.ok.inj hs
    decide

private theorem legible_firstAbove {n : Int} (hn : n = 3 ∨ n = 5) : (firstAbove n).Legible := by
  rcases hn with rfl | rfl <;> exact {
    clauses := {
      fitting := rfl
      selection := by decide
      joins := by decide
      arrayJoins := by decide
      conditions := by
        rintro o (ho | ho | ho) <;> cases ho
        decide
      groupBy := by rintro o ⟨⟩
      orderBy := by rintro o ⟨⟩
      numbers := by decide
      sample := by rintro s ⟨⟩
      settings := by decide
      windows := by decide }
    ctes := by
      intro e he
      obtain rfl := List.mem_singleton.mp he
      exact ⟨by decide, embeddable_under, by decide⟩
    source := by
      rintro t inner ⟨⟩
      exact ⟨by decide, by decide, by rintro i ⟨⟩⟩ }

/-- Two queries that differ in a value have one key, and one statement but for the value. -/
theorem statement_of_key_firstAbove : ∃ s s' : Statement, ∃ f f' : Fingerprint,
    (firstAbove 3).compile.result = .ok s ∧ (firstAbove 5).compile.result = .ok s' ∧
    (firstAbove 3).fingerprint.result = .ok f ∧ (firstAbove 5).fingerprint.result = .ok f' ∧
    f.key = f'.key ∧ s.sql = s'.sql ∧
    s.params.map Prod.fst = s'.params.map Prod.fst ∧ s.columns = s'.columns := by
  have hshare : (firstAbove 3).SharesTables (firstAbove 5) := by
    rintro t inner t' inner' ⟨⟩ ⟨⟩ _ _
    rfl
  refine ⟨_, _, _, _, rfl, rfl, rfl, rfl, rfl, ?_⟩
  exact statement_of_key (legible_firstAbove (.inl rfl)) (legible_firstAbove (.inr rfl)) hshare
    rfl rfl rfl rfl rfl

private def selecting (c : Column) : Query :=
  .mk { selection := [("x", .column c)] } [] (some (events, none))

/-- A column of a table and a column without one, whose name is that of the table, a dot and the
name of the first, have one key, but different SQL. -/
theorem not_statement_of_key_dotted :
    ¬ ∀ (q q' : Query) (s s' : Statement) (f f' : Fingerprint), q.compile.result = .ok s →
      q'.compile.result = .ok s' → q.fingerprint.result = .ok f →
      q'.fingerprint.result = .ok f' → f.key = f'.key → s.sql = s'.sql := by
  intro h
  have hsame := h (selecting eventKey) (selecting { name := "events.id", type := "UInt64" })
    _ _ _ _ rfl rfl rfl rfl rfl
  exact absurd hsame (by decide)

end Query

end Columnar
