import Columnar.Proofs.Chains.Marks
import Columnar.Proofs.Succeeding
import Columnar.Query.Build

/-!
# Chains of calls that build a query

A query is built by a chain of calls, one of which gives it its source. Every other call does one of
four things (`BuilderCall.does`): it fails whatever the query, it sets the selection, it makes a
selection wait for the source, or it changes other clauses, where only two marks depend on the
source. So a chain builds the same query wherever the source is given, up to these marks:
`Query.Sourced` relates what is built without a source to what is built with one, and
`BuilderCall.sourced_apply` says that each call keeps that relation.
-/

namespace Columnar

/-- A call that builds a query, other than the one that gives the source. -/
inductive BuilderCall where
  | select (spec : SelectionSpec)
  | distinct
  | final
  | withCte (name : String) (inner : Query)
  | join (kind table : String) (on : Operand)
  | arrayJoin (items : List ArrayJoin)
  | prewhere (o : Operand)
  | where_ (e : Expr)
  | groupBy (items : List Operand)
  | having (o : Operand)
  | orderBy (item : Operand) (direction : Value)
  | limit (v : Value)
  | offset (v : Value)
  | sample (ratio offset : Value)
  | settings (entries : List (String × Value))
  | window (name definition : String)

/-- The hint for ordering a table by an operand. -/
def Table.orderHints (t : Table) : Operand → List String
  | .column c =>
    if !t.options.orderBy.isEmpty && !t.options.orderBy.contains c.name then
      [s!"Ordering by {c.name} not in physical ORDER BY; may be inefficient."]
    else []
  | _ => []

namespace BuilderCall

/-- Carries a call out. -/
def apply : BuilderCall → Query → Except Failure Query
  | select spec, q => q.select spec
  | distinct, q => .ok q.distinct
  | final, q => q.final
  | withCte name inner, q => q.withCte name inner
  | join kind table on, q => q.join kind table on
  | arrayJoin items, q => q.arrayJoin items
  | prewhere o, q => .ok (q.prewhere o)
  | where_ e, q => q.filter (.operand (.expression e))
  | groupBy items, q => .ok (q.groupBy items)
  | having o, q => .ok (q.having o)
  | orderBy item direction, q => q.orderBy item direction
  | limit v, q => .ok (q.limit v)
  | offset v, q => .ok (q.offset v)
  | sample ratio start, q => q.sample ratio start
  | settings entries, q => .ok (q.settings entries)
  | window name definition, q => q.window name definition

/-- Whether a call asks for merged rows. -/
def isFinal : BuilderCall → Bool
  | final => true
  | _ => false

/-- The hints that a call records on a table. -/
def hints (t : Table) : BuilderCall → List String
  | orderBy (.ordering inner _) _ => t.orderHints inner
  | orderBy item _ => t.orderHints item
  | _ => []

@[simp] theorem isFinal_select (spec : SelectionSpec) : (select spec).isFinal = false := rfl

@[simp] theorem hints_select (t : Table) (spec : SelectionSpec) : (select spec).hints t = [] := rfl

/-- Whether the source has what a call reads of it: columns that a selection can be made of, and
rows that can be merged. -/
def Reads (source : Table × Option Query) : BuilderCall → Prop
  | select (.byColumns f) => ∃ s, f source.1.columns = .ok s
  | final => source.2 = none
  | _ => True

end BuilderCall

namespace Query

/-- Carries calls out one after another. -/
def chain : List BuilderCall → Query → Except Failure Query
  | [], q => .ok q
  | call :: calls, q => call.apply q >>= chain calls

/-- The query that is built by calls, with its source given between them. -/
def readingAt (source : Table × Option Query) (before after : List BuilderCall) :
    Except Failure Query := do
  let q ← chain before empty
  let q ← q.fromSource source
  chain after q

end Query

/-! ### What one call does -/

/-- The clauses with the selection of others. -/
def Clauses.selecting (c d : Clauses) : Clauses :=
  { c with selection := d.selection, pending := d.pending,
           misfits.selection := d.misfits.selection }

namespace Query

/-- Whether no misfit stands in place of a clause, but in place of the selection. -/
def Fitting (q : Query) : Prop := ∃ v, q.clauses.misfits = { selection := v }

/-- A change of clauses beside the selection and the marks, which it neither reads nor sets. -/
structure Aside (g : Clauses → Clauses) : Prop where
  selecting : ∀ c d, g (c.selecting d) = (g c).selecting d
  marked : ∀ c final hints, g (c.marked final hints) = (g c).marked final hints
  misfits : ∀ c, (g c).misfits = c.misfits

theorem aside_id : Aside id := ⟨fun _ _ ↦ rfl, fun _ _ _ ↦ rfl, fun _ ↦ rfl⟩

end Query

namespace BuilderCall

open Query

variable {call : BuilderCall}

/-- All that a call can do to a query without misfits: fail whatever the query is, set the
selection, make a selection wait for the source, or change other clauses and the marks. -/
inductive Does (call : BuilderCall) : Prop
  | refuses (e : Failure) (h : ∀ q, q.Fitting → call.apply q = .error e)
  | selects (d : Clauses) (hd : d.pending = none) (hcall : ∃ spec, call = .select spec)
      (hreads : ∀ source, call.Reads source)
      (h : ∀ q, q.Fitting → call.apply q = .ok (q.withClauses (q.clauses.selecting d)))
  | waits (f : Columns → Except Failure Selection) (hcall : call = .select (.byColumns f))
      (hnone : ∀ q, q.Fitting → q.source = none →
        call.apply q = .ok (q.withClauses { q.clauses with pending := some f }))
      (hsome : ∀ q source, q.Fitting → q.source = some source → call.apply q =
        (f source.1.columns).map fun s ↦
          q.withClauses (q.clauses.selecting { selection := Keyed.ofList s }))
  | changes (g : Clauses → Clauses) (ctes : List (String × Query)) (hg : Aside g)
      (h : ∀ q, q.Fitting → (∀ source ∈ q.source, call.Reads source) → call.apply q = .ok (.mk
        ((g q.clauses).marked (q.clauses.final || call.isFinal)
          (q.clauses.suggestions ++ q.table?.elim [] call.hints)) (q.ctes ++ ctes) q.source))
      (hrefuses : ∀ q, q.Fitting → ∀ source ∈ q.source, ¬ call.Reads source →
        ∃ e, call.apply q = .error e)

end BuilderCall

namespace Query

theorem Fitting.exists_eq {q : Query} (h : q.Fitting) :
    ∃ (c : Clauses) (v : Option Value) (ctes : List (String × Query))
      (source : Option (Table × Option Query)),
      q = .mk { c with misfits := { selection := v } } ctes source := by
  obtain ⟨c, ctes, source⟩ := q
  obtain ⟨v, hv⟩ := h
  have hv : c.misfits = { selection := v } := hv
  exact ⟨c, v, ctes, source, by rw [← hv]⟩

/-- What an ordering gives is the hint of the table that is read. -/
theorem orderHints_eq {q : Query} (h : q.clauses.misfits.table = none) (o : Operand) :
    q.orderHints o = .ok (q.table?.elim [] (·.orderHints o)) := by
  unfold orderHints Table.orderHints
  rw [h]
  cases o <;> cases q.table? <;> rfl

end Query

/-- A call that sets no mark and reads nothing of the source. -/
structure BuilderCall.Unmarked (call : BuilderCall) : Prop where
  isFinal_eq : call.isFinal = false
  hints_eq : ∀ t, call.hints t = []
  reads : ∀ source, call.Reads source

namespace BuilderCall.Does

open Query

variable {call : BuilderCall}

/-- A change of clauses and named subqueries, beside the marks. -/
theorem of_clauses (g : Clauses → Clauses) (ctes : List (String × Query)) (hg : Aside g)
    (hcall : call.Unmarked)
    (h : ∀ q, q.Fitting → call.apply q = .ok (.mk (g q.clauses) (q.ctes ++ ctes) q.source)) :
    call.Does := by
  refine .changes g ctes hg (fun q hq _ ↦ ?_)
    fun q _ source _ hnot ↦ absurd (hcall.reads source) hnot
  have hnone : q.table?.elim [] call.hints = [] := by
    cases q.table? with
    | none => rfl
    | some t => exact hcall.hints_eq t
  rw [h q hq, hcall.isFinal_eq, hnone, Bool.or_false, List.append_nil, ← hg.marked]
  rfl

/-- A change of clauses alone, beside the marks. -/
theorem of_modify (g : Clauses → Clauses)
    (h : ∀ q, q.Fitting → call.apply q = .ok (q.modify g))
    (hg : Aside g := by exact ⟨fun _ _ ↦ rfl, fun _ _ _ ↦ rfl, fun _ ↦ rfl⟩)
    (hcall : call.Unmarked := by exact ⟨rfl, fun _ ↦ rfl, fun _ ↦ trivial⟩) : call.Does :=
  of_clauses g [] hg hcall fun q hq ↦ by
    rw [h q hq, List.append_nil]
    rfl

theorem select (spec : SelectionSpec) : (BuilderCall.select spec).Does := by
  cases spec with
  | fields entries =>
    refine .selects { selection := Keyed.ofList entries } rfl ⟨_, rfl⟩ (fun _ ↦ trivial) ?_
    intro q hq
    obtain ⟨c, v, ctes, source, rfl⟩ := hq.exists_eq
    rfl
  | byColumns f =>
    refine .waits f rfl (fun q hq hs ↦ ?_) fun q source hq hs ↦ ?_
    · obtain ⟨c, v, ctes, source, rfl⟩ := hq.exists_eq
      obtain rfl : source = none := hs
      rfl
    · obtain ⟨c, v, ctes, source', rfl⟩ := hq.exists_eq
      obtain rfl : source' = some source := hs
      change (f source.1.columns >>= _) = _
      rcases f source.1.columns with e | s <;> rfl
  | other v =>
    cases v with
    | null => exact of_modify id fun ⟨_, _, _⟩ _ ↦ rfl
    | map entries =>
      refine .selects (setSelectedValues entries {}) ?_ ⟨_, rfl⟩ (fun _ ↦ trivial) ?_
      · unfold setSelectedValues
        cases Value.textEntries? entries <;> rfl
      · intro q hq
        obtain ⟨c, v, ctes, source, rfl⟩ := hq.exists_eq
        simp only [apply, Query.select]
        unfold setSelectedValues
        cases Value.textEntries? entries <;> rfl
    | _ => exact .refuses _ fun q _ ↦ rfl

/-- Merged rows are asked for beside other marks, of every source but a derived table. -/
theorem final : BuilderCall.final.Does := by
  have hhints (t? : Option Table) : t?.elim [] BuilderCall.final.hints = [] := by
    cases t? <;> rfl
  refine .changes id [] aside_id (fun q hq hreads ↦ ?_) fun q hq source hsource hnot ↦ ?_
  · obtain ⟨c, v, ctes, source, rfl⟩ := hq.exists_eq
    rw [hhints, isFinal, Bool.or_true, List.append_nil, List.append_nil]
    rcases source with _ | ⟨t, inner⟩
    · rfl
    · obtain rfl : inner = none := hreads (t, inner) rfl
      rfl
  · obtain ⟨c, v, ctes, source', rfl⟩ := hq.exists_eq
    obtain rfl : source' = some source := hsource
    obtain ⟨t, inner⟩ := source
    rcases inner with _ | inner
    · exact absurd rfl hnot
    · exact ⟨_, rfl⟩

/-- A join that can be made is added to the others. -/
theorem join (kind table : String) (on : Operand) : (BuilderCall.join kind table on).Does := by
  have hadd (j : Join) (h : ∀ q, (BuilderCall.join kind table on).apply q = q.addJoin j) :
      (BuilderCall.join kind table on).Does := by
    refine of_modify (fun c ↦ { c with joins := c.joins ++ [j] }) fun q hq ↦ ?_
    obtain ⟨c, v, ctes, source, rfl⟩ := hq.exists_eq
    exact h _
  cases hkeyword : JoinKeyword.ofText? kind with
  | none =>
    refine .refuses (.unsupportedJoin kind) fun q _ ↦ ?_
    simp only [apply, Query.join, hkeyword]
  | some keyword =>
    by_cases hcross : keyword = "CROSS"
    · by_cases hnull : on.isNull
      · apply hadd { keyword, table }
        intro q
        simp only [apply, Query.join, hkeyword, if_pos hcross, if_pos hnull]
      · refine .refuses .crossCondition fun q _ ↦ ?_
        simp only [apply, Query.join, hkeyword, if_pos hcross, if_neg hnull]
    · by_cases hnull : on.isNull
      · refine .refuses (.noJoinCondition keyword) fun q _ ↦ ?_
        simp only [apply, Query.join, hkeyword, if_neg hcross, if_pos hnull]
      · rcases hon : joinCondition on with e | condition
        · refine .refuses e fun q _ ↦ ?_
          simp only [apply, Query.join, hkeyword, if_neg hcross, if_neg hnull, hon]
          rfl
        · apply hadd { keyword, table, on := condition }
          intro q
          simp only [apply, Query.join, hkeyword, if_neg hcross, if_neg hnull, hon]
          rfl

/-- An item of the ordering is added beside the hint it gives. -/
private theorem of_addOrder (o : OrderItem) (hfinal : call.isFinal = false)
    (hhints : ∀ t, call.hints t = t.orderHints o.item) (hreads : ∀ source, call.Reads source)
    (h : ∀ q, call.apply q = q.addOrder o) : call.Does := by
  refine .changes (fun c ↦ { c with orderBy := c.orderBy ++ [o] }) []
    ⟨fun _ _ ↦ rfl, fun _ _ _ ↦ rfl, fun _ ↦ rfl⟩ (fun q hq _ ↦ ?_)
    fun q _ source _ hnot ↦ absurd (hreads source) hnot
  obtain ⟨c, v, ctes, source, rfl⟩ := hq.exists_eq
  have hgiven : (fun t ↦ call.hints t) = (·.orderHints o.item) := funext hhints
  rw [h, Query.addOrder, orderHints_eq rfl, hfinal, Bool.or_false, List.append_nil, hgiven]
  rfl

private theorem of_directed {item : Operand}
    (hitem : (∃ c, item = .column c) ∨ ∃ e, item = .expression e) (direction : Value) :
    (BuilderCall.orderBy item direction).Does := by
  have hhints (t : Table) : (BuilderCall.orderBy item direction).hints t = t.orderHints item := by
    rcases hitem with ⟨c, rfl⟩ | ⟨e, rfl⟩ <;> rfl
  cases hdirection : direction with
  | text s =>
    rw [hdirection] at hhints
    rcases hd : Direction.ofKeyword? s with _ | d
    · refine .refuses (.badDirection (.text s)) fun q _ ↦ ?_
      rcases hitem with ⟨c, rfl⟩ | ⟨e, rfl⟩ <;> simp only [apply, Query.orderBy, hd]
    · refine of_addOrder ⟨item, d⟩ rfl hhints (fun _ ↦ trivial) fun q ↦ ?_
      rcases hitem with ⟨c, rfl⟩ | ⟨e, rfl⟩ <;> simp only [apply, Query.orderBy, hd]
  | _ =>
    refine .refuses (.badDirection direction) fun q _ ↦ ?_
    rw [hdirection]
    rcases hitem with ⟨c, rfl⟩ | ⟨e, rfl⟩ <;> rfl

theorem orderBy (item : Operand) (direction : Value) :
    (BuilderCall.orderBy item direction).Does := by
  cases item with
  | ordering inner d => exact of_addOrder ⟨inner, d⟩ rfl (fun _ ↦ rfl) (fun _ ↦ trivial) fun _ ↦ rfl
  | column c => exact of_directed (.inl ⟨c, rfl⟩) direction
  | expression e => exact of_directed (.inr ⟨e, rfl⟩) direction
  | _ => exact .refuses _ fun q _ ↦ rfl

end BuilderCall.Does

/-- Every call does one of the four. -/
theorem BuilderCall.does (call : BuilderCall) : call.Does := by
  cases call with
  | select spec => exact .select spec
  | final => exact .final
  | join kind table on => exact .join kind table on
  | orderBy item direction => exact .orderBy item direction
  | withCte name inner =>
    refine .of_clauses id [(name, inner)] Query.aside_id ⟨rfl, fun _ ↦ rfl, fun _ ↦ trivial⟩ ?_
    intro q hq
    obtain ⟨c, v, ctes, source, rfl⟩ := hq.exists_eq
    rfl
  | distinct => exact .of_modify (fun c ↦ { c with distinct := true }) fun _ _ ↦ rfl
  | arrayJoin items =>
    refine .of_modify (fun c ↦ { c with arrayJoins := c.arrayJoins ++ items }) fun q hq ↦ ?_
    obtain ⟨c, v, ctes, source, rfl⟩ := hq.exists_eq
    rfl
  | prewhere o =>
    exact .of_modify (fun c ↦ { c with prewhere := Query.unlessNull o }) fun _ _ ↦ rfl
  | where_ e =>
    exact .of_modify (fun c ↦ { c with condition := Query.unlessNull (.expression e) })
      fun _ _ ↦ rfl
  | groupBy items =>
    refine .of_modify (fun c ↦ { c with groupBy := items }) fun q hq ↦ ?_
    obtain ⟨c, v, ctes, source, rfl⟩ := hq.exists_eq
    rfl
  | having o => exact .of_modify (fun c ↦ { c with having := Query.unlessNull o }) fun _ _ ↦ rfl
  | limit v => exact .of_modify (fun c ↦ { c with limit := v }) fun _ _ ↦ rfl
  | offset v => exact .of_modify (fun c ↦ { c with offset := v }) fun _ _ ↦ rfl
  | sample ratio start =>
    obtain ⟨read, hread⟩ : ∃ read : Except Failure Sample, ∀ q, (sample ratio start).apply q =
        read >>= fun s ↦
          .ok (q.modify fun c ↦ { c with sample := some s, misfits.sample := none }) :=
      ⟨_, fun q ↦ rfl⟩
    rcases read with e | s
    · exact .refuses e fun q _ ↦ hread q
    · refine .of_modify (fun c ↦ { c with sample := some s }) fun q hq ↦ ?_
      obtain ⟨c, v, ctes, source, rfl⟩ := hq.exists_eq
      exact hread _
  | settings entries =>
    refine .of_modify (fun c ↦ { c with settings := Keyed.ofList entries }) fun q hq ↦ ?_
    obtain ⟨c, v, ctes, source, rfl⟩ := hq.exists_eq
    rfl
  | window name definition =>
    refine .of_modify (fun c ↦ { c with windows := Keyed.set name definition c.windows })
      fun q hq ↦ ?_
    obtain ⟨c, v, ctes, source, rfl⟩ := hq.exists_eq
    rfl

/-! ### With and without a source -/

/-- The clauses once their selection is made of the columns of a table. -/
def Clauses.chosen (t : Table) (c : Clauses) : Except Failure Clauses :=
  match c.pending with
  | none => .ok c
  | some f => (f t.columns).map fun s ↦ c.selecting { selection := Keyed.ofList s }

namespace Clauses

variable {t : Table} {c c' : Clauses}

theorem chosen_of_none (h : c.pending = none) : c.chosen t = .ok c := by
  rw [chosen, h]

theorem chosen_of_some {f : Columns → Except Failure Selection} (h : c.pending = some f) :
    c.chosen t = (f t.columns).map fun s ↦ c.selecting { selection := Keyed.ofList s } := by
  rw [chosen, h]

/-- Nothing but the selection is chosen. -/
theorem exists_selecting_of_chosen (h : c.chosen t = .ok c') : ∃ d, c' = c.selecting d := by
  rcases hpending : c.pending with _ | f
  · rw [chosen_of_none hpending] at h
    cases h
    exact ⟨c, rfl⟩
  · rw [chosen_of_some hpending] at h
    rcases hf : f t.columns with e | s <;> rw [hf] at h <;> cases h
    exact ⟨_, rfl⟩

/-- The selection is chosen beside other clauses. -/
theorem chosen_aside {g : Clauses → Clauses} (hg : Query.Aside g) (c : Clauses) :
    (g c).chosen t = (c.chosen t).map g := by
  have hsame : g c = (g c).selecting c := hg.selecting c c
  have hpending : (g c).pending = c.pending := (congrArg pending hsame).trans rfl
  rcases hc : c.pending with _ | f
  · rw [chosen_of_none hc, chosen_of_none (hpending.trans hc)]
    rfl
  · rw [chosen_of_some hc, chosen_of_some (hpending.trans hc)]
    rcases f t.columns with e | s
    · rfl
    · exact congrArg Except.ok (hg.selecting c _).symm

/-- The selection is chosen beside the marks. -/
theorem chosen_marked (c : Clauses) (final : Bool) (hints : List String) :
    (c.marked final hints).chosen t = (c.chosen t).map (·.marked final hints) := by
  have hpending : (c.marked final hints).pending = c.pending := rfl
  rcases hc : c.pending with _ | f
  · rw [chosen_of_none hc, chosen_of_none (hpending.trans hc)]
    rfl
  · rw [chosen_of_some hc, chosen_of_some (hpending.trans hc)]
    rcases f t.columns with e | s <;> rfl

end Clauses

namespace Query

/-- A query that was built without a source: nothing was hinted, and only the selection may be a
misfit. -/
structure Plain (p : Query) : Prop where
  source_eq : p.source = none
  hints_eq : p.clauses.suggestions = []
  fitting : p.Fitting

theorem plain_empty : empty.Plain := ⟨rfl, rfl, none, rfl⟩

/-- The query that a plain one becomes with a source, under the given marks. -/
def Sourced (source : Table × Option Query) (p : Query) (final : Bool) (hints : List String)
    (q : Query) : Prop :=
  ∃ c, p.clauses.chosen source.1 = .ok c ∧ q = .mk (c.marked final hints) p.ctes (some source)

variable {source : Table × Option Query} {p p' q q' : Query} {final : Bool} {hints : List String}

theorem Fitting.selecting (h : p.Fitting) (d : Clauses) :
    (p.withClauses (p.clauses.selecting d)).Fitting := by
  obtain ⟨v, hv⟩ := h
  refine ⟨d.misfits.selection, ?_⟩
  change { p.clauses.misfits with selection := d.misfits.selection } = _
  rw [hv]

theorem Sourced.source_eq (h : p.Sourced source final hints q) : q.source = some source := by
  obtain ⟨c, hc, rfl⟩ := h
  rfl

theorem Sourced.fitting (h : p.Sourced source final hints q) (hp : p.Plain) : q.Fitting := by
  obtain ⟨c, hc, rfl⟩ := h
  obtain ⟨d, rfl⟩ := Clauses.exists_selecting_of_chosen hc
  exact hp.fitting.selecting d

/-- A plain query is given its source when its selection can be made of the columns. -/
theorem fromSource_eq (hp : p.Plain) (source : Table × Option Query) :
    p.fromSource source = (p.clauses.chosen source.1).map fun c ↦
      .mk (c.marked source.1.options.defaultFinal []) p.ctes (some source) := by
  obtain ⟨c, v, ctes, s, rfl⟩ := hp.fitting.exists_eq
  have hhints : c.suggestions = [] := hp.hints_eq
  let base : Clauses := { c with misfits := { selection := v } }
  change fromSource source (mk base ctes s) = (base.chosen source.1).map fun c ↦
    mk (c.marked source.1.options.defaultFinal []) ctes (some source)
  have hpending : base.misfits.pending = none := rfl
  rw [← hhints, fromSource, readSource]
  rcases hc : base.pending with _ | f
  · rw [Clauses.chosen_of_none hc]
    simp only [clauses, hpending, hc]
    rfl
  · rw [Clauses.chosen_of_some hc]
    simp only [clauses, hpending, hc]
    rcases f source.1.columns with e | selection <;> rfl

/-- Sourced queries are made by giving the source. -/
theorem sourced_of_fromSource (hp : p.Plain) (h : p.fromSource source = .ok q) :
    p.Sourced source source.1.options.defaultFinal [] q := by
  rw [fromSource_eq hp] at h
  rcases hc : p.clauses.chosen source.1 with e | c <;> rw [hc] at h <;> cases h
  exact ⟨c, hc, rfl⟩

/-- Of a source that is not there anything can be read. -/
private theorem reads_of_plain (hp : p.Plain) (call : BuilderCall) :
    ∀ source ∈ p.source, call.Reads source := by
  intro source hsource
  rw [hp.source_eq] at hsource
  cases hsource

/-- Without a source a call leaves a plain query plain. -/
theorem Plain.apply (hp : p.Plain) {call : BuilderCall} (h : call.apply p = .ok p') : p'.Plain := by
  cases call.does with
  | refuses e hrefuses =>
    rw [hrefuses p hp.fitting] at h
    cases h
  | selects d hd hcall hreads hselects =>
    rw [hselects p hp.fitting] at h
    cases h
    exact ⟨hp.source_eq, hp.hints_eq, hp.fitting.selecting d⟩
  | waits f hcall hnone hsome =>
    rw [hnone p hp.fitting hp.source_eq] at h
    cases h
    exact ⟨hp.source_eq, hp.hints_eq, hp.fitting⟩
  | changes g ctes hg hchanges hrefuses =>
    rw [hchanges p hp.fitting (reads_of_plain hp call)] at h
    cases h
    refine ⟨hp.source_eq, ?_, ?_⟩
    · change p.clauses.suggestions ++ p.table?.elim [] call.hints = []
      rw [hp.hints_eq, table?, hp.source_eq]
      rfl
    · obtain ⟨v, hv⟩ := hp.fitting
      exact ⟨v, (hg.misfits p.clauses).trans hv⟩

/-- What a call does to a plain query it does to the query with a source, if it can read that, up to
the marks. -/
theorem sourced_apply (hp : p.Plain) (h : p.Sourced source final hints q) (call : BuilderCall) :
    (∃ e e', call.apply p = .error e ∧ call.apply q = .error e') ∨
    ∃ p', call.apply p = .ok p' ∧
      (call.Reads source → ∃ q', call.apply q = .ok q' ∧ p'.Sourced source
        (final || call.isFinal) (hints ++ call.hints source.1) q') ∧
      (¬ call.Reads source → ∃ e, call.apply q = .error e) := by
  have hfitting : q.Fitting := h.fitting hp
  have hsource : q.source = some source := h.source_eq
  obtain ⟨c, hc, rfl⟩ := h
  cases call.does with
  | refuses e hrefuses => exact .inl ⟨e, e, hrefuses p hp.fitting, hrefuses _ hfitting⟩
  | selects d hd hcall hreads hselects =>
    obtain ⟨spec, rfl⟩ := hcall
    obtain ⟨d', rfl⟩ := Clauses.exists_selecting_of_chosen hc
    rw [BuilderCall.isFinal_select, Bool.or_false, BuilderCall.hints_select, List.append_nil]
    refine .inr ⟨_, hselects p hp.fitting, fun _ ↦ ⟨_, hselects _ hfitting, ?_⟩,
      fun hnot ↦ absurd (hreads source) hnot⟩
    exact ⟨p.clauses.selecting d, Clauses.chosen_of_none hd, rfl⟩
  | waits f hcall hnone hsome =>
    subst hcall
    obtain ⟨d, rfl⟩ := Clauses.exists_selecting_of_chosen hc
    have happly := hsome _ source hfitting hsource
    rw [BuilderCall.isFinal_select, Bool.or_false, BuilderCall.hints_select, List.append_nil]
    refine .inr ⟨_, hnone p hp.fitting hp.source_eq, ?_, fun hnot ↦ ?_⟩
    · rintro ⟨s, hs⟩
      rw [hs] at happly
      refine ⟨_, happly, p.clauses.selecting { selection := Keyed.ofList s }, ?_, rfl⟩
      rw [Clauses.chosen_of_some rfl, hs]
      rfl
    · rcases hf : f source.1.columns with e | s
      · rw [hf] at happly
        exact ⟨e, happly⟩
      · exact absurd ⟨s, hf⟩ hnot
  | changes g ctes hg hchanges hrefuses =>
    refine .inr ⟨_, hchanges p hp.fitting (reads_of_plain hp call), fun hreads ↦ ?_, fun hnot ↦ ?_⟩
    · have hall : ∀ source' ∈ some source, call.Reads source' := by
        intro source' hsource'
        cases hsource'
        exact hreads
      refine ⟨_, hchanges _ hfitting hall, (g c).marked (p.clauses.final || call.isFinal)
        (p.clauses.suggestions ++ p.table?.elim [] call.hints), ?_, ?_⟩
      · change ((g p.clauses).marked _ _).chosen source.1 = _
        rw [Clauses.chosen_marked, Clauses.chosen_aside hg, hc]
        rfl
      · change mk ((g (c.marked final hints)).marked _ _) _ _ = _
        rw [hg.marked]
        rfl
    · exact hrefuses _ hfitting source hsource hnot

/-- Without a source a chain leaves a plain query plain. -/
theorem Plain.chain (hp : p.Plain) {calls : List BuilderCall} (h : Query.chain calls p = .ok p') :
    p'.Plain := by
  induction calls generalizing p with
  | nil =>
    cases h
    exact hp
  | cons call calls ih =>
    obtain ⟨p₁, hp₁, h⟩ := Succeeding.bind_eq_ok.mp h
    exact ih (hp.apply hp₁) h

/-- What a chain does to a plain query it does to the query with a source, if every call of it can
read that, up to the marks. -/
theorem sourced_chain (hp : p.Plain) (h : p.Sourced source final hints q)
    (calls : List BuilderCall) :
    (∀ q', chain calls q = .ok q' → ∃ p', chain calls p = .ok p' ∧
      (∀ call ∈ calls, call.Reads source) ∧ p'.Sourced source
        (final || calls.any BuilderCall.isFinal)
        (hints ++ calls.flatMap (BuilderCall.hints source.1)) q') ∧
    ∀ p', chain calls p = .ok p' → (∀ call ∈ calls, call.Reads source) →
      ∃ q', chain calls q = .ok q' := by
  induction calls generalizing p q final hints with
  | nil =>
    constructor
    · rintro q' hq
      cases hq
      refine ⟨p, rfl, fun _ hcall ↦ (by cases hcall), ?_⟩
      rw [List.any_nil, Bool.or_false, List.flatMap_nil, List.append_nil]
      exact h
    · exact fun p' _ _ ↦ ⟨q, rfl⟩
  | cons call calls ih =>
    rw [chain, chain]
    rcases sourced_apply hp h call with ⟨e, e', he, he'⟩ | ⟨p₁, hp₁, hreads, hrefuses⟩
    · rw [he, he']
      exact ⟨fun q' hq ↦ (by cases hq), fun p' hp' ↦ (by cases hp')⟩
    · by_cases hcall : call.Reads source
      · obtain ⟨q₁, hq₁, hsourced⟩ := hreads hcall
        obtain ⟨hforth, hback⟩ := ih (hp.apply hp₁) hsourced
        rw [hp₁, hq₁]
        constructor
        · rintro q' hq
          obtain ⟨p', hp', hall, hsourced'⟩ := hforth q' hq
          refine ⟨p', hp', List.forall_mem_cons.mpr ⟨hcall, hall⟩, ?_⟩
          rw [List.any_cons, ← Bool.or_assoc, List.flatMap_cons, ← List.append_assoc]
          exact hsourced'
        · rintro p' hp' hall
          exact hback p' hp' (List.forall_mem_cons.mp hall).2
      · obtain ⟨e, he⟩ := hrefuses hcall
        rw [he]
        refine ⟨fun q' hq ↦ (by cases hq), fun p' _ hall ↦ ?_⟩
        exact absurd (List.forall_mem_cons.mp hall).1 hcall

theorem chain_append (before after : List BuilderCall) (q : Query) :
    chain (before ++ after) q = chain before q >>= chain after := by
  induction before generalizing q with
  | nil => rfl
  | cons call before ih =>
    rw [List.cons_append, chain, chain]
    cases call.apply q with
    | error e => rfl
    | ok q' => exact ih q'

end Query

end Columnar
