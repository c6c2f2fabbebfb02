import Columnar.Proofs.Chains.Calls

/-!
# Where the source is given

`Query.readingAt` builds a query by a chain of calls with its source given somewhere in between.
`readingAt_moved` compares two places in one chain. A query that is built with the earlier place is
built with the later one, and also the other way round if the calls in between can read the source.
Both queries have the same statement up to what only a source that is known takes note of: whether
merged rows were asked for, and the hints for an ordering.
-/

namespace Columnar

namespace BuilderCall

/-- Whether merged rows are asked for is told by the calls. -/
theorem any_isFinal {calls : List BuilderCall} : calls.any isFinal = true ↔ final ∈ calls := by
  rw [List.any_eq_true]
  constructor
  · rintro ⟨call, hmem, hcall⟩
    cases call with
    | final => exact hmem
    | _ => cases hcall
  · exact fun h ↦ ⟨final, h, rfl⟩

end BuilderCall

/-- A mark between two texts tells whether merged rows are read, unless the source is derived. -/
theorem Clauses.finalMark_inj {α : Type} {inner : Option α} {final final' : Bool} :
    finalMark inner final = finalMark inner final' ↔ inner.isSome = true ∨ final = final' := by
  cases inner with
  | some a => exact ⟨fun _ ↦ .inl rfl, fun _ ↦ rfl⟩
  | none => cases final <;> cases final' <;> simp [finalMark]

namespace Query

variable {source : Table × Option Query} {before mid after calls : List BuilderCall}
  {p q q' : Query}

theorem readingAt_eq_ok : readingAt source before after = .ok q ↔ ∃ p q₀,
    chain before empty = .ok p ∧ p.fromSource source = .ok q₀ ∧ chain after q₀ = .ok q := by
  unfold readingAt
  constructor
  · intro h
    obtain ⟨p, hp, h⟩ := Succeeding.bind_eq_ok.mp h
    obtain ⟨q₀, hq₀, h⟩ := Succeeding.bind_eq_ok.mp h
    exact ⟨p, q₀, hp, hq₀, h⟩
  · rintro ⟨p, q₀, hp, hq₀, h⟩
    exact Succeeding.bind_eq_ok.mpr ⟨p, hp, Succeeding.bind_eq_ok.mpr ⟨q₀, hq₀, h⟩⟩

theorem chain_append_eq_ok : chain (before ++ after) p = .ok q ↔
    ∃ q₀, chain before p = .ok q₀ ∧ chain after q₀ = .ok q := by
  rw [chain_append, Succeeding.bind_eq_ok]

/-- A query that becomes one with a source is given that source. -/
theorem Sourced.exists_fromSource {final : Bool} {hints : List String} (hp : p.Plain)
    (h : p.Sourced source final hints q) : ∃ q₀, p.fromSource source = .ok q₀ := by
  obtain ⟨c, hc, -⟩ := h
  rw [fromSource_eq hp, hc]
  exact ⟨_, rfl⟩

/-- The query built is what all calls build without a source, under the marks of the table and of
the calls behind the source. -/
theorem sourced_of_readingAt (h : readingAt source before after = .ok q) :
    ∃ p, chain (before ++ after) empty = .ok p ∧ p.Plain ∧ p.Sourced source
      (source.1.options.defaultFinal || after.any BuilderCall.isFinal)
      (after.flatMap (BuilderCall.hints source.1)) q := by
  obtain ⟨p₀, q₀, hp₀, hq₀, hafter⟩ := readingAt_eq_ok.mp h
  have hplain : p₀.Plain := plain_empty.chain hp₀
  have hsourced := sourced_of_fromSource hplain hq₀
  obtain ⟨p, hp, -, hpq⟩ := (sourced_chain hplain hsourced after).1 q hafter
  exact ⟨p, chain_append_eq_ok.mpr ⟨p₀, hp₀, hp⟩, hplain.chain hp, hpq⟩

/-- A later place for the source. -/
theorem exists_readingAt_later (h : readingAt source before (mid ++ after) = .ok q) :
    (∃ q', readingAt source (before ++ mid) after = .ok q') ∧
      (∃ q', readingAt source before [] = .ok q') ∧ ∀ call ∈ mid, call.Reads source := by
  obtain ⟨p₀, q₀, hp₀, hq₀, h⟩ := readingAt_eq_ok.mp h
  obtain ⟨q₁, hmid, hafter⟩ := chain_append_eq_ok.mp h
  have hplain₀ : p₀.Plain := plain_empty.chain hp₀
  obtain ⟨p₁, hp₁, hreads, hsourced⟩ :=
    (sourced_chain hplain₀ (sourced_of_fromSource hplain₀ hq₀) mid).1 q₁ hmid
  have hplain₁ : p₁.Plain := hplain₀.chain hp₁
  obtain ⟨p₂, hp₂, hreads₂, -⟩ := (sourced_chain hplain₁ hsourced after).1 q hafter
  obtain ⟨q₂, hq₂⟩ := hsourced.exists_fromSource hplain₁
  obtain ⟨q', hq'⟩ :=
    (sourced_chain hplain₁ (sourced_of_fromSource hplain₁ hq₂) after).2 p₂ hp₂ hreads₂
  refine ⟨⟨q', readingAt_eq_ok.mpr ⟨p₁, q₂, ?_, hq₂, hq'⟩⟩,
    ⟨q₀, readingAt_eq_ok.mpr ⟨p₀, q₀, hp₀, hq₀, rfl⟩⟩, hreads⟩
  exact chain_append_eq_ok.mpr ⟨p₀, hp₀, hp₁⟩

/-- An earlier place for the source, where the calls before it build a query that can be given it
and those that now come behind it can read it. -/
theorem exists_readingAt_earlier (h : readingAt source (before ++ mid) after = .ok q)
    (hbefore : readingAt source before [] = .ok q') (hmid : ∀ call ∈ mid, call.Reads source) :
    ∃ q'', readingAt source before (mid ++ after) = .ok q'' := by
  obtain ⟨p₁, q₂, hp₁, hq₂, hafter⟩ := readingAt_eq_ok.mp h
  obtain ⟨p₀, hp₀, hp₁⟩ := chain_append_eq_ok.mp hp₁
  obtain ⟨p₀', q₀, hp₀', hq₀, -⟩ := readingAt_eq_ok.mp hbefore
  obtain rfl := Except.ok.inj (hp₀.symm.trans hp₀')
  have hplain₀ : p₀.Plain := plain_empty.chain hp₀
  have hplain₁ : p₁.Plain := hplain₀.chain hp₁
  have hsourced₀ := sourced_of_fromSource hplain₀ hq₀
  obtain ⟨q₁, hq₁⟩ := (sourced_chain hplain₀ hsourced₀ mid).2 p₁ hp₁ hmid
  obtain ⟨p₁', hp₁', -, hsourced₁⟩ := (sourced_chain hplain₀ hsourced₀ mid).1 q₁ hq₁
  obtain rfl := Except.ok.inj (hp₁.symm.trans hp₁')
  obtain ⟨p₂, hp₂, hreads, -⟩ :=
    (sourced_chain hplain₁ (sourced_of_fromSource hplain₁ hq₂) after).1 q hafter
  obtain ⟨q'', hq''⟩ := (sourced_chain hplain₁ hsourced₁ after).2 p₂ hp₂ hreads
  exact ⟨q'', readingAt_eq_ok.mpr ⟨p₀, q₀, hp₀, hq₀, chain_append_eq_ok.mpr ⟨q₁, hq₁, hq''⟩⟩⟩

/-- Queries built by the same calls differ in their marks alone. -/
theorem exists_marked_of_readingAt (h : readingAt source before (mid ++ after) = .ok q)
    (h' : readingAt source (before ++ mid) after = .ok q') :
    ∃ (c : Clauses) (ctes : List (String × Query)), c.misfits.suggestions = none ∧
      q = .mk (c.marked (source.1.options.defaultFinal || (mid ++ after).any BuilderCall.isFinal)
        ((mid ++ after).flatMap (BuilderCall.hints source.1))) ctes (some source) ∧
      q' = .mk (c.marked (source.1.options.defaultFinal || after.any BuilderCall.isFinal)
        (after.flatMap (BuilderCall.hints source.1))) ctes (some source) := by
  obtain ⟨p, hp, hplain, hsourced⟩ := sourced_of_readingAt h
  obtain ⟨p', hp', -, hsourced'⟩ := sourced_of_readingAt h'
  rw [List.append_assoc] at hp'
  obtain rfl := Except.ok.inj (hp.symm.trans hp')
  obtain ⟨v, hv⟩ := hsourced.fitting hplain
  obtain ⟨c, hc, rfl⟩ := hsourced
  obtain ⟨c', hc', rfl⟩ := hsourced'
  obtain rfl := Except.ok.inj (hc.symm.trans hc')
  exact ⟨c, p.ctes, congrArg Misfits.suggestions hv, rfl, rfl⟩

/-- The source may be given later in a chain of calls; it may also be given earlier, if the query so
far can be given it and the calls in between can read it. Where both queries compile, and either
both do or neither, they have the same parameters and columns; the earlier place gives the hints of
the calls in between, and the text is the same unless only a call in between asks for merged rows of
a table that does not merge by itself. -/
theorem readingAt_moved (source : Table × Option Query) (before mid after : List BuilderCall) :
    ((∃ q, readingAt source before (mid ++ after) = .ok q) ↔
      (∃ q, readingAt source (before ++ mid) after = .ok q) ∧
      (∃ q, readingAt source before [] = .ok q) ∧ ∀ call ∈ mid, call.Reads source) ∧
    ∀ q q', readingAt source before (mid ++ after) = .ok q →
      readingAt source (before ++ mid) after = .ok q' →
      ((∃ s, q.compile.result = .ok s) ↔ ∃ s, q'.compile.result = .ok s) ∧
      ∀ s s', q.compile.result = .ok s → q'.compile.result = .ok s' →
        s.params = s'.params ∧ s.columns = s'.columns ∧
        s.suggestions = mid.flatMap (BuilderCall.hints source.1) ++ s'.suggestions ∧
        (s.sql = s'.sql ↔ source.2.isSome = true ∨ source.1.options.defaultFinal = true ∨
          BuilderCall.final ∈ after ∨ BuilderCall.final ∉ mid) := by
  refine ⟨⟨fun ⟨q, h⟩ ↦ exists_readingAt_later h, ?_⟩, fun q q' h h' ↦ ?_⟩
  · rintro ⟨⟨q, h⟩, ⟨q', hbefore⟩, hmid⟩
    exact exists_readingAt_earlier h hbefore hmid
  · obtain ⟨t, inner⟩ := source
    obtain ⟨c, ctes, hm, rfl, rfl⟩ := exists_marked_of_readingAt h h'
    constructor
    · constructor
      · rintro ⟨s, hs⟩
        obtain ⟨s', hs', -⟩ := compile_marked hm hs _ _
        exact ⟨s', hs'⟩
      · rintro ⟨s', hs'⟩
        obtain ⟨s, hs, -⟩ := compile_marked hm hs' _ _
        exact ⟨s, hs⟩
    · intro s s' hs hs'
      obtain ⟨s'', hs'', hparams, hcolumns, hhints, hhints', head, tail, hsql, hsql'⟩ :=
        compile_marked hm hs (t.options.defaultFinal || after.any BuilderCall.isFinal)
          (after.flatMap (BuilderCall.hints t))
      obtain rfl := Except.ok.inj (hs'.symm.trans hs'')
      refine ⟨hparams, hcolumns, ?_, ?_⟩
      · rw [hhints, hhints', List.flatMap_append, List.append_assoc]
      · rw [hsql, hsql', String.append_left_inj, String.append_right_inj, Clauses.finalMark_inj,
          List.any_append, ← BuilderCall.any_isFinal, ← BuilderCall.any_isFinal]
        cases t.options.defaultFinal <;> cases mid.any BuilderCall.isFinal <;>
          cases after.any BuilderCall.isFinal <;> simp

private def members : Table :=
  { name := "members",
    columns := [("id", { name := "id", type := "UInt64", table := some "members" }),
      ("email", { name := "email", type := "String", table := some "members" })],
    options := { orderBy := ["id"] } }

private def byEmail : BuilderCall :=
  .orderBy (.column { name := "email", type := "String", table := some "members" })
    (.text "ASC")

/-- With the earlier place of the source merged rows are read and the ordering gives its hint. -/
theorem readingAt_moved_members : ∃ q q' s s',
    readingAt (members, none) [.distinct] [.final, byEmail, .limit (.int 5)] = .ok q ∧
    readingAt (members, none) [.distinct, .final, byEmail] [.limit (.int 5)] = .ok q' ∧
    q.compile.result = .ok s ∧ q'.compile.result = .ok s' ∧
    s.params = s'.params ∧ s.columns = s'.columns ∧
    s.suggestions = [BuilderCall.final, byEmail].flatMap (BuilderCall.hints members) ++
      s'.suggestions ∧ s.sql ≠ s'.sql := by
  obtain ⟨-, hmoved⟩ :=
    readingAt_moved (members, none) [.distinct] [.final, byEmail] [.limit (.int 5)]
  obtain ⟨hparams, hcolumns, hhints, hsql⟩ := (hmoved _ _ rfl rfl).2 _ _ rfl rfl
  refine ⟨_, _, _, _, rfl, rfl, rfl, rfl, hparams, hcolumns, hhints, fun h ↦ ?_⟩
  rcases hsql.mp h with hderived | hmerged | hafter | hmid
  · cases hderived
  · cases hmerged
  · cases hafter with
    | tail _ hafter => cases hafter
  · exact hmid List.mem_cons_self

/-- The place of the source matters: merged rows that are asked for before it is given are not read,
and an ordering before it gives no hint. -/
theorem not_readingAt_anywhere : ∃ q q' s s',
    readingAt (members, none) [] [.final, byEmail] = .ok q ∧
    readingAt (members, none) [.final, byEmail] [] = .ok q' ∧
    q.compile.result = .ok s ∧ q'.compile.result = .ok s' ∧
    s.sql = "SELECT * FROM `members` FINAL ORDER BY `members`.`email` ASC" ∧
    s'.sql = "SELECT * FROM `members` ORDER BY `members`.`email` ASC" ∧
    s.suggestions = ["Ordering by email not in physical ORDER BY; may be inefficient."] ∧
    s'.suggestions = [] := by
  refine ⟨_, _, _, _, rfl, rfl, rfl, rfl, ?_, ?_, ?_, ?_⟩
  · decide +kernel
  · decide +kernel
  · decide +kernel
  · decide +kernel

end Query

end Columnar
