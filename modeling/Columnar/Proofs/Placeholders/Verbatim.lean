import Columnar.Proofs.DerivedTable
import Columnar.Proofs.Placeholders.Carried
import Columnar.Proofs.Placeholders.Expressions
import Columnar.Proofs.Placeholders.InPlace

/-!
# Texts that are inserted as they are

Pieces of expressions, raw text, the definitions of windows and the values of settings are written
as they are (`Clauses.verbatim`). What a clause writes is an outline that holds them, and a
statement is one that holds those of all of its clauses, and that has what its subqueries carry
(`Clauses.carries_statement`).
-/

namespace Columnar

open Outline (AllWritten)

/-- The pieces and the raw texts of a body. -/
def Body.verbatim : Body → List String
  | missing => []
  | done text => [text]
  | column text _ rest | literal text _ rest => text :: rest.verbatim
  | nested text _ inner rest => text :: (inner.verbatim ++ rest.verbatim)
  | raw text insert rest => text :: insert :: rest.verbatim

/-- The pieces and the raw texts of an operand where it stands in a clause. -/
def Operand.verbatim : Operand → List String
  | expression e => e.body.verbatim
  | _ => []

/-- The pieces and the raw texts of a join; what is given for a cross join is not written. -/
def Join.verbatim (j : Join) : List String :=
  if j.keyword = "CROSS" then [] else j.on.toList.flatMap fun e ↦ e.body.verbatim

namespace Clauses

/-- The pieces and the raw texts of what is selected. -/
def selectedVerbatim (c : Clauses) : List String :=
  match c.misfits.selection with
  | none => c.selection.flatMap fun e ↦ e.2.verbatim
  | some _ => []

/-- The pieces and the raw texts of the joins and the expanded arrays. -/
def joinedVerbatim (c : Clauses) : List String :=
  c.joins.flatMap Join.verbatim ++ c.arrayJoins.flatMap (·.item.verbatim)

/-- The pieces and the raw texts of the clauses behind them. -/
def laterVerbatim (c : Clauses) : List String :=
  c.prewhere.toList.flatMap Operand.verbatim ++ (c.condition.toList.flatMap Operand.verbatim ++
    (c.groupBy.flatMap Operand.verbatim ++ (c.having.toList.flatMap Operand.verbatim ++
    c.orderBy.flatMap (·.item.verbatim))))

/-- The definitions of the windows, also where their names are no text. -/
def windowDefinitions (c : Clauses) : List String :=
  match c.misfits.windows with
  | none => c.windows.map Prod.snd
  | some v =>
    if v.isTruthy then (v.sortedEntries.toOption.getD []).map fun w ↦ w.2.display else []

/-- The values of the settings as they are written, also where their names are no text. -/
def settingValues (c : Clauses) : List String :=
  match c.misfits.settings with
  | none => c.settings.map fun s ↦ Setting.format s.2
  | some v => (v.toEntries.toOption.getD []).map fun s ↦ Setting.format s.2

/-- The texts of a query that are written as they are: the pieces and the raw texts of its
expressions, the definitions of its windows and the values of its settings. -/
def verbatim (c : Clauses) : List String :=
  c.selectedVerbatim ++ (c.joinedVerbatim ++ (c.laterVerbatim ++
    (c.windowDefinitions ++ c.settingValues)))

end Clauses

/-- The pieces and the raw texts of a body are texts of its outline. -/
theorem Body.mem_outline {write : Column → String} {last : Option Column} {body : Body} {x : String}
    (hx : x ∈ body.verbatim) : Token.text x ∈ body.outline write last := by
  induction body generalizing last with
  | missing => cases hx
  | done text => simpa [verbatim, outline] using hx
  | column text c rest ih =>
    rcases List.mem_cons.mp hx with rfl | hx
    · exact List.mem_cons_self
    · exact List.mem_cons_of_mem _ (List.mem_cons_of_mem _ (ih hx))
  | nested text label inner rest ihInner ihRest =>
    rcases List.mem_cons.mp hx with rfl | hx
    · exact List.mem_cons_self
    · refine List.mem_cons_of_mem _ (List.mem_append.mpr ?_)
      exact (List.mem_append.mp hx).imp (fun h ↦ ihInner h) fun h ↦ ihRest h
  | literal text v rest ih =>
    rcases List.mem_cons.mp hx with rfl | hx
    · exact List.mem_cons_self
    · exact List.mem_cons_of_mem _ (List.mem_cons_of_mem _ (ih hx))
  | raw text insert rest ih =>
    rcases List.mem_cons.mp hx with rfl | hx
    · exact List.mem_cons_self
    · rcases List.mem_cons.mp hx with rfl | hx
      · exact List.mem_cons_of_mem _ List.mem_cons_self
      · exact List.mem_cons_of_mem _ (List.mem_cons_of_mem _ (ih hx))

namespace Clauses

open Writing (Carries AllCarry carries_pure carries_throw carries_mapM)
open Outline (Holds)

private theorem carries_expr (scope : Scope) (e : Expr) :
    Carries (Writing.rendering (e.render scope)) (fun s ↦ s) (e.body.verbatim.map Holds) := by
  intro b b' sql hx
  refine ⟨_, Expr.written_outline (Writing.done_rendering.mp hx), fun R hR ↦ ?_⟩
  obtain ⟨x, hx, rfl⟩ := List.mem_map.mp hR
  exact .of ⟨x, Body.mem_outline hx, .refl x⟩

private theorem carries_item (scope : Scope) (o : Operand) :
    Carries (Writing.rendering (o.render scope)) (fun s ↦ s) (o.verbatim.map Holds) := by
  cases o with
  | column c => exact carries_pure (by simp [Operand.verbatim])
  | expression e => exact carries_expr scope e
  | _ =>
    intro b b' sql hx
    exact absurd (Writing.done_rendering.mp hx) Render.not_done_throw

private theorem carries_selected {c : Clauses} {t : Table} (scope : Scope) {aliasName : String}
    {item : Operand} (hm : c.misfits.table = none) :
    Carries (c.writeSelected t scope aliasName item) Prod.fst (item.verbatim.map Holds) := by
  refine Carries.look fun r hr ↦ ?_
  have hverbatim : item.verbatim = r.verbatim := by
    simp only [resolve, hm] at hr
    have hstands := Table.standIn?_of_resolveSelected hr
    cases item with
    | column column => cases hstands; rfl
    | expression e => cases hstands; rfl
    | _ =>
      obtain ⟨found, -, rfl⟩ := Option.map_eq_some_iff.mp hstands
      rfl
  rw [hverbatim]
  refine (carries_item scope r).around "" (" AS `" ++ outputName aliasName r ++ "`") fun sql ↦ ?_
  simp only [String.empty_append, String.append_assoc]

private theorem carries_selectedValue {c : Clauses} {t : Table} (scope : Scope)
    {e : Value × Value} (hm : c.misfits.table = none) :
    Carries (c.writeSelectedValue t scope e) Prod.fst [] := by
  unfold writeSelectedValue
  split
  · exact carries_selected scope hm
  all_goals exact carries_throw

private theorem carries_items {c : Clauses} {t : Table} (scope : Scope)
    (hm : c.misfits.table = none) :
    AllCarry (c.writeItems t scope) Prod.fst (c.selectedVerbatim.map Holds) := by
  unfold writeItems selectedVerbatim
  rcases c.misfits.selection with _ | v
  · rw [List.map_flatMap]
    exact carries_mapM fun e _ ↦ carries_selected scope hm
  · intro b b' as hx
    obtain ⟨entries, -, hx⟩ := Writing.done_check_bind.mp hx
    have hitems : AllCarry (entries.mapM (c.writeSelectedValue t scope)) Prod.fst
        (entries.flatMap fun _ ↦ []) := carries_mapM fun e _ ↦ carries_selectedValue scope hm
    rw [List.flatMap_eq_nil_iff.mpr fun _ _ ↦ rfl] at hitems
    exact hitems hx

private theorem carries_selection {c : Clauses} {t : Table} (scope : Scope)
    (hm : c.misfits.table = none) :
    Carries (c.writeSelection t scope) Prod.fst (c.selectedVerbatim.map Holds) := by
  by_cases hp : (c.pending.isSome || c.misfits.pending.isSome) = true
  · exact fun b b' a hx ↦ absurd hp (not_pending_of_writeSelection hx)
  · rw [writeSelection_eq hp hm]
    refine (carries_items scope hm).listed "*" "" ", " fun items ↦ ?_
    cases items with
    | nil => rfl
    | cons item items => simp [selected]

private theorem carries_join (scope : Scope) (j : Join) :
    Carries (writeJoin scope j) (fun s ↦ s) (j.verbatim.map Holds) := by
  unfold writeJoin Join.verbatim
  rcases j.on with _ | e
  · exact carries_pure (by simp)
  · by_cases hcross : j.keyword = "CROSS"
    · simp only [if_pos hcross]
      exact carries_pure (by simp)
    · simp only [if_neg hcross, Option.toList_some, List.flatMap_singleton]
      refine (carries_expr scope e).around
        (" " ++ j.keyword ++ " JOIN `" ++ j.table ++ "`" ++ " ON ") "" fun sql ↦ ?_
      rw [String.append_empty]

private theorem carries_joins (scope : Scope) (c : Clauses) :
    Carries (c.writeJoins scope) (fun s ↦ s) ((c.joins.flatMap Join.verbatim).map Holds) := by
  refine Carries.check fun _ _ ↦ ?_
  rw [List.map_flatMap]
  refine (carries_mapM fun j _ ↦ carries_join scope j).map fun os b as b' hw ↦ ?_
  rw [List.map_id'] at hw
  exact ⟨os.flatten, fun o ho ↦ List.infix_of_mem_flatten ho, hw.flatten⟩

private theorem carries_arrayJoin (scope : Scope) (a : ArrayJoin) :
    Carries (writeArrayJoin scope a) (fun s ↦ s) (a.item.verbatim.map Holds) := by
  unfold writeArrayJoin
  rcases a.aliasName.filter (· ≠ "") with _ | name
  · exact (carries_item scope a.item).around "" "" fun sql ↦ by simp
  · refine (carries_item scope a.item).around "" (" AS `" ++ name ++ "`") fun sql ↦ ?_
    simp only [String.empty_append, String.append_assoc]

private theorem carries_arrayJoins (scope : Scope) (c : Clauses) :
    Carries (c.writeArrayJoins scope) (fun s ↦ s)
      ((c.arrayJoins.flatMap (·.item.verbatim)).map Holds) := by
  refine Carries.check fun _ _ ↦ ?_
  rw [List.map_flatMap]
  refine (carries_mapM fun a _ ↦ carries_arrayJoin scope a).listed "" " ARRAY JOIN " ", "
    fun as ↦ ?_
  rw [List.map_id']

private theorem carries_condition (keyword : String) (scope : Scope) (o : Option Operand) :
    Carries (writeCondition keyword scope o) (fun s ↦ s)
      ((o.toList.flatMap Operand.verbatim).map Holds) := by
  rcases o with _ | o
  · exact carries_pure (by simp)
  · refine Carries.check fun e he ↦ ?_
    cases o <;> cases he
    simp only [Option.toList_some, List.flatMap_singleton]
    refine (carries_expr scope e).around (keyword ++ " ") "" fun sql ↦ ?_
    rw [String.append_empty]

private theorem carries_groupBy (scope : Scope) (c : Clauses) :
    Carries (c.writeGroupBy scope) (fun s ↦ s)
      ((c.groupBy.flatMap Operand.verbatim).map Holds) := by
  unfold writeGroupBy
  rcases c.misfits.groupBy with _ | v
  · by_cases hempty : c.groupBy.isEmpty = true
    · simp only [List.isEmpty_iff.mp hempty]
      exact carries_pure (by simp)
    · simp only [if_neg hempty, List.map_flatMap]
      refine (carries_mapM fun o _ ↦ carries_item scope o).spaced "GROUP BY " ", " fun items ↦ ?_
      rw [List.map_id']
  · intro b b' sql hx
    obtain ⟨_, _, hthrow, -⟩ := Writing.done_bind.mp hx
    exact absurd hthrow Writing.not_done_throw

/-- A direction is written behind what is rendered, or nothing. -/
private theorem carries_order (scope : Scope) (o : OrderItem) :
    Carries (do return directed (← Writing.rendering (o.item.render scope)) o.direction) (fun s ↦ s)
      (o.item.verbatim.map Holds) := by
  refine (carries_item scope o.item).map fun outline b sql b' hw ↦ ?_
  unfold directed
  split
  · exact ⟨outline, List.infix_rfl, hw⟩
  · rw [String.append_assoc]
    exact ⟨_, (List.prefix_append _ _).isInfix, hw.snoc _⟩

private theorem carries_orderBy (scope : Scope) (c : Clauses) :
    Carries (c.writeOrderBy scope) (fun s ↦ s)
      ((c.orderBy.flatMap (·.item.verbatim)).map Holds) := by
  refine Carries.check fun _ _ ↦ ?_
  by_cases hempty : c.orderBy.isEmpty = true
  · simp only [List.isEmpty_iff.mp hempty]
    exact carries_pure (by simp)
  · simp only [if_neg hempty, List.map_flatMap]
    refine (carries_mapM fun o _ ↦ carries_order scope o).spaced "ORDER BY " ", " fun items ↦ ?_
    rw [List.map_id']

/-- The definitions of the windows are written as they are. -/
private theorem windows_within {c : Clauses} {text : String} (h : c.writeWindows = .ok text)
    {x : String} (hx : x ∈ c.windowDefinitions) : Text.Within x text := by
  unfold windowDefinitions at hx
  unfold writeWindows at h
  rcases hm : c.misfits.windows with _ | v <;> rw [hm] at h hx
  · obtain ⟨w, hw, rfl⟩ := List.mem_map.mp hx
    have hsorted : w ∈ Setting.sorted c.windows := (Setting.sorted_perm _).mem_iff.mpr hw
    have hne : ¬ c.windows.isEmpty = true := by
      rw [List.isEmpty_iff]
      exact List.ne_nil_of_mem hw
    cases h
    rw [windowText, if_neg hne]
    exact Text.within_row hsorted (Text.within_append (w.1 ++ " AS (") w.2 ")") _ _
  · by_cases ht : v.isTruthy = true
    · simp only [if_pos ht] at h hx
      obtain ⟨entries, hentries, h⟩ := Succeeding.bind_eq_ok.mp h
      rw [hentries] at hx
      obtain ⟨w, hw, rfl⟩ := List.mem_map.mp hx
      cases h
      exact Text.within_row hw (Text.within_append (w.1.display ++ " AS (") w.2.display ")") _ _
    · simp only [if_neg ht] at hx
      cases hx

/-- The values of the settings are written as they are. -/
private theorem settings_within {c : Clauses} {t : Table} {text : String}
    (h : c.writeSettings t = .ok text) {x : String} (hx : x ∈ c.settingValues) :
    Text.Within x text := by
  have hentry (name value : String) : Text.Within value (name ++ " = " ++ value) := by
    simpa using Text.within_append (name ++ " = ") value ""
  unfold settingValues at hx
  unfold writeSettings at h
  rcases hm : c.misfits.settings with _ | v <;> rw [hm] at h hx
  · obtain ⟨e, he, rfl⟩ := List.mem_map.mp hx
    have hall : e ∈ c.allSettings t := by
      unfold allSettings
      split
      · exact List.mem_append_left _ he
      · exact he
    have hsorted : e ∈ Setting.sorted (c.allSettings t) := (Setting.sorted_perm _).mem_iff.mpr hall
    have hne : ¬ (c.allSettings t).isEmpty = true := by
      rw [List.isEmpty_iff]
      exact List.ne_nil_of_mem hall
    cases h
    rw [settingsText, if_neg hne]
    exact Text.within_row hsorted (hentry e.1 _) _ _
  · obtain ⟨given, hgiven, h⟩ := Succeeding.bind_eq_ok.mp h
    obtain ⟨entries, hentries, h⟩ := Succeeding.bind_eq_ok.mp h
    simp only [hgiven] at hx
    obtain ⟨e, he, rfl⟩ := List.mem_map.mp hx
    have hsorted : e ∈ entries :=
      (Order.perm_of_sort hentries).mem_iff.mpr (List.mem_append_left _ he)
    cases h
    exact Text.within_row hsorted (hentry e.1.display _) _ _

/-- Named subqueries carry what is carried by what writes them. -/
theorem carries_ctes {ι : Type} {items : List ι} (name : ι → String)
    {x : ι → Writing String} {Rs : ι → List (Outline → Prop)}
    (h : ∀ i ∈ items, Carries (x i) (fun s ↦ s) (Rs i)) :
    Carries (writeCtesInPlace (items.map fun i ↦ (name i, x i))) (fun s ↦ s)
      (items.flatMap Rs) := by
  have hitem (i : ι) (hi : i ∈ items) :
      Carries (do return name i ++ " AS (" ++ (← x i) ++ ")") (fun s ↦ s) (Rs i) :=
    (h i hi).around (name i ++ " AS (") ")" fun _ ↦ rfl
  unfold writeCtesInPlace
  rw [List.mapM_map]
  refine (carries_mapM hitem).listed "" "WITH " ", " fun texts ↦ ?_
  rw [List.map_id']

private theorem carries_source {c : Clauses} {t : Table} {ι : Type} {inner : Option ι}
    {x : ι → Writing String} {Rs : ι → List (Outline → Prop)}
    (h : ∀ i ∈ inner, Carries (x i) (fun s ↦ s) (Rs i)) :
    Carries (c.writeSource t (inner.map x)) (fun s ↦ s) (inner.toList.flatMap Rs) := by
  cases inner with
  | none => exact carries_pure (by simp)
  | some i =>
    simp only [Option.toList_some, List.flatMap_singleton]
    refine (h i rfl).around "(" (") AS `" ++ t.name ++ "`") fun sql ↦ ?_
    simp only [String.append_assoc]

theorem carries_from {c : Clauses} {t : Table} {ι : Type} {inner : Option ι}
    (scope : Scope) {x : ι → Writing String} {Rs : ι → List (Outline → Prop)}
    (hm : c.misfits.table = none) (h : ∀ i ∈ inner, Carries (x i) (fun s ↦ s) (Rs i)) :
    Carries (c.writeFromInPlace t (inner.map x) scope) (fun s ↦ s)
      (inner.toList.flatMap Rs ++ c.joinedVerbatim.map Holds) := by
  have hall := ((carries_source (c := c) (t := t) h).append (carries_joins scope c)).append
    (carries_arrayJoins scope c)
  simp only [bind_assoc, pure_bind, List.append_assoc] at hall
  unfold writeFromInPlace joinedVerbatim
  rw [hm, List.map_append]
  exact hall

/-- A statement carries what its subqueries carry, and the texts of its clauses. -/
theorem carries_statement {c : Clauses} {t : Table} {x x' : Writing String}
    {before read : List (Outline → Prop)} (hm : c.misfits.table = none)
    (hctes : Carries x (fun s ↦ s) before)
    (hsource : Carries x' (fun s ↦ s) (read ++ c.joinedVerbatim.map Holds)) :
    Carries (c.writeWith t x x') Statement.sql (before ++ (read ++ c.verbatim.map Holds)) := by
  intro b b' s hx
  obtain ⟨p, hp, rfl, rfl⟩ := done_writeWith.mp hx
  obtain ⟨o₁, hw₁, hhas₁⟩ := hctes hp.ctes
  obtain ⟨o₂, hw₂, hhas₂⟩ := carries_selection _ hm hp.selection
  obtain ⟨o₃, hw₃, hhas₃⟩ := hsource hp.source
  obtain ⟨o₄, hw₄, hhas₄⟩ := carries_condition _ _ _ hp.prewhere
  obtain ⟨o₅, hw₅, hhas₅⟩ := carries_condition _ _ _ hp.condition
  obtain ⟨o₆, hw₆, hhas₆⟩ := carries_groupBy _ _ hp.groupBy
  obtain ⟨o₇, hw₇, hhas₇⟩ := carries_condition _ _ _ hp.having
  obtain ⟨o₈, hw₈, hhas₈⟩ := carries_orderBy _ _ hp.orderBy
  have hpieces := AllWritten.cons hw₁ <|
    .cons (hw₂.cons ("SELECT " ++ if c.distinct then "DISTINCT " else "")) <|
    .cons (hw₃.cons "FROM ") <| .cons hw₄ <| .cons hw₅ <| .cons hw₆ <| .cons hw₇ <| .cons hw₈ <|
    .cons (Outline.written_text c.limitText _) <| .cons (Outline.written_text p.sample _) <|
    .cons (Outline.written_text p.windows _) <| .cons (Outline.written_text p.settings _) .nil
  obtain ⟨o, hparts, hw⟩ := hpieces.written " "
  simp only [List.forall_mem_cons] at hparts
  obtain ⟨ctes, selection, source, prewhere, condition, groupBy, having', orderBy, -, -, windows,
    settings, -⟩ := hparts
  have selection := (List.suffix_cons _ _).isInfix.trans selection
  have source := (List.suffix_cons _ _).isInfix.trans source
  refine ⟨o, hw, ?_⟩
  simp only [List.forall_mem_append] at hhas₃
  simp only [verbatim, laterVerbatim, List.map_append, List.forall_mem_append]
  refine ⟨fun R hR ↦ (hhas₁ R hR).mono ctes, fun R hR ↦ (hhas₃.1 R hR).mono source,
    fun R hR ↦ (hhas₂ R hR).mono selection, fun R hR ↦ (hhas₃.2 R hR).mono source,
    ⟨fun R hR ↦ (hhas₄ R hR).mono prewhere, fun R hR ↦ (hhas₅ R hR).mono condition,
      fun R hR ↦ (hhas₆ R hR).mono groupBy, fun R hR ↦ (hhas₇ R hR).mono having',
      fun R hR ↦ (hhas₈ R hR).mono orderBy⟩, fun R hR ↦ ?_, fun R hR ↦ ?_⟩
  · obtain ⟨x, hx, rfl⟩ := List.mem_map.mp hR
    exact (Outline.Has.of (Outline.holds_text (windows_within hp.windows hx))).mono windows
  · obtain ⟨x, hx, rfl⟩ := List.mem_map.mp hR
    exact (Outline.Has.of (Outline.holds_text (settings_within hp.settings hx))).mono settings

end Clauses

end Columnar
