import Columnar.Proofs.Keys.Segments
import Columnar.Proofs.Structure.Resembles
import Columnar.Proofs.Writable

/-!
# Templates depend on structure only

Queries that resemble each other have one template: nothing in the statement of a query depends on a
literal but through its type, apart from the values that are bound. Their keys are the same as well
(`Query.template_of_resembles`). An ordering that is selected in place of a column or an expression
is the one exception: it stands for the column of its name in the statement, and as it is in the
key.
-/

namespace Columnar

/-! ### Items -/

/-- Whether the operand is an ordering. -/
def Operand.isOrdering : Operand → Bool
  | ordering .. => true
  | _ => false

theorem Operand.Writable.not_isOrdering {o : Operand} (h : o.Writable) : ¬ o.isOrdering = true := by
  cases o with
  | ordering item direction => exact absurd h id
  | _ => exact nofun

section Texts

open Segment (label)

theorem Operand.Resembles.keyText_eq {o o' : Operand} (h : o.Resembles o')
    (hordering : o.isOrdering = true → o = o') : o.keyText = o'.keyText := by
  cases h with
  | same => rfl
  | expression he => exact congrArg (_ ++ Lexeme.spell ·) he.body.lexemes_eq
  | ordering => rw [hordering rfl]

theorem ResembleSelected.selectedText_eq {x x' : String × Operand} (h : ResembleSelected x x')
    (hordering : x.2.isOrdering = true → x.2 = x'.2) : selectedText x = selectedText x' := by
  unfold selectedText
  rw [h.name, h.item.keyText_eq hordering, h.item.ownName_eq, h.item.ownType_eq]

theorem Join.Resembles.keyText_eq {j j' : Join} (h : j.Resembles j') : j.keyText = j'.keyText := by
  obtain ⟨hkeyword, htable, hon⟩ := h
  unfold Join.keyText
  rw [hkeyword, htable]
  generalize j.on = on at hon
  generalize j'.on = on' at hon
  cases hon with
  | none => rfl
  | some he => simp only [Expr.lexemes, he.body.lexemes_eq]

theorem ArrayJoin.Resembles.keyText_eq {a a' : ArrayJoin} (h : a.Resembles a')
    (hordering : ¬ a.item.isOrdering = true) : a.keyText = a'.keyText := by
  unfold ArrayJoin.keyText
  rw [h.item.keyText_eq fun hi ↦ absurd hi hordering, h.aliasName]

theorem OrderItem.Resembles.keyText_eq {o o' : OrderItem} (h : o.Resembles o')
    (hordering : ¬ o.item.isOrdering = true) : o.keyText = o'.keyText := by
  unfold OrderItem.keyText
  rw [h.item.keyText_eq fun hi ↦ absurd hi hordering, h.direction]

end Texts

/-! ### Clauses -/

namespace Fingerprint

/-- Parts of one key, where both exist. -/
def SameKey (x y : Except Failure Fingerprint) : Prop :=
  ∀ ⦃f f'⦄, x = .ok f → y = .ok f' → f.key = f'.key

section Rows

variable {α β : Type} {g : α → Except Failure Fingerprint} {g' : β → Except Failure Fingerprint}
  {xs : List α} {ys : List β} {fs fs' : List Fingerprint}

theorem keys_eq_of_mapM (hx : xs.mapM g = .ok fs) (hy : ys.mapM g' = .ok fs')
    (h : List.Forall₂ (fun x y ↦ SameKey (g x) (g' y)) xs ys) : fs.map key = fs'.map key := by
  induction h generalizing fs fs' with
  | nil =>
    cases hx
    cases hy
    rfl
  | cons hxy _ ih =>
    rw [List.mapM_cons] at hx hy
    obtain ⟨f, hf, hx⟩ := Succeeding.bind_eq_ok.mp hx
    obtain ⟨rest, hrest, hx⟩ := Succeeding.bind_eq_ok.mp hx
    obtain ⟨f', hf', hy⟩ := Succeeding.bind_eq_ok.mp hy
    obtain ⟨rest', hrest', hy⟩ := Succeeding.bind_eq_ok.mp hy
    cases hx
    cases hy
    rw [List.map_cons, List.map_cons, hxy hf hf', ih hrest hrest']

/-- Items of which those on the left have a property that their keys depend on. -/
theorem keys_eq_of_forall {P : α → Prop} {R : α → β → Prop} (hx : xs.mapM g = .ok fs)
    (hy : ys.mapM g' = .ok fs') (hP : ∀ x ∈ xs, P x) (h : List.Forall₂ R xs ys)
    (hkey : ∀ x y, R x y → P x → SameKey (g x) (g' y)) : fs.map key = fs'.map key :=
  keys_eq_of_mapM hx hy
    (((List.forall₂_and_left _ _).mpr ⟨hP, h⟩).imp fun x y hxy ↦ hkey x y hxy.2 hxy.1)

theorem key_concat_eq (h : fs.map key = fs'.map key) : (concat fs).key = (concat fs').key := by
  have hchars (fs : List Fingerprint) :
      (concat fs).key.toList = (fs.map key).flatMap String.toList := by
    rw [key_concat, List.flatMap_map]
  apply String.toList_injective
  rw [hchars, hchars, h]

theorem isEmpty_eq_of_keys (h : fs.map key = fs'.map key) : fs.isEmpty = fs'.isEmpty := by
  rw [← List.isEmpty_map (f := key), h, List.isEmpty_map]

theorem key_clause_eq (head : String) (h : fs.map key = fs'.map key) :
    (clause head fs).key = (clause head fs').key := by
  unfold clause
  rw [isEmpty_eq_of_keys h]
  split
  · rfl
  · exact congrArg (head ++ ·) (key_concat_eq h)

end Rows

theorem sameKey_join {j j' : Join} (h : j.Resembles j') : SameKey (ofJoin j) (ofJoin j') := by
  intro f f' hf hf'
  apply String.toList_injective
  rw [key_of_ofJoin hf, key_of_ofJoin hf', h.keyText_eq]

theorem sameKey_arrayJoin {a a' : ArrayJoin} (h : a.Resembles a')
    (hordering : ¬ a.item.isOrdering = true) : SameKey (ofArrayJoin a) (ofArrayJoin a') := by
  intro f f' hf hf'
  apply String.toList_injective
  rw [key_of_ofArrayJoin hf, key_of_ofArrayJoin hf', h.keyText_eq hordering]

theorem sameKey_grouped {o o' : Operand} (h : o.Resembles o')
    (hordering : ¬ o.isOrdering = true) : SameKey (ofGrouped o) (ofGrouped o') := by
  intro f f' hf hf'
  apply String.toList_injective
  rw [key_of_ofGrouped hf, key_of_ofGrouped hf',
    h.keyText_eq fun hi ↦ absurd hi hordering]

theorem sameKey_order {o o' : OrderItem} (h : o.Resembles o')
    (hordering : ¬ o.item.isOrdering = true) : SameKey (ofOrder o) (ofOrder o') := by
  intro f f' hf hf'
  apply String.toList_injective
  rw [key_of_ofOrder hf, key_of_ofOrder hf', h.keyText_eq hordering]

/-- A condition is an expression where it has a part, so no ordering stands there. -/
theorem sameKey_condition {o o' : Option Operand} (head : String)
    (h : Option.Rel Operand.Resembles o o') :
    SameKey (ofCondition head o) (ofCondition head o') := by
  intro f f' hf hf'
  cases h with
  | none =>
    cases hf
    cases hf'
    rfl
  | @some o o' ho =>
    obtain ⟨e, he, hf⟩ := Succeeding.bind_eq_ok.mp hf
    obtain ⟨g, hg, hf⟩ := Succeeding.bind_eq_ok.mp hf
    obtain ⟨e', he', hf'⟩ := Succeeding.bind_eq_ok.mp hf'
    obtain ⟨g', hg', hf'⟩ := Succeeding.bind_eq_ok.mp hf'
    cases hf
    cases hf'
    have hlexemes : e.lexemes = e'.lexemes := by
      cases ho with
      | same o => rw [Except.ok.inj (he.symm.trans he')]
      | expression hee =>
        cases he
        cases he'
        exact hee.body.lexemes_eq
      | ordering => cases he
    apply String.toList_injective
    rw [key_append, key_append, key_of_ofExpr hg, key_of_ofExpr hg', hlexemes]

/-- A subquery enters a key with its SQL only. -/
theorem sameKey_ofCtes {ctes ctes' : List (String × Query)} {fs fs' : List Fingerprint}
    (h : List.Forall₂ (fun e e' ↦ e.1 = e'.1 ∧ AlikeStatements e.2.compile e'.2.compile) ctes ctes')
    (hf : (ofCtes ctes).result = .ok fs) (hf' : (ofCtes ctes').result = .ok fs') :
    fs.map key = fs'.map key := by
  rw [ofCtes, Traced.result_mapM] at hf hf'
  refine keys_eq_of_mapM hf hf' (h.imp fun e e' he f f' hx hy ↦ ?_)
  obtain ⟨s, hs, hx⟩ := Traced.result_bind_eq_ok.mp hx
  obtain ⟨s', hs', hy⟩ := Traced.result_bind_eq_ok.mp hy
  cases hx
  cases hy
  obtain ⟨hsql, -⟩ := he.2 s s' hs hs'
  rw [ofStatement, ofStatement, he.1, hsql]

theorem sameKey_source {c c' : Clauses} {t : Table} {inner inner' : Option Query}
    (hfinal : inner.isNone → c.final = c'.final)
    (hinner : Option.Rel (fun i i' : Query ↦ AlikeStatements i.compile i'.compile) inner inner') :
    SameKey (ofSource c (some (t, inner))).result (ofSource c' (some (t, inner'))).result := by
  intro f f' hf hf'
  cases hinner with
  | none =>
    cases hf
    cases hf'
    rw [hfinal rfl]
  | some hi =>
    obtain ⟨s, hs, hf⟩ := Traced.result_bind_eq_ok.mp hf
    obtain ⟨s', hs', hf'⟩ := Traced.result_bind_eq_ok.mp hf'
    cases hf
    cases hf'
    obtain ⟨hsql, -⟩ := hi s s' hs hs'
    rw [ofStatement, ofStatement, hsql]

/-- The parts of selected items one by one; orderings among them are the same. -/
private theorem keys_eq_of_selectedItems {c c' : Clauses} {fs fs' : List Fingerprint}
    (h : c.Resembles c')
    (hordering : List.Forall₂ (fun x x' ↦ x.2.isOrdering = true → x.2 = x'.2) c.selection
      c'.selection)
    (hf : selectedItems c = .ok fs) (hf' : selectedItems c' = .ok fs') :
    fs.map key = fs'.map key := by
  unfold selectedItems at hf hf'
  rw [← h.misfits_eq] at hf'
  generalize c.misfits.selection = misfit at hf hf'
  cases misfit with
  | none =>
    rw [List.forall₂_iff_zip] at hordering
    obtain ⟨hlength, hitems⟩ := List.forall₂_iff_zip.mp h.selection
    refine keys_eq_of_mapM hf hf' (List.forall₂_iff_zip.mpr ⟨hlength, fun hx f f' hf hf' ↦ ?_⟩)
    apply String.toList_injective
    rw [key_of_ofSelected hf, key_of_ofSelected hf',
      (hitems hx).selectedText_eq (hordering.2 hx)]
  | some v => rw [Except.ok.inj (hf.symm.trans hf')]

/-- The parts of selected items, which may be orderings where these are the same. -/
theorem sameKey_selection {c c' : Clauses} (h : c.Resembles c')
    (hordering : List.Forall₂ (fun x x' ↦ x.2.isOrdering = true → x.2 = x'.2) c.selection
      c'.selection) : SameKey (ofSelection c) (ofSelection c') := by
  intro f f' hf hf'
  have hpending : c'.pending = c.pending := (h.eq_of_others Clauses.pending fun _ ↦ rfl).symm
  have hdistinct : c'.distinct = c.distinct := (h.eq_of_others Clauses.distinct fun _ ↦ rfl).symm
  unfold ofSelection at hf hf'
  rw [hpending, ← h.misfits_eq, hdistinct] at hf'
  split at hf
  · next hp =>
    rw [if_pos hp] at hf'
    rw [Except.ok.inj (hf.symm.trans hf')]
  · next hp =>
    rw [if_neg hp] at hf'
    obtain ⟨fs, hfs, hf⟩ := Succeeding.bind_eq_ok.mp hf
    obtain ⟨fs', hfs', hf'⟩ := Succeeding.bind_eq_ok.mp hf'
    have hsame := keys_eq_of_selectedItems h hordering hfs hfs'
    rw [← isEmpty_eq_of_keys hsame] at hf'
    split at hf
    · next he =>
      rw [if_pos he] at hf'
      rw [Except.ok.inj (hf.symm.trans hf')]
    · next he =>
      rw [if_neg he] at hf'
      cases hf
      cases hf'
      exact congrArg (_ ++ ·) (key_concat_eq hsame)

end Fingerprint

/-! ### What compiles -/

namespace Clauses

variable {c : Clauses} {t : Table} {scope : Scope} {inner : Option (Traced Statement)}
  {b b' : Bindings} {sql : String}

/-- Items that are written in a row are no orderings. -/
private theorem not_isOrdering_of_mapM {ι α : Type} {items : List ι} (item : ι → Operand)
    (text : ι → String → α) {written : List α}
    (h : (items.mapM fun i ↦ do
      return text i (← Writing.rendering ((item i).render scope))).Done b written b') :
    ∀ i ∈ items, ¬ (item i).isOrdering = true := by
  have hsucceeds := Writing.succeedsIff_mapM fun i (_ : i ∈ items) ↦
    (Writing.succeedsIff_renderOperand scope (item i)).map (text i)
  exact fun i hi ↦ ((hsucceeds b).mp ⟨written, b', h⟩ i hi).not_isOrdering

theorem not_isOrdering_of_groupBy (h : (c.writeGroupBy scope).Done b sql b') :
    ∀ o ∈ c.groupBy, ¬ o.isOrdering = true := by
  rcases hm : c.misfits.groupBy with _ | v <;> simp only [writeGroupBy, hm] at h
  · split at h
    · next hempty => simp [List.isEmpty_iff.mp hempty]
    · obtain ⟨items, b₁, hitems, -⟩ := Writing.done_bind.mp h
      have hwritten : c.groupBy.mapM (fun o ↦ do
          return id (← Writing.rendering (o.render scope))) =
          c.groupBy.mapM fun o ↦ Writing.rendering (o.render scope) := by
        simp only [id, bind_pure]
      exact not_isOrdering_of_mapM (fun o ↦ o) (fun _ ↦ id) (hwritten ▸ hitems)
  · obtain ⟨_, _, ht, -⟩ := Writing.done_bind.mp h
    exact absurd ht Writing.not_done_throw

theorem not_isOrdering_of_orderBy (h : (c.writeOrderBy scope).Done b sql b') :
    ∀ o ∈ c.orderBy, ¬ o.item.isOrdering = true := by
  obtain ⟨_, -, h⟩ := Writing.done_check_bind.mp h
  split at h
  · next hempty => simp [List.isEmpty_iff.mp hempty]
  · obtain ⟨items, b₁, hitems, -⟩ := Writing.done_bind.mp h
    exact not_isOrdering_of_mapM OrderItem.item _ hitems

theorem not_isOrdering_of_from (h : (c.writeFrom t inner scope).Done b sql b') :
    ∀ a ∈ c.arrayJoins, ¬ a.item.isOrdering = true := by
  have hm := table_of_writeFrom h
  rw [writeFrom_eq] at h
  simp only [writeFromInPlace, hm] at h
  obtain ⟨source, b₁, -, h⟩ := Writing.done_bind.mp h
  obtain ⟨joins, b₂, -, h⟩ := Writing.done_bind.mp h
  obtain ⟨arrays, b₃, h, -⟩ := Writing.done_bind.mp h
  obtain ⟨_, -, h⟩ := Writing.done_check_bind.mp h
  obtain ⟨items, b₄, hitems, -⟩ := Writing.done_bind.mp h
  exact not_isOrdering_of_mapM ArrayJoin.item _ hitems

end Clauses

/-! ### Queries -/

namespace Query

/-- An ordering that is selected in place of a column or an expression is the same in both
queries. -/
def SelectsSameOrderings (q q' : Query) : Prop :=
  List.Forall₂ (fun x x' ↦ x.2.isOrdering = true → x.2 = x'.2) q.clauses.selection
    q'.clauses.selection

variable {q q' : Query} {s s' : Statement} {f f' : Fingerprint}

/-- Hints do not depend on literals. -/
private theorem Resembles.suggestions_eq (h : q.Resembles q') (hs : q.compile.result = .ok s)
    (hs' : q'.compile.result = .ok s') : s.suggestions = s'.suggestions := by
  obtain ⟨t, inner, p, hsource, hp, rfl⟩ := pieces_of_compile hs
  obtain ⟨t', inner', p', hsource', hp', rfl⟩ := pieces_of_compile hs'
  obtain ⟨rfl, -⟩ := h.alike.source t inner t' inner' hsource hsource'
  have hhints : q.clauses.writeSuggestions t = q'.clauses.writeSuggestions t :=
    h.clauses.eq_of_others (Clauses.writeSuggestions · t) fun _ ↦ rfl
  exact Except.ok.inj (hp.suggestions.symm.trans (hhints.trans hp'.suggestions))

/-- A key does not depend on literals but through their types, unless an ordering is selected. -/
private theorem Resembles.key_eq (h : q.Resembles q') (hordering : q.SelectsSameOrderings q')
    (hs : q.compile.result = .ok s) (hs' : q'.compile.result = .ok s')
    (hf : q.fingerprint.result = .ok f) (hf' : q'.fingerprint.result = .ok f') :
    f.key = f'.key := by
  obtain ⟨p, hp, rfl⟩ := fingerprint_eq_ok.mp hf
  obtain ⟨p', hp', rfl⟩ := fingerprint_eq_ok.mp hf'
  obtain ⟨t, inner, pieces, hsource, hw, -⟩ := pieces_of_compile hs
  obtain ⟨t', inner', -, hsource', -, -⟩ := pieces_of_compile hs'
  obtain ⟨rfl, hfinal, hinner⟩ := h.alike.source t inner t' inner' hsource hsource'
  have hc := h.clauses
  have hctes := Fingerprint.sameKey_ofCtes h.alike.ctes hp.ctes hp'.ctes
  have hselection := Fingerprint.sameKey_selection hc hordering hp.selection hp'.selection
  have hfrom : p.source.key = p'.source.key :=
    Fingerprint.sameKey_source hfinal hinner (hsource ▸ hp.source) (hsource' ▸ hp'.source)
  have hjoins := Fingerprint.keys_eq_of_mapM hp.joins hp'.joins
    (hc.joins.imp fun _ _ hj ↦ Fingerprint.sameKey_join hj)
  have harrays := Fingerprint.keys_eq_of_forall hp.arrayJoins hp'.arrayJoins
    (Clauses.not_isOrdering_of_from hw.source) hc.arrayJoins
    fun _ _ ↦ Fingerprint.sameKey_arrayJoin
  have hprewhere := Fingerprint.sameKey_condition "|PREWHERE:" hc.prewhere hp.prewhere hp'.prewhere
  have hcondition := Fingerprint.sameKey_condition "|WHERE:" hc.condition hp.condition hp'.condition
  have hgroupBy := Fingerprint.keys_eq_of_forall hp.groupBy hp'.groupBy
    (Clauses.not_isOrdering_of_groupBy hw.groupBy) hc.groupBy
    fun _ _ ↦ Fingerprint.sameKey_grouped
  have hhaving := Fingerprint.sameKey_condition "|HAVING:" hc.having hp.having hp'.having
  have horderBy := Fingerprint.keys_eq_of_forall hp.orderBy hp'.orderBy
    (Clauses.not_isOrdering_of_orderBy hw.orderBy) hc.orderBy
    fun _ _ ↦ Fingerprint.sameKey_order
  have htail : p.tail = p'.tail := Except.ok.inj (hp.tail.symm.trans
    ((hc.eq_of_others Fingerprint.tail fun _ ↦ rfl).trans hp'.tail))
  apply Fingerprint.key_concat_eq
  simp only [List.map_cons, List.map_nil, Fingerprint.key_clause_eq _ hctes, hselection, hfrom,
    Fingerprint.key_clause_eq _ hjoins, Fingerprint.key_clause_eq _ harrays, hprewhere, hcondition,
    Fingerprint.key_clause_eq _ hgroupBy, hhaving, Fingerprint.key_clause_eq _ horderBy, htail]

/-- Queries that differ in the values of literals only, where literals in one place have one type,
have the same template: SQL, names of parameters, columns and hints. Their keys are the same too,
unless different orderings are selected in place of a column or an expression. -/
theorem template_of_resembles (h : q.Resembles q') (hs : q.compile.result = .ok s)
    (hs' : q'.compile.result = .ok s') (hf : q.fingerprint.result = .ok f)
    (hf' : q'.fingerprint.result = .ok f') :
    Template.ofStatement s = Template.ofStatement s' ∧
      (q.SelectsSameOrderings q' → f.key = f'.key) := by
  obtain ⟨hsql, hparams, hcolumns⟩ := same_statement h.alike hs hs'
  refine ⟨?_, fun hordering ↦ h.key_eq hordering hs hs' hf hf'⟩
  rw [Template.ofStatement, Template.ofStatement, hsql, hparams, hcolumns,
    h.suggestions_eq hs hs']

private def logins : Table :=
  { name := "logins",
    columns := [("id", { name := "id", type := "UInt64", table := some "logins" })] }

private def newer (table : String) (n : Int) : Expr :=
  ⟨{}, .column "" { name := "id", type := "UInt64", table := some table }
    (.literal " > " (.int n) (.done ""))⟩

private def recentLogins (n : Int) : Query :=
  .mk { condition := some (.expression (newer "logins" n)) } [] (some (logins, none))

private def report (n m : Int) : Query :=
  .mk { condition := some (.expression (newer "v" m)) } [("recent", recentLogins n)]
    (some ({ name := "v" }, some (recentLogins n)))

private theorem newer_resembles (table : String) (n m : Int) :
    (newer table n).Resembles (newer table m) :=
  ⟨rfl, .column _ _ (.literal _ (.inr ⟨nofun, nofun, rfl⟩) (.done _))⟩

private theorem recentLogins_resembles (n m : Int) : (recentLogins n).Resembles (recentLogins m) :=
  .mk ⟨.nil, .nil, .nil, .none, .some (.expression (newer_resembles "logins" n m)), .nil, .none,
    .nil, rfl⟩ rfl .nil rfl .none

private theorem report_resembles (n n' m m' : Int) : (report n m).Resembles (report n' m') :=
  .mk ⟨.nil, .nil, .nil, .none, .some (.expression (newer_resembles "v" m m')), .nil, .none, .nil,
    rfl⟩ rfl (.cons (recentLogins_resembles n n') .nil) rfl (.some (recentLogins_resembles n n'))

/-- Literals of a named subquery, of a derived table and of the query itself. -/
theorem template_of_resembles_report : (report 7 9).Resembles (report 70 90) ∧
    ∃ s s' f f', (report 7 9).compile.result = .ok s ∧ (report 70 90).compile.result = .ok s' ∧
      (report 7 9).fingerprint.result = .ok f ∧ (report 70 90).fingerprint.result = .ok f' ∧
      s.params.map Prod.snd = [.int 7, .int 7, .int 9] ∧
      s'.params.map Prod.snd = [.int 70, .int 70, .int 90] ∧
      Template.ofStatement s = Template.ofStatement s' ∧ f.key = f'.key := by
  have h := report_resembles 7 70 9 90
  refine ⟨h, _, _, _, _, rfl, rfl, rfl, rfl, rfl, rfl, ?_⟩
  obtain ⟨htemplate, hkey⟩ := template_of_resembles h rfl rfl rfl rfl
  exact ⟨htemplate, hkey .nil⟩

/-- A query that selects an ordering in place of the column `id`. -/
private def ordered (n : Int) : Query :=
  .mk { selection := [("id", .ordering (.expression (newer "logins" n)) .asc)] } []
    (some (logins, none))

/-- A selected ordering leaves no trace in the statement, but its literals are in the key. -/
theorem not_template_of_resembles_ordered : (ordered 5).Resembles (ordered 6) ∧
    ∃ s f f', (ordered 5).compile.result = .ok s ∧ (ordered 6).compile.result = .ok s ∧
      (ordered 5).fingerprint.result = .ok f ∧ (ordered 6).fingerprint.result = .ok f' ∧
      f.key ≠ f'.key := by
  refine ⟨.mk ⟨.cons ⟨rfl, .ordering _ (.expression (newer_resembles "logins" 5 6))⟩ .nil, .nil,
    .nil, .none, .none, .nil, .none, .nil, rfl⟩ rfl .nil rfl .none, _, _, _, rfl, rfl, rfl, rfl, ?_⟩
  decide +kernel

end Query

end Columnar
