import Columnar.Proofs.Parts
import Columnar.Proofs.Placeholders.OnePass

/-!
# Keys that count values

Each literal opens a brace in a key, and leaves a value in the fingerprint. Where nothing else opens
one the key tells how many values there are, whatever else it does not tell apart
(`Query.counted_of_fingerprint`). `Query.keyTexts` are the texts that a query brings into its key,
and `Fingerprint.Counted` composes along the parts of a fingerprint.
-/

namespace Columnar

/-! ### Braces -/

/-- How many braces open in a text. -/
def Text.braces (s : String) : Nat := s.toList.count '{'

@[simp] theorem Text.braces_append (s t : String) : braces (s ++ t) = braces s + braces t := by
  rw [braces, String.toList_append, List.count_append]
  rfl

theorem Text.braces_of_unbraced {s : String} (h : Unbraced s) : braces s = 0 :=
  List.count_eq_zero.mpr h

theorem Text.unbraced_intercalate {separator : String} (hs : Unbraced separator)
    {ss : List String} (h : ∀ s ∈ ss, Unbraced s) : Unbraced (separator.intercalate ss) := by
  induction ss with
  | nil =>
    change Unbraced ""
    decide
  | cons s ss ih =>
    obtain ⟨hfirst, hothers⟩ := List.forall_mem_cons.mp h
    cases ss with
    | nil => simpa using hfirst
    | cons t ts =>
      rw [String.intercalate_cons_cons, unbraced_append, unbraced_append]
      exact ⟨⟨hfirst, hs⟩, ih hothers⟩

/-- The mark of a literal opens one brace. -/
theorem braces_typeMark {type : String} (h : Text.Unbraced type) :
    Text.braces (typeMark type) = 1 := by
  rw [typeMark, Text.braces_append, Text.braces_append, Text.braces_of_unbraced h]
  rfl

theorem Outline.length_openings (s : List Char) : (openings s).length = s.count '{' := by
  induction s with
  | nil => rfl
  | cons c s ih =>
    rw [openings, List.count_cons, ← ih]
    by_cases hc : c = '{' <;> simp [hc]

/-- A statement of a query whose texts have no braces opens one for each parameter. -/
theorem Query.braces_sql {q : Query} {s : Statement} (hq : q.Unbraced)
    (hs : q.compile.result = .ok s) : Text.braces s.sql = s.params.length := by
  obtain ⟨b, -, hparams, o, ho, -, hw, -⟩ := onePass hq hs
  have hcount := hw.count
  obtain ⟨hsql, vs, -, rfl⟩ := hw
  have hopens := (Outline.opens_write ho 0).length_eq
  rw [Outline.length_openings, List.length_zipIdx] at hopens
  have hlength : s.params.length = vs.length := by
    rw [hparams, Bindings.params_extend_empty, ← List.length_map Prod.snd, Bindings.values_numbered]
  change 0 + vs.length = 0 + o.literals.length at hcount
  rw [Text.braces, hsql, hlength]
  exact hopens.trans (Nat.add_left_cancel hcount).symm

/-! ### Texts in a key -/

/-- The texts that a body brings into a key. An undefined literal leaves no value, so its mark is
one of them. -/
def Body.keyTexts : Body → List String
  | missing => []
  | done text => [text]
  | column text c rest => text :: (c.texts ++ rest.keyTexts)
  | nested text _ inner rest => text :: (inner.keyTexts ++ rest.keyTexts)
  | literal text v rest =>
    match v with
    | .undefined => text :: typeMark "UNDEFINED" :: rest.keyTexts
    | _ => text :: rest.keyTexts
  | raw text insert rest => text :: insert :: rest.keyTexts

/-- The texts that an operand brings into a key. -/
def Operand.keyTexts : Operand → List String
  | column c => c.texts
  | expression e => e.label.texts ++ e.body.keyTexts
  | o => [o.inspect]

/-- The texts that a join brings into a key. -/
def Join.keyTexts (j : Join) : List String :=
  j.keyword :: j.table :: j.on.toList.flatMap fun e ↦ (Operand.expression e).keyTexts

/-- The texts that an expanded array brings into a key. -/
def ArrayJoin.keyTexts (a : ArrayJoin) : List String := a.item.keyTexts ++ a.aliasName.toList

namespace Clauses

/-- The texts that the selection brings into a key. -/
def selectedKeyTexts (c : Clauses) : List String :=
  match c.misfits.selection with
  | none => c.selection.flatMap fun e ↦ e.1 :: e.2.keyTexts
  | some v => ((v.entriesFor "items").toOption.getD []).map fun e ↦
    (Fingerprint.ofSelectedValue e).key

/-- The texts that clauses bring into a key. -/
def keyTexts (c : Clauses) : List String :=
  c.selectedKeyTexts ++ (c.joins.flatMap Join.keyTexts ++
    (c.arrayJoins.flatMap ArrayJoin.keyTexts ++ (c.prewhere.toList.flatMap Operand.keyTexts ++
    (c.condition.toList.flatMap Operand.keyTexts ++ (c.groupBy.flatMap Operand.keyTexts ++
    (c.having.toList.flatMap Operand.keyTexts ++ (c.orderBy.flatMap (·.item.keyTexts) ++
    (Fingerprint.tail c).toOption.toList)))))))

end Clauses

/-- The texts that a source brings into a key. -/
def Query.sourceKeyTexts : Option (Table × Option Query) → List String
  | none => []
  | some (t, inner) => t.name :: (t.options.projections ++ inner.toList.flatMap Query.texts)

/-- The texts that a query brings into its key. Subqueries bring all of theirs, as they enter with
their statements. -/
def Query.keyTexts (q : Query) : List String :=
  q.ctes.flatMap (fun e ↦ e.1 :: e.2.texts) ++ (sourceKeyTexts q.source ++ q.clauses.keyTexts)

/-- No text that the query brings into its key has an opening brace. -/
def Query.KeyUnbraced (q : Query) : Prop := ∀ s ∈ q.keyTexts, Text.Unbraced s

instance (q : Query) : Decidable q.KeyUnbraced :=
  inferInstanceAs (Decidable (∀ s ∈ q.keyTexts, _))

/-! ### Parts of a key -/

theorem Column.unbraced_signature {c : Column} (h : ∀ s ∈ c.texts, Text.Unbraced s) :
    Text.Unbraced c.signature := by
  have hname : Text.Unbraced c.name := h _ (by simp [texts])
  unfold signature
  split
  · next table htable =>
    have ht : c.table = some table := (Option.filter_eq_some_iff.mp htable).1
    simp only [Text.unbraced_append]
    exact ⟨⟨h table (by simp [texts, ht]), by decide⟩, hname⟩
  · exact hname

/-- What is walked opens a brace for each literal that it meets. -/
theorem Body.braces_of_walk {body : Body} {last : Option Column} {w : Walked}
    (hlast : ∀ c ∈ last, Text.Unbraced c.type) (ht : ∀ s ∈ body.keyTexts, Text.Unbraced s)
    (h : body.walk last = .ok w) : Text.braces w.text = w.seen.length := by
  induction body generalizing last w with
  | missing => cases h
  | done text =>
    cases h
    exact Text.braces_of_unbraced (ht text List.mem_cons_self)
  | column text c rest ih =>
    simp only [keyTexts, List.forall_mem_cons, List.forall_mem_append] at ht
    obtain ⟨htext, hcolumn, hrest⟩ := ht
    obtain ⟨r, hr, h⟩ := Succeeding.bind_eq_ok.mp h
    cases h
    have htype : ∀ d ∈ some c, Text.Unbraced d.type := by
      rintro d ⟨⟩
      exact hcolumn _ (by simp [Column.texts])
    simp [Walked.after, ih htype hrest hr, Text.braces_of_unbraced htext,
      Text.braces_of_unbraced (Column.unbraced_signature hcolumn)]
  | nested text label inner rest ihInner ihRest =>
    simp only [keyTexts, List.forall_mem_cons, List.forall_mem_append] at ht
    obtain ⟨htext, hinner, hrest⟩ := ht
    obtain ⟨i, hi, h⟩ := Succeeding.bind_eq_ok.mp h
    obtain ⟨r, hr, h⟩ := Succeeding.bind_eq_ok.mp h
    cases h
    simp [Walked.after, ihInner (by simp) hinner hi, ihRest (by simp) hrest hr,
      Text.braces_of_unbraced htext]
  | literal text v rest ih =>
    by_cases hv : v = .undefined
    · subst hv
      have hmark := ht (typeMark "UNDEFINED") (by simp [keyTexts])
      exact absurd hmark (by decide)
    · have hliteral : (literal text v rest).keyTexts = text :: rest.keyTexts := by
        cases v <;> first | rfl | exact absurd rfl hv
      rw [hliteral] at ht
      obtain ⟨htext, hrest⟩ := List.forall_mem_cons.mp ht
      rw [walk_literal hv] at h
      obtain ⟨serial, -, h⟩ := Succeeding.bind_eq_ok.mp h
      obtain ⟨r, hr, h⟩ := Succeeding.bind_eq_ok.mp h
      cases h
      have hmark := braces_typeMark (Literal.unbraced_inferType (v := v) hlast)
      simp [Walked.after, ih (by simp) hrest hr, Text.braces_of_unbraced htext, hmark, Nat.add_comm]
  | raw text insert rest ih =>
    simp only [keyTexts, List.forall_mem_cons] at ht
    obtain ⟨htext, hinsert, hrest⟩ := ht
    obtain ⟨r, hr, h⟩ := Succeeding.bind_eq_ok.mp h
    cases h
    simp [Walked.after, ih (by simp) hrest hr, Text.braces_of_unbraced htext,
      Text.braces_of_unbraced hinsert]

namespace Fingerprint

/-- The key opens a brace for each value. -/
def Counted (f : Fingerprint) : Prop := Text.braces f.key = f.values.length

variable {f g : Fingerprint} {fs : List Fingerprint}

theorem counted_ofText {text : String} (h : Text.Unbraced text) : (ofText text).Counted :=
  Text.braces_of_unbraced h

theorem Counted.append (hf : f.Counted) (hg : g.Counted) : (f ++ g).Counted := by
  have hkey : (f ++ g).key = f.key ++ g.key := rfl
  rw [Counted, hkey, Text.braces_append, hf, hg, values_append, List.length_append]

theorem counted_concat (h : ∀ f ∈ fs, f.Counted) : (concat fs).Counted := by
  induction fs with
  | nil => exact counted_ofText (by decide)
  | cons f fs ih =>
    obtain ⟨hf, hfs⟩ := List.forall_mem_cons.mp h
    exact hf.append (ih hfs)

theorem counted_clause {head : String} (hhead : Text.Unbraced head) (h : ∀ f ∈ fs, f.Counted) :
    (clause head fs).Counted := by
  unfold clause
  split
  · exact counted_ofText (by decide)
  · exact (counted_ofText hhead).append (counted_concat h)

theorem counted_ofExpr {e : Expr} (ht : ∀ s ∈ e.body.keyTexts, Text.Unbraced s)
    (h : ofExpr e = .ok f) : f.Counted := by
  obtain ⟨w, hw, h⟩ := Succeeding.bind_eq_ok.mp h
  cases h
  rw [Counted, Body.braces_of_walk (by simp) ht hw, List.length_map]

theorem counted_ofItem {o : Operand} (ht : ∀ s ∈ o.keyTexts, Text.Unbraced s)
    (h : ofItem o = .ok f) : f.Counted := by
  cases o with
  | column c =>
    cases h
    refine counted_ofText ((Text.unbraced_append _ _).mpr ⟨by decide, ?_⟩)
    exact Column.unbraced_signature ht
  | expression e =>
    obtain ⟨g, hg, h⟩ := Succeeding.bind_eq_ok.mp h
    cases h
    refine (counted_ofText (by decide)).append (counted_ofExpr (fun s hs ↦ ?_) hg)
    exact ht s (List.mem_append_right _ hs)
  | value v | raw text | ordering item direction =>
    cases h
    refine counted_ofText ((Text.unbraced_append _ _).mpr ⟨by decide, ?_⟩)
    exact ht _ List.mem_cons_self

theorem unbraced_labels {o : Operand} (ht : ∀ s ∈ o.keyTexts, Text.Unbraced s) :
    Text.Unbraced (labels o) := by
  have hpart {head : String} (hhead : Text.Unbraced head) {s : Option String} {text : String}
      (hs : ∀ text ∈ s, Text.Unbraced text) (htext : s.filter (· ≠ "") = some text) :
      Text.Unbraced (head ++ text) :=
    (Text.unbraced_append _ _).mpr ⟨hhead, hs text (Option.filter_eq_some_iff.mp htext).1⟩
  cases o with
  | column c =>
    have halias : ∀ text ∈ c.aliasName, Text.Unbraced text := fun text htext ↦
      ht text (by simp [Operand.keyTexts, Column.texts, Option.mem_def.mp htext])
    have htype : ∀ text ∈ some c.type, Text.Unbraced text := by
      rintro text ⟨⟩
      exact ht _ (by simp [Operand.keyTexts, Column.texts])
    refine (Text.unbraced_append _ _).mpr ⟨?_, ?_⟩ <;> dsimp only <;> split
    · next htext => exact hpart (by decide) halias htext
    · decide
    · next htext => exact hpart (by decide) htype htext
    · decide
  | expression e =>
    have halias : ∀ text ∈ e.label.aliasName, Text.Unbraced text := fun text htext ↦
      ht text (by simp_all [Operand.keyTexts, Label.texts])
    have htype : ∀ text ∈ e.label.type, Text.Unbraced text := fun text htext ↦
      ht text (by simp_all [Operand.keyTexts, Label.texts])
    refine (Text.unbraced_append _ _).mpr ⟨?_, ?_⟩ <;> dsimp only <;> split
    · next htext => exact hpart (by decide) halias htext
    · decide
    · next htext => exact hpart (by decide) htype htext
    · decide
  | value v | raw text | ordering item direction =>
    change Text.Unbraced ""
    decide

theorem counted_ofSelected {e : String × Operand} (hname : Text.Unbraced e.1)
    (ht : ∀ s ∈ e.2.keyTexts, Text.Unbraced s) (h : ofSelected e = .ok f) : f.Counted := by
  obtain ⟨g, hg, h⟩ := Succeeding.bind_eq_ok.mp h
  cases h
  refine ((counted_ofText ?_).append (counted_ofItem ht hg)).append (counted_ofText ?_)
  · exact (Text.unbraced_append _ _).mpr ⟨hname, by decide⟩
  · exact (Text.unbraced_append _ _).mpr ⟨unbraced_labels ht, by decide⟩

theorem counted_ofJoin {j : Join} (ht : ∀ s ∈ j.keyTexts, Text.Unbraced s)
    (h : ofJoin j = .ok f) : f.Counted := by
  simp only [Join.keyTexts, List.forall_mem_cons] at ht
  obtain ⟨hkeyword, htable, hon⟩ := ht
  have hhead : Text.Unbraced (j.keyword ++ ":" ++ j.table) := by
    simp only [Text.unbraced_append]
    exact ⟨⟨hkeyword, by decide⟩, htable⟩
  unfold ofJoin at h
  rcases hj : j.on with _ | e <;> rw [hj] at h hon
  · cases h
    exact ((counted_ofText hhead).append (counted_ofText (by decide))).append
      (counted_ofText (by decide))
  · obtain ⟨g, hg, h⟩ := Succeeding.bind_eq_ok.mp h
    cases h
    have hexpr := counted_ofExpr (fun s hs ↦ hon s (by simp [Operand.keyTexts, hs])) hg
    exact ((counted_ofText hhead).append ((counted_ofText (by decide)).append hexpr)).append
      (counted_ofText (by decide))

theorem counted_ofArrayJoin {a : ArrayJoin} (ht : ∀ s ∈ a.keyTexts, Text.Unbraced s)
    (h : ofArrayJoin a = .ok f) : f.Counted := by
  obtain ⟨hitem, halias⟩ := List.forall_mem_append.mp ht
  obtain ⟨g, hg, h⟩ := Succeeding.bind_eq_ok.mp h
  cases h
  refine (counted_ofItem hitem hg).append (counted_ofText ?_)
  refine (Text.unbraced_append _ _).mpr ⟨?_, by decide⟩
  split
  · next name hname =>
    refine (Text.unbraced_append _ _).mpr ⟨by decide, halias name ?_⟩
    exact Option.mem_toList.mpr (Option.filter_eq_some_iff.mp hname).1
  · decide

theorem counted_ofCondition {head : String} (hhead : Text.Unbraced head) {o : Option Operand}
    (ht : ∀ s ∈ o.toList.flatMap Operand.keyTexts, Text.Unbraced s)
    (h : ofCondition head o = .ok f) : f.Counted := by
  cases o with
  | none =>
    cases h
    exact counted_ofText (by decide)
  | some o =>
    obtain ⟨e, he, h⟩ := Succeeding.bind_eq_ok.mp h
    obtain ⟨g, hg, h⟩ := Succeeding.bind_eq_ok.mp h
    cases h
    cases o with
    | expression e' =>
      cases he
      exact (counted_ofText hhead).append
        (counted_ofExpr (fun s hs ↦ ht s (by simp [Operand.keyTexts, hs])) hg)
    | value v | column c | raw text | ordering item direction => cases he

theorem counted_ofGrouped {o : Operand} (ht : ∀ s ∈ o.keyTexts, Text.Unbraced s)
    (h : ofGrouped o = .ok f) : f.Counted := by
  obtain ⟨g, hg, h⟩ := Succeeding.bind_eq_ok.mp h
  cases h
  exact (counted_ofItem ht hg).append (counted_ofText (by decide))

theorem counted_ofOrder {o : OrderItem} (ht : ∀ s ∈ o.item.keyTexts, Text.Unbraced s)
    (h : ofOrder o = .ok f) : f.Counted := by
  obtain ⟨g, hg, h⟩ := Succeeding.bind_eq_ok.mp h
  cases h
  refine (counted_ofItem ht hg).append (counted_ofText ?_)
  cases o.direction <;> decide

theorem counted_ofSelection {c : Clauses} (ht : ∀ s ∈ c.selectedKeyTexts, Text.Unbraced s)
    (h : ofSelection c = .ok f) : f.Counted := by
  have hitems {items : List Fingerprint} (h : selectedItems c = .ok items) :
      ∀ f ∈ items, f.Counted := by
    unfold selectedItems at h
    unfold Clauses.selectedKeyTexts at ht
    rcases hm : c.misfits.selection with _ | v <;> simp only [hm] at h ht
    · refine Succeeding.forall_mem_of_mapM (fun e he f hf ↦ ?_) h
      have hentry := fun s hs ↦ ht s (List.mem_flatMap.mpr ⟨e, he, hs⟩)
      obtain ⟨hname, hitem⟩ := List.forall_mem_cons.mp hentry
      exact counted_ofSelected hname hitem hf
    · obtain ⟨entries, he, h⟩ := Succeeding.bind_eq_ok.mp h
      cases h
      intro f hf
      obtain ⟨e, hmem, rfl⟩ := List.mem_map.mp hf
      refine counted_ofText (ht _ ?_)
      rw [he]
      exact List.mem_map.mpr ⟨e, hmem, rfl⟩
  unfold ofSelection at h
  split at h
  · cases h
    exact counted_ofText (by decide)
  · obtain ⟨items, hi, h⟩ := Succeeding.bind_eq_ok.mp h
    have hhead : Text.Unbraced (if c.distinct then "|SEL:DISTINCT:" else "|SEL:") := by
      split <;> decide
    cases h
    split
    · exact counted_ofText ((Text.unbraced_append _ _).mpr ⟨hhead, by decide⟩)
    · exact (counted_ofText hhead).append (counted_concat (hitems hi))

theorem counted_ofStatement {before after : String} {q : Query} {s : Statement}
    (hbefore : Text.Unbraced before) (hafter : Text.Unbraced after) (hq : q.Unbraced)
    (hs : q.compile.result = .ok s) : (ofStatement before after s).Counted := by
  change Text.braces (before ++ s.sql ++ after) = (s.params.map Prod.snd).length
  rw [Text.braces_append, Text.braces_append, Text.braces_of_unbraced hbefore,
    Text.braces_of_unbraced hafter, Query.braces_sql hq hs, List.length_map]
  omega

theorem counted_ofCtes {ctes : List (String × Query)}
    (ht : ∀ s ∈ ctes.flatMap (fun e ↦ e.1 :: e.2.texts), Text.Unbraced s)
    (h : (ofCtes ctes).result = .ok fs) : ∀ f ∈ fs, f.Counted := by
  rw [ofCtes, Traced.result_mapM] at h
  refine Succeeding.forall_mem_of_mapM (fun e he f hf ↦ ?_) h
  have hentry := fun s hs ↦ ht s (List.mem_flatMap.mpr ⟨e, he, hs⟩)
  obtain ⟨hname, hq⟩ := List.forall_mem_cons.mp hentry
  obtain ⟨s, hs, hf⟩ := Traced.result_bind_eq_ok.mp hf
  cases hf
  refine counted_ofStatement ?_ (by decide) hq hs
  simp only [Text.unbraced_append]
  exact ⟨⟨by decide, hname⟩, by decide⟩

theorem counted_ofSource {c : Clauses} {source : Option (Table × Option Query)}
    (ht : ∀ s ∈ Query.sourceKeyTexts source, Text.Unbraced s)
    (h : (ofSource c source).result = .ok f) : f.Counted := by
  rcases source with _ | ⟨t, _ | q⟩
  · rcases hm : c.misfits.table with _ | v <;> simp only [ofSource, hm] at h <;> cases h
    exact counted_ofText (by decide)
  · simp only [Query.sourceKeyTexts, List.forall_mem_cons, List.forall_mem_append] at ht
    obtain ⟨hname, hprojections, -⟩ := ht
    cases h
    refine counted_ofText ?_
    simp only [Text.unbraced_append]
    refine ⟨⟨⟨by decide, hname⟩, by split <;> decide⟩, ?_⟩
    split
    · decide
    · refine (Text.unbraced_append _ _).mpr ⟨by decide, ?_⟩
      exact Text.unbraced_intercalate (by decide) hprojections
  · simp only [Query.sourceKeyTexts, List.forall_mem_cons, List.forall_mem_append] at ht
    obtain ⟨hname, -, hq⟩ := ht
    obtain ⟨s, hs, h⟩ := Traced.result_bind_eq_ok.mp h
    cases h
    refine counted_ofStatement (by decide) ?_ (q := q) (fun s hs ↦ hq s (by simpa using hs)) hs
    exact (Text.unbraced_append _ _).mpr ⟨by decide, hname⟩

end Fingerprint

open Fingerprint in
/-- The key of a query opens a brace for each value, when no text in it has an opening brace. -/
theorem Query.counted_of_fingerprint {q : Query} {f : Fingerprint} (hq : q.KeyUnbraced)
    (hf : q.fingerprint.result = .ok f) : f.Counted := by
  obtain ⟨p, h, rfl⟩ := fingerprint_eq_ok.mp hf
  simp only [KeyUnbraced, keyTexts, Clauses.keyTexts, List.forall_mem_append] at hq
  obtain ⟨hctes, hsource, hselection, hjoins, harrays, hprewhere, hcondition, hgroups, hhaving,
    horder, htail⟩ := hq
  have hall {α : Type} {texts : α → List String} {items : List α} {x : α}
      (ht : ∀ s ∈ items.flatMap texts, Text.Unbraced s) (hx : x ∈ items) :
      ∀ s ∈ texts x, Text.Unbraced s := fun s hs ↦ ht s (List.mem_flatMap.mpr ⟨x, hx, hs⟩)
  refine counted_concat ?_
  simp only [List.forall_mem_cons]
  refine ⟨counted_ofText (by decide), counted_clause (by decide) (counted_ofCtes hctes h.ctes),
    counted_ofSelection hselection h.selection, counted_ofSource hsource h.source,
    counted_clause (by decide) ?_, counted_clause (by decide) ?_,
    counted_ofCondition (by decide) hprewhere h.prewhere,
    counted_ofCondition (by decide) hcondition h.condition, counted_clause (by decide) ?_,
    counted_ofCondition (by decide) hhaving h.having, counted_clause (by decide) ?_,
    counted_ofText ?_, List.forall_mem_nil _⟩
  · exact Succeeding.forall_mem_of_mapM (fun j hj _ ↦ counted_ofJoin (hall hjoins hj)) h.joins
  · exact Succeeding.forall_mem_of_mapM (fun a ha _ ↦ counted_ofArrayJoin (hall harrays ha))
      h.arrayJoins
  · exact Succeeding.forall_mem_of_mapM (fun o ho _ ↦ counted_ofGrouped (hall hgroups ho)) h.groupBy
  · refine Succeeding.forall_mem_of_mapM (fun o ho _ ↦ counted_ofOrder fun s hs ↦ ?_) h.orderBy
    exact horder s (List.mem_flatMap.mpr ⟨o, ho, hs⟩)
  · exact htail p.tail (by simp [h.tail, Except.toOption])

/-- Queries that share a key have the same number of values, when no text in it has an opening
brace. -/
theorem Query.length_values_of_key {q q' : Query} {f f' : Fingerprint} (hq : q.KeyUnbraced)
    (hq' : q'.KeyUnbraced) (hf : q.fingerprint.result = .ok f)
    (hf' : q'.fingerprint.result = .ok f') (hkey : f.key = f'.key) :
    f.values.length = f'.values.length := by
  have hcount := counted_of_fingerprint hq hf
  have hcount' := counted_of_fingerprint hq' hf'
  rw [Fingerprint.Counted, hkey] at hcount
  exact hcount.symm.trans hcount'

end Columnar
