import Columnar.Proofs.Keys.Alike
import Columnar.Proofs.Parts
import Columnar.Proofs.Succeeding

/-!
# Segments of a key

A key is the word `SELECT` and a segment for each clause: nothing for a clause that holds nothing,
otherwise a bar, the head of the clause, a colon and what the clause holds. Segments that hold no
bar can be told apart (`Segment.eq_of_join`). `Query.segments` says what each clause of a query
holds in its key, and `Query.key_of_fingerprint` that the key is made of them.
-/

namespace Columnar

/-- The head of a clause, and what the clause holds in a key. -/
abbrev Segment := String × Option (List Char)

namespace Segment

/-- A segment in a key. -/
def text : Segment → List Char
  | (_, none) => []
  | (head, some body) => '|' :: (head.toList ++ ':' :: body)

/-- Segments in a key. -/
def join (ss : List Segment) : List Char := ss.flatMap text

variable {ss ts : List Segment}

theorem ends_join (ss : List Segment) : Splitting.Ends '|' (join ss) := by
  induction ss with
  | nil => exact Splitting.ends_nil '|'
  | cons s ss ih =>
    obtain ⟨head, body⟩ := s
    cases body with
    | none => exact ih
    | some body => exact Splitting.ends_cons '|' _

/-- Segments do not begin with a head that none of them has. -/
private theorem join_ne {head : String} (hhead : head ∉ ss.map Prod.fst)
    (hcolon : ':' ∉ head.toList) (hcolons : ∀ head ∈ ss.map Prod.fst, ':' ∉ head.toList)
    (rest : List Char) : join ss ≠ '|' :: (head.toList ++ ':' :: rest) := by
  intro heq
  induction ss with
  | nil => cases heq
  | cons s ss ih =>
    obtain ⟨other, body⟩ := s
    cases body with
    | none =>
      exact ih (fun hmem ↦ hhead (List.mem_cons_of_mem _ hmem))
        (fun h hmem ↦ hcolons h (List.mem_cons_of_mem _ hmem)) heq
    | some body =>
      rw [join, List.flatMap_cons, text, List.cons_append, List.append_assoc,
        List.cons_append] at heq
      obtain ⟨hsame, -⟩ := Splitting.eq_of_first (hcolons other (by simp)) hcolon
        (List.cons.inj heq).2
      exact hhead (List.mem_map.mpr ⟨_, List.mem_cons_self, String.toList_injective hsame⟩)

/-- Segments under the same heads in the same order are the same when they join to the same. -/
theorem eq_of_join (hheads : ss.map Prod.fst = ts.map Prod.fst)
    (hnodup : (ss.map Prod.fst).Nodup) (hcolons : ∀ head ∈ ss.map Prod.fst, ':' ∉ head.toList)
    (hs : ∀ s ∈ ss, ∀ body ∈ s.2, '|' ∉ body) (ht : ∀ s ∈ ts, ∀ body ∈ s.2, '|' ∉ body)
    (h : join ss = join ts) : ss = ts := by
  induction ss generalizing ts with
  | nil =>
    cases ts with
    | nil => rfl
    | cons t ts => cases hheads
  | cons s ss ih =>
    cases ts with
    | nil => cases hheads
    | cons t ts =>
      obtain ⟨head, body⟩ := s
      obtain ⟨head', body'⟩ := t
      obtain ⟨hhead, htails⟩ := List.cons.inj hheads
      obtain rfl : head = head' := hhead
      obtain ⟨hfresh, hnodup⟩ := List.nodup_cons.mp hnodup
      have hcolon : ':' ∉ head.toList := hcolons head (by simp)
      have hothers : ∀ head ∈ ss.map Prod.fst, ':' ∉ head.toList :=
        fun head hmem ↦ hcolons head (List.mem_cons_of_mem _ hmem)
      have hrest (h : join ss = join ts) : ss = ts :=
        ih htails hnodup hothers (fun s hmem ↦ hs s (List.mem_cons_of_mem _ hmem))
          (fun t hmem ↦ ht t (List.mem_cons_of_mem _ hmem)) h
      -- a clause that holds nothing cannot stand for one that does: its head comes no more
      cases body with
      | none =>
        cases body' with
        | none => rw [hrest h]
        | some body' =>
          apply absurd h
          simpa [join, text] using join_ne hfresh hcolon hothers (body' ++ join ts)
      | some body =>
        cases body' with
        | none =>
          rw [htails] at hfresh hothers
          apply absurd h.symm
          simpa [join, text] using join_ne hfresh hcolon hothers (body ++ join ss)
        | some body' =>
          have hbodies : body ++ join ss = body' ++ join ts := by
            simpa [join, text] using h
          obtain ⟨rfl, htail⟩ := Splitting.eq_of_until (hs _ List.mem_cons_self body rfl)
            (ht _ List.mem_cons_self body' rfl) (ends_join ss) (ends_join ts) hbodies
          rw [hrest htail]

end Segment

/-! ### What clauses hold in a key -/

namespace Segment

/-- An item before a semicolon. -/
def ended (item : List Char) : List Char := item ++ [';']

/-- An item between brackets. -/
def bracketed (item : List Char) : List Char := '(' :: item ++ [')']

/-- What a clause holds that has items. -/
def items (close : List Char → List Char) (xs : List (List Char)) : Option (List Char) :=
  if xs.isEmpty then none else some (xs.flatMap close)

/-- What a clause holds that has named entries. -/
def entries (es : List (String × String)) : Option (List Char) :=
  items ended ((Setting.sorted es).map fun e ↦ e.1.toList ++ '=' :: e.2.toList)

/-- A label after an item, when there is one. -/
def label (head : String) : Option String → List Char
  | none => []
  | some text => head.toList ++ ':' :: text.toList

end Segment

open Segment (ended bracketed items entries label)

namespace Operand

/-- How a key tells columns, expressions and others apart. -/
def tag : Operand → String
  | column _ => "COL:"
  | expression _ => "EXPR:"
  | _ => "RAW:"

/-- An operand in a key, after its tag. -/
def signature : Operand → List Char
  | column c => c.signature.toList
  | expression e => Lexeme.spell e.lexemes
  | o => o.inspect.toList

/-- An operand in a key. -/
def keyText (o : Operand) : List Char := o.tag.toList ++ o.signature

end Operand

/-- A selected item in a key. -/
def selectedText (e : String × Operand) : List Char :=
  e.1.toList ++ '=' ::
    (e.2.keyText ++ (label "AS" e.2.ownName ++ label "TYPE" e.2.ownType))

/-- A join in a key. -/
def Join.keyText (j : Join) : List Char :=
  j.keyword.toList ++ ':' :: (j.table.toList ++
    match j.on with
    | some e => "ON".toList ++ ':' :: Lexeme.spell e.lexemes
    | none => [])

/-- An expanded array in a key. -/
def ArrayJoin.keyText (a : ArrayJoin) : List Char :=
  a.item.keyText ++ label "AS" (a.aliasName.filter (· ≠ ""))

/-- An item of an ordering in a key. -/
def OrderItem.keyText (o : OrderItem) : List Char :=
  o.item.keyText ++ ':' :: o.direction.keyword.toList

/-- The SQL of a query, empty when it does not compile. -/
def Query.sql (q : Query) : String :=
  match q.compile.result with
  | .ok s => s.sql
  | .error _ => ""

namespace Clauses

/-- The selection in a key. -/
def selectionText (c : Clauses) : List Char :=
  (if c.distinct then "DISTINCT:".toList else []) ++
    (items ended (c.selection.map selectedText)).getD ['*']

/-- How a table is read, in a key. -/
def readingText (c : Clauses) (t : Table) : List Char :=
  (if c.final then ":FINAL".toList else []) ++
    if t.options.projections.isEmpty then []
    else ":PROJECTIONS:".toList ++ (",".intercalate t.options.projections).toList

/-- The source in a key. -/
def sourceText (c : Clauses) (t : Table) : Option Query → List Char
  | some q => "SUB(".toList ++ (q.sql.toList ++ (")AS".toList ++ ':' :: t.name.toList))
  | none => t.name.toList ++ c.readingText t

/-- What a number of rows holds in a key. -/
def numberText (v : Value) : Option (List Char) :=
  if v.isNull then none else some v.display.toList

/-- The sample in a key. -/
def sampleKeyText (c : Clauses) : Option (List Char) :=
  c.sample.map fun s ↦ s.ratio.display.toList ++ ':' :: s.offset.display.toList

end Clauses

/-- The segments of the key of a query that reads a source. -/
def Query.segments (q : Query) (t : Table) (inner : Option Query) : List Segment :=
  let c := q.clauses
  [("CTES", items bracketed (q.ctes.map fun e ↦ e.1.toList ++ ':' :: e.2.sql.toList)),
    ("SEL", some c.selectionText),
    ("FROM", some (c.sourceText t inner)),
    ("JOINS", items ended (c.joins.map Join.keyText)),
    ("AJOINS", items ended (c.arrayJoins.map ArrayJoin.keyText)),
    ("PREWHERE", c.prewhere.map Operand.signature),
    ("WHERE", c.condition.map Operand.signature),
    ("GROUP", items ended (c.groupBy.map Operand.keyText)),
    ("HAVING", c.having.map Operand.signature),
    ("ORDER", items ended (c.orderBy.map OrderItem.keyText)),
    ("LIMIT", Clauses.numberText c.limit),
    ("OFFSET", Clauses.numberText c.offset),
    ("SAMPLE", c.sampleKeyText),
    ("SETTINGS", entries (Keyed.mapValues Setting.format c.settings)),
    ("WINDOWS", entries c.windows)]

/-! ### The key of a fingerprint -/

namespace Fingerprint

theorem key_append (f g : Fingerprint) : (f ++ g).key.toList = f.key.toList ++ g.key.toList :=
  String.toList_append

@[simp] theorem key_ofText (text : String) : (ofText text).key = text := rfl

@[simp] theorem key_concat (fs : List Fingerprint) :
    (concat fs).key.toList = fs.flatMap (·.key.toList) := by
  induction fs with
  | nil => rfl
  | cons f fs ih => rw [concat, key_append, ih, List.flatMap_cons]

theorem key_of_ofExpr {e : Expr} {f : Fingerprint} (h : ofExpr e = .ok f) :
    f.key.toList = Lexeme.spell e.lexemes := by
  obtain ⟨w, hw, h⟩ := Succeeding.bind_eq_ok.mp h
  cases h
  exact Body.text_of_walk hw

theorem key_of_ofItem {o : Operand} {f : Fingerprint} (h : ofItem o = .ok f) :
    f.key.toList = o.keyText := by
  cases o with
  | column c =>
    cases h
    exact String.toList_append
  | expression e =>
    obtain ⟨g, hg, h⟩ := Succeeding.bind_eq_ok.mp h
    cases h
    rw [key_append, key_of_ofExpr hg]
    rfl
  | _ =>
    cases h
    exact String.toList_append

theorem toList_labels (o : Operand) :
    (labels o).toList = label "AS" o.ownName ++ label "TYPE" o.ownType := by
  cases o with
  | column c =>
    unfold labels Operand.ownName Operand.ownType
    dsimp only
    rcases c.aliasName.filter (· ≠ "") with _ | a <;>
      rcases (some c.type).filter (· ≠ "") with _ | t <;> simp [label]
  | expression e =>
    unfold labels Operand.ownName Operand.ownType
    dsimp only
    rcases e.label.aliasName.filter (· ≠ "") with _ | a <;>
      rcases e.label.type.filter (· ≠ "") with _ | t <;> simp [label]
  | _ => rfl

theorem key_of_ofSelected {e : String × Operand} {f : Fingerprint} (h : ofSelected e = .ok f) :
    f.key.toList = ended (selectedText e) := by
  obtain ⟨g, hg, h⟩ := Succeeding.bind_eq_ok.mp h
  cases h
  simp [key_append, key_of_ofItem hg, toList_labels, ended, selectedText]

theorem key_of_ofJoin {j : Join} {f : Fingerprint} (h : ofJoin j = .ok f) :
    f.key.toList = ended j.keyText := by
  unfold ofJoin at h
  unfold Join.keyText
  rcases hon : j.on with _ | e <;> rw [hon] at h
  · cases h
    simp [key_append, ended]
  · obtain ⟨g, hg, h⟩ := Succeeding.bind_eq_ok.mp h
    cases h
    simp [key_append, key_of_ofExpr hg, ended]

theorem key_of_ofArrayJoin {a : ArrayJoin} {f : Fingerprint} (h : ofArrayJoin a = .ok f) :
    f.key.toList = ended a.keyText := by
  obtain ⟨g, hg, h⟩ := Succeeding.bind_eq_ok.mp h
  cases h
  rw [key_append, key_of_ofItem hg, ArrayJoin.keyText]
  rcases a.aliasName.filter (· ≠ "") with _ | name <;> simp [ended, label]

theorem key_of_ofOrder {o : OrderItem} {f : Fingerprint} (h : ofOrder o = .ok f) :
    f.key.toList = ended o.keyText := by
  obtain ⟨g, hg, h⟩ := Succeeding.bind_eq_ok.mp h
  cases h
  simp [key_append, key_of_ofItem hg, OrderItem.keyText, ended]

theorem key_of_ofGrouped {o : Operand} {f : Fingerprint} (h : ofGrouped o = .ok f) :
    f.key.toList = ended o.keyText := by
  obtain ⟨g, hg, h⟩ := Succeeding.bind_eq_ok.mp h
  cases h
  simp [key_append, key_of_ofItem hg, ended]

/-- A condition is an expression, and its segment holds the signature. -/
theorem key_of_ofCondition (head : String) {lead : String} {o : Option Operand} {f : Fingerprint}
    (hlead : lead.toList = '|' :: (head.toList ++ [':'])) (h : ofCondition lead o = .ok f) :
    f.key.toList = Segment.text (head, o.map Operand.signature) := by
  cases o with
  | none =>
    cases h
    rfl
  | some o =>
    obtain ⟨e, he, h⟩ := Succeeding.bind_eq_ok.mp h
    obtain ⟨g, hg, h⟩ := Succeeding.bind_eq_ok.mp h
    cases h
    cases o with
    | expression e =>
      cases he
      simp [key_append, key_of_ofExpr hg, hlead, Segment.text, Operand.signature]
    | _ => cases he

section Items

variable {α : Type} {close : List Char → List Char} {text : α → List Char} {xs : List α}
  {fs : List Fingerprint}

theorem flatMap_key (h : List.Forall₂ (fun x f ↦ f.key.toList = close (text x)) xs fs) :
    fs.flatMap (·.key.toList) = (xs.map text).flatMap close := by
  induction h with
  | nil => rfl
  | cons hx _ ih => rw [List.flatMap_cons, List.map_cons, List.flatMap_cons, hx, ih]

/-- The segment of a clause holds its items. -/
theorem key_clause (head lead : String) (hlead : lead.toList = '|' :: (head.toList ++ [':']))
    (h : List.Forall₂ (fun x f ↦ f.key.toList = close (text x)) xs fs) :
    (clause lead fs).key.toList = Segment.text (head, items close (xs.map text)) := by
  unfold clause items
  rw [List.isEmpty_map, Succeeding.isEmpty_eq h]
  split
  · rfl
  · rw [key_append, key_concat, flatMap_key h, key_ofText, hlead]
    simp [Segment.text]

end Items

theorem key_of_ofSelection {c : Clauses} {f : Fingerprint} (hm : c.misfits = {})
    (hp : c.pending = none) (h : ofSelection c = .ok f) :
    f.key.toList = Segment.text ("SEL", some c.selectionText) := by
  unfold ofSelection selectedItems at h
  simp only [hm, hp] at h
  obtain ⟨fs, hfs, h⟩ := Succeeding.bind_eq_ok.mp h
  have hitems := (Succeeding.forall₂_of_mapM hfs).imp fun _ _ hx ↦ key_of_ofSelected hx
  have hlead : (if c.distinct then "|SEL:DISTINCT:" else "|SEL:").toList =
      '|' :: ("SEL".toList ++ ':' :: if c.distinct then "DISTINCT:".toList else []) := by
    split <;> rfl
  unfold Clauses.selectionText items
  rw [List.isEmpty_map, Succeeding.isEmpty_eq hitems]
  by_cases hempty : fs.isEmpty = true
  · rw [if_pos hempty] at h
    cases h
    have hstar : "*".toList = ['*'] := rfl
    rw [if_pos hempty, key_ofText, String.toList_append, hlead, hstar]
    simp only [Segment.text, Option.getD_none, List.cons_append, List.append_assoc]
  · rw [if_neg hempty] at h
    cases h
    rw [if_neg hempty, key_append, key_ofText, key_concat, flatMap_key hitems, hlead]
    simp only [Segment.text, Option.getD_some, List.cons_append, List.append_assoc]

theorem toList_entriesText {head lead : String}
    (hlead : lead.toList = '|' :: (head.toList ++ [':'])) (es : List (String × String)) :
    (entriesText lead es).toList = Segment.text (head, entries es) := by
  unfold entriesText entries items
  rw [List.isEmpty_map, Setting.isEmpty_sorted]
  split
  · rfl
  · rw [String.toList_append, String.toList_join, hlead]
    simp [Segment.text, List.flatMap_map, ended]

theorem toList_pageText (c : Clauses) :
    (pageText c).toList = Segment.text ("LIMIT", Clauses.numberText c.limit) ++
      Segment.text ("OFFSET", Clauses.numberText c.offset) := by
  unfold pageText Clauses.numberText
  split <;> split <;> simp [Segment.text]

theorem toList_of_tail {c : Clauses} {text : String} (hm : c.misfits = {})
    (h : tail c = .ok text) :
    text.toList = Segment.join [("LIMIT", Clauses.numberText c.limit),
      ("OFFSET", Clauses.numberText c.offset), ("SAMPLE", c.sampleKeyText),
      ("SETTINGS", entries (Keyed.mapValues Setting.format c.settings)),
      ("WINDOWS", entries c.windows)] := by
  have hsample : ∃ sample, sampleText c = .ok sample ∧
      sample.toList = Segment.text ("SAMPLE", c.sampleKeyText) := by
    unfold sampleText Clauses.sampleKeyText
    simp only [hm]
    cases c.sample with
    | none => exact ⟨"", rfl, rfl⟩
    | some s => exact ⟨_, rfl, by simp [Segment.text]⟩
  obtain ⟨sample, hsample, htext⟩ := hsample
  have hsettings : settingsText c =
      .ok (entriesText "|SETTINGS:" (Keyed.mapValues Setting.format c.settings)) := by
    rw [settingsText, hm]
  have hwindows : windowsText c = .ok (entriesText "|WINDOWS:" c.windows) := by
    rw [windowsText, hm]
  unfold tail at h
  rw [hsample, hsettings, hwindows] at h
  cases h
  have hlead : "|SETTINGS:".toList = '|' :: ("SETTINGS".toList ++ [':']) := rfl
  have hlead' : "|WINDOWS:".toList = '|' :: ("WINDOWS".toList ++ [':']) := rfl
  rw [String.toList_append, String.toList_append, String.toList_append, toList_pageText, htext,
    toList_entriesText hlead, toList_entriesText hlead']
  simp [Segment.join]

/-- The text of a subquery is its SQL, when there is one. -/
theorem key_of_ofSource {c : Clauses} {t : Table} {inner : Option Query} {f : Fingerprint}
    (h : (ofSource c (some (t, inner))).result = .ok f) :
    f.key.toList = Segment.text ("FROM", some (c.sourceText t inner)) := by
  cases inner with
  | none =>
    cases h
    unfold Clauses.sourceText Clauses.readingText
    split <;> split <;> simp [Segment.text, *]
  | some q =>
    obtain ⟨s, hs, h⟩ := Traced.result_bind_eq_ok.mp h
    cases h
    simp [ofStatement, Clauses.sourceText, Query.sql, hs, Segment.text]

theorem key_of_ofCtes {ctes : List (String × Query)} {fs : List Fingerprint}
    (h : (ofCtes ctes).result = .ok fs) :
    List.Forall₂ (fun e f ↦ f.key.toList = bracketed (e.1.toList ++ ':' :: e.2.sql.toList))
      ctes fs := by
  unfold ofCtes at h
  rw [Traced.result_mapM] at h
  refine (Succeeding.forall₂_of_mapM h).imp fun e f hf ↦ ?_
  obtain ⟨s, hs, hf⟩ := Traced.result_bind_eq_ok.mp hf
  cases hf
  simp [ofStatement, Query.sql, hs, bracketed]

end Fingerprint

open Fingerprint in
/-- The key of a query that reads a source is made of the segments of its clauses. -/
theorem Query.key_of_fingerprint {q : Query} {f : Fingerprint} {t : Table} {inner : Option Query}
    (hf : q.fingerprint.result = .ok f) (hm : q.clauses.misfits = {})
    (hp : q.clauses.pending = none) (hsource : q.source = some (t, inner)) :
    f.key.toList = "SELECT".toList ++ Segment.join (q.segments t inner) := by
  obtain ⟨p, h, rfl⟩ := fingerprint_eq_ok.mp hf
  have hctes := key_clause "CTES" "|CTES:" rfl (key_of_ofCtes h.ctes)
  have hselection := key_of_ofSelection hm hp h.selection
  have hsource := key_of_ofSource (hsource ▸ h.source)
  have hjoins := key_clause "JOINS" "|JOINS:" rfl
    ((Succeeding.forall₂_of_mapM h.joins).imp fun _ _ hj ↦ key_of_ofJoin hj)
  have harrays := key_clause "AJOINS" "|AJOINS:" rfl
    ((Succeeding.forall₂_of_mapM h.arrayJoins).imp fun _ _ ha ↦ key_of_ofArrayJoin ha)
  have hprewhere := key_of_ofCondition "PREWHERE" rfl h.prewhere
  have hcondition := key_of_ofCondition "WHERE" rfl h.condition
  have hgroups := key_clause "GROUP" "|GROUP:" rfl
    ((Succeeding.forall₂_of_mapM h.groupBy).imp fun _ _ ho ↦ key_of_ofGrouped ho)
  have hhaving := key_of_ofCondition "HAVING" rfl h.having
  have horder := key_clause "ORDER" "|ORDER:" rfl
    ((Succeeding.forall₂_of_mapM h.orderBy).imp fun _ _ ho ↦ key_of_ofOrder ho)
  have htail := toList_of_tail hm h.tail
  rw [Parts.whole, key_concat]
  simp only [List.flatMap_cons, List.flatMap_nil, key_ofText, hctes, hselection, hsource, hjoins,
    harrays, hprewhere, hcondition, hgroups, hhaving, horder, htail, segments, Segment.join,
    List.append_nil]

end Columnar
