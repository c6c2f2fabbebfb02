import Columnar.Proofs.Keys.Segments

/-!
# Legible clauses

A clause is legible when names and texts in it have none of the characters that its key puts
between them. Legible clauses are read back from what they hold in a key: from the same text for
both of two clauses it follows that they are alike.
-/

namespace Columnar

open Segment (ended bracketed items entries label)
open Splitting (Follows)

/-- The characters that names in a key must not have. -/
def reserved : List Char := ['|', ';', ':']

theorem reserved_of_closing {c : Char} (hc : c ∈ closing) : c ∈ reserved :=
  List.mem_of_mem_take (i := 2) hc

theorem ne_of_closing {c d : Char} (hc : c ∈ closing) (hd : d ∉ closing) : c ≠ d := by
  rintro rfl
  exact hd hc

/-! ### Rows of items -/

namespace Segment

variable {α : Type} {close : List Char → List Char}

/-- What has the same items has the same text. -/
private theorem flatMap_of_items {as bs : List (List Char)}
    (h : items close as = items close bs) : as.flatMap close = bs.flatMap close := by
  cases as with
  | nil =>
    cases bs with
    | nil => rfl
    | cons b bs => cases h
  | cons a as =>
    cases bs with
    | nil => cases h
    | cons b bs => exact Option.some.inj h

/-- Items are read back one by one. -/
theorem forall₂_of_map_eq {β : Type} {P : α → Prop} {R : α → α → Prop} {f : α → β} {xs ys : List α}
    (hx : ∀ x ∈ xs, P x) (hy : ∀ y ∈ ys, P y) (hR : ∀ x y, P x → P y → f x = f y → R x y)
    (h : xs.map f = ys.map f) : List.Forall₂ R xs ys := by
  induction xs generalizing ys with
  | nil =>
    cases ys with
    | nil => exact .nil
    | cons y ys => cases h
  | cons x xs ih =>
    cases ys with
    | nil => cases h
    | cons y ys =>
      obtain ⟨hhead, htail⟩ := List.cons.inj h
      exact .cons (hR x y (hx x List.mem_cons_self) (hy y List.mem_cons_self) hhead)
        (ih (fun x hmem ↦ hx x (List.mem_cons_of_mem _ hmem))
          (fun y hmem ↦ hy y (List.mem_cons_of_mem _ hmem)) htail)

theorem eq_of_ended {as bs : List (List Char)} (ha : ∀ a ∈ as, ';' ∉ a) (hb : ∀ b ∈ bs, ';' ∉ b)
    (h : items ended as = items ended bs) : as = bs :=
  Splitting.eq_of_terminated ha hb (flatMap_of_items h)

/-- Items that end with a semicolon are read back one by one. -/
theorem forall₂_of_ended {P : α → Prop} {R : α → α → Prop} {f : α → List Char} {xs ys : List α}
    (hx : ∀ x ∈ xs, P x) (hy : ∀ y ∈ ys, P y) (hfree : ∀ x, P x → ';' ∉ f x)
    (hR : ∀ x y, P x → P y → f x = f y → R x y)
    (h : items ended (xs.map f) = items ended (ys.map f)) : List.Forall₂ R xs ys := by
  have hmap := eq_of_ended (List.forall_mem_map.mpr fun x hmem ↦ hfree x (hx x hmem))
    (List.forall_mem_map.mpr fun y hmem ↦ hfree y (hy y hmem)) h
  exact forall₂_of_map_eq hx hy hR hmap

theorem eq_of_bracketed {as bs : List (List Char)} (ha : ∀ a ∈ as, ¬ [')', '('] <:+: a)
    (hb : ∀ b ∈ bs, ¬ [')', '('] <:+: b) (h : items bracketed as = items bracketed bs) : as = bs :=
  Splitting.eq_of_bracketed (by decide) ha hb (flatMap_of_items h)

/-- Items have what one of them or its end has. -/
theorem not_mem_items {c : Char} {as : List (List Char)} (hclose : ∀ a, c ∉ a → c ∉ close a)
    (ha : ∀ a ∈ as, c ∉ a) : ∀ body ∈ items close as, c ∉ body := by
  intro body hbody
  unfold items at hbody
  split at hbody
  · cases hbody
  · obtain rfl := Option.some.inj hbody
    rw [List.mem_flatMap]
    rintro ⟨a, hmem, hc⟩
    exact hclose a (ha a hmem) hc

/-- A label is told from what stands before it: there only other characters than the last of its
head come before a colon. -/
theorem eq_of_label {head : String} (init : List Char) {c : Char} {x x' : List Char}
    {o o' : Option String} (hhead : head.toList = init ++ [c]) (hx : ¬ [c, ':'] <:+: x)
    (hx' : ¬ [c, ':'] <:+: x') (ho : o.all (lacks reserved) = true)
    (ho' : o'.all (lacks reserved) = true) (h : x ++ label head o = x' ++ label head o') :
    x = x' ∧ o = o' := by
  have hin (y : List Char) (s : String) : [c, ':'] <:+: y ++ label head (some s) :=
    ⟨y ++ init, s.toList, by simp [label, hhead]⟩
  cases o with
  | none =>
    cases o' with
    | none => exact ⟨by simpa [label] using h, rfl⟩
    | some s' =>
      rw [label, List.append_nil] at h
      exact absurd (h ▸ hin x' s') hx
  | some s =>
    cases o' with
    | none =>
      rw [label.eq_def head none, List.append_nil] at h
      exact absurd (h ▸ hin x s) hx'
    | some s' =>
      have hcolon : ':' ∉ s.toList := Lexeme.not_mem_of_lacks ho (by decide)
      have hcolon' : ':' ∉ s'.toList := Lexeme.not_mem_of_lacks ho' (by decide)
      rw [label, label, ← List.append_assoc, ← List.append_assoc] at h
      obtain ⟨hrow, htext⟩ := Splitting.eq_of_last hcolon hcolon' h
      exact ⟨List.append_cancel_right hrow, congrArg some (String.toList_injective htext)⟩

theorem not_mem_label {head : String} {o : Option String} {c : Char} (hc : c ∈ closing)
    (hhead : lacks closing head = true) (ho : o.all (lacks reserved) = true) :
    c ∉ label head o := by
  cases o with
  | none => exact List.not_mem_nil
  | some s =>
    have htext := Lexeme.not_mem_of_lacks ho (reserved_of_closing hc)
    have hcolon := ne_of_closing hc (d := ':') (by decide)
    simp [label, Lexeme.not_mem_of_lacks hhead hc, hcolon, htext]

end Segment

/-! ### Items -/

namespace Operand

/-- Whether an operand can be read back from a key: columns and the words of expressions are
identifiers, and the form of anything else does not end its item. -/
def legible : Operand → Bool
  | column c => c.owner.all isWord && isWord c.name
  | expression e => Lexeme.legible .elsewhere e.lexemes
  | o => lacks closing o.inspect

private theorem words_of_legible {c : Column} (h : (column c).legible = true) :
    c.owner.all isWord = true ∧ isWord c.name = true :=
  Bool.and_eq_true_iff.mp h

private theorem not_mem_column {c : Column} (h : (column c).legible = true) {d : Char}
    (hd : d ∈ marking) (hdot : d ≠ '.') : d ∉ c.signature.toList := by
  obtain ⟨howner, hname⟩ := words_of_legible h
  have hname := Lexeme.not_mem_of_isWord hname hd
  unfold Column.signature
  cases ho : c.owner with
  | none => exact hname
  | some table =>
    rw [ho] at howner
    have htable := Lexeme.not_mem_of_isWord howner hd
    simp [htable, hname, hdot]

/-- What ends clauses and items is not part of a legible operand. -/
theorem not_mem_signature {o : Operand} (h : o.legible = true) {c : Char} (hc : c ∈ closing) :
    c ∉ o.signature := by
  have hmarking := marking_of_closing hc
  cases o with
  | column column => exact not_mem_column h hmarking (ne_of_closing hc (by decide))
  | expression e => exact Lexeme.not_mem_spell h hc
  | _ => exact Lexeme.not_mem_of_lacks h hc

theorem not_mem_keyText {o : Operand} (h : o.legible = true) {c : Char} (hc : c ∈ closing) :
    c ∉ o.keyText := by
  rw [keyText, List.mem_append, not_or]
  refine ⟨?_, not_mem_signature h hc⟩
  simp only [closing, List.mem_cons, List.not_mem_nil, or_false] at hc
  cases o <;> rcases hc with rfl | rfl <;> simp [tag]

/-- In a legible column or expression a colon only follows a brace. -/
theorem follows_signature {o : Operand} (h : o.legible = true) (hw : o.isWritten = true)
    {before rest : List Char} (hbefore : '\x7b' ∈ before) (hrest : Follows ':' before rest) :
    Follows ':' before (o.signature ++ rest) := by
  cases o with
  | column c => exact hrest.append_left (not_mem_column h (by decide) (by decide))
  | expression e => exact Lexeme.follows_spell h hbefore hrest
  | _ => cases hw

/-- The tag of an operand is read back. -/
theorem tag_eq {o o' : Operand} {r r' : List Char}
    (h : o.tag.toList ++ r = o'.tag.toList ++ r') : o.tag = o'.tag ∧ r = r' := by
  unfold tag at h ⊢
  split at h <;> split at h <;> simp_all

private theorem ofColumn_of_signature {c c' : Column} (h : (column c).legible = true)
    (h' : (column c').legible = true) (hsig : c.signature.toList = c'.signature.toList) :
    Lexeme.ofColumn c = Lexeme.ofColumn c' := by
  have hdot {t : String} (ht : isWord t = true) : '.' ∉ t.toList :=
    Lexeme.not_mem_of_isWord ht (by decide)
  obtain ⟨howner, hname⟩ := words_of_legible h
  obtain ⟨howner', hname'⟩ := words_of_legible h'
  unfold Lexeme.ofColumn
  unfold Column.signature at hsig
  cases ho : c.owner with
  | none =>
    cases ho' : c'.owner with
    | none =>
      rw [ho, ho'] at hsig
      exact congrArg (Lexeme.column none) (String.toList_injective hsig)
    | some table' =>
      rw [ho, ho'] at hsig
      exact absurd (hsig ▸ by simp) (hdot hname)
  | some table =>
    cases ho' : c'.owner with
    | none =>
      rw [ho, ho'] at hsig
      exact absurd (hsig ▸ by simp) (hdot hname')
    | some table' =>
      rw [ho] at howner
      rw [ho'] at howner'
      rw [ho, ho'] at hsig
      simp only [String.toList_append, List.append_assoc] at hsig
      obtain ⟨htable, hname⟩ := Splitting.eq_of_first (hdot howner) (hdot howner') hsig
      rw [String.toList_injective htable, String.toList_injective hname]

/-- Legible operands with the same tag and signature are alike. -/
theorem alike_of_signature {o o' : Operand} (h : o.legible = true) (h' : o'.legible = true)
    (htag : o.tag = o'.tag) (hsig : o.signature = o'.signature) : o.Alike o' := by
  cases o with
  | column c =>
    cases o' with
    | column c' => exact .column (ofColumn_of_signature h h' hsig)
    | _ => exact absurd htag (by simp [tag])
  | expression e =>
    cases o' with
    | expression e' => exact .expression (Lexeme.eq_of_spell h h' hsig)
    | _ => exact absurd htag (by simp [tag])
  | _ =>
    cases o' with
    | column c' => exact absurd htag (by simp [tag])
    | expression e' => exact absurd htag (by simp [tag])
    | _ => exact .other nofun nofun nofun nofun

theorem alike_of_keyText {o o' : Operand} (h : o.legible = true) (h' : o'.legible = true)
    (heq : o.keyText = o'.keyText) : o.Alike o' := by
  obtain ⟨htag, hsig⟩ := tag_eq heq
  exact alike_of_signature h h' htag hsig

/-- Operands under the same tag are both written in SQL, or neither is. -/
theorem isWritten_eq {o o' : Operand} (htag : o.tag = o'.tag) : o.isWritten = o'.isWritten := by
  cases o <;> cases o' <;> first | rfl | exact absurd htag (by simp [tag])

/-- What is not written has no labels and is told from nothing else that is not. -/
theorem alike_of_unwritten {o o' : Operand} (h : ¬ o.isWritten = true)
    (h' : ¬ o'.isWritten = true) :
    o.Alike o' ∧ o.ownName = o'.ownName ∧ o.ownType = o'.ownType := by
  cases o <;> cases o' <;>
    first
    | exact absurd rfl h
    | exact absurd rfl h'
    | exact ⟨.other nofun nofun nofun nofun, rfl, rfl⟩

end Operand

private theorem follows_label {o : Option String} (h : o.all (lacks reserved) = true) :
    Follows ':' ['\x7b', 'S'] (label "AS" o) := by
  cases o with
  | none => exact Splitting.follows_nil ':' _
  | some s =>
    have hs : Follows ':' ['\x7b', 'S'] s.toList := by
      have hcolon : ':' ∉ s.toList := Lexeme.not_mem_of_lacks h (by decide)
      simpa using (Splitting.follows_nil ':' _).append_left hcolon
    exact (hs.cons (c := 'S') (by decide) (by decide)).append_left (a := ['A']) (by decide)

/-- The labels of a written operand are read back with its signature. -/
private theorem eq_of_labels {o o' : Operand} {a a' t t' : Option String}
    (h : o.legible = true) (h' : o'.legible = true) (hw : o.isWritten = true)
    (hw' : o'.isWritten = true) (ha : a.all (lacks reserved) = true)
    (ha' : a'.all (lacks reserved) = true) (ht : t.all (lacks reserved) = true)
    (ht' : t'.all (lacks reserved) = true)
    (heq : o.signature ++ (label "AS" a ++ label "TYPE" t) =
      o'.signature ++ (label "AS" a' ++ label "TYPE" t')) :
    o.signature = o'.signature ∧ a = a' ∧ t = t' := by
  rw [← List.append_assoc, ← List.append_assoc] at heq
  -- the last label first: an E comes before its colon, an S before that of the other one
  have hE : 'E' ∉ ['\x7b', 'S'] := by decide
  have hS : 'S' ∉ ['\x7b'] := by decide
  have hnil := Splitting.follows_nil ':' ['\x7b']
  obtain ⟨hrow, htypes⟩ := Segment.eq_of_label "TYP".toList (by decide)
    ((Operand.follows_signature h hw (by decide) (follows_label ha)).not_behind hE)
    ((Operand.follows_signature h' hw' (by decide) (follows_label ha')).not_behind hE) ht ht' heq
  have hplain := (Operand.follows_signature h hw (by decide) hnil).not_behind hS
  have hplain' := (Operand.follows_signature h' hw' (by decide) hnil).not_behind hS
  rw [List.append_nil] at hplain hplain'
  obtain ⟨hsig, hnames⟩ := Segment.eq_of_label "A".toList (by decide) hplain hplain'
    ha ha' hrow
  exact ⟨hsig, hnames, htypes⟩

/-- Whether a selected item can be read back from a key. -/
def legibleSelected (e : String × Operand) : Bool :=
  lacks ('=' :: reserved) e.1 && e.2.legible && e.2.ownName.all (lacks reserved) &&
    e.2.ownType.all (lacks reserved)

/-- Whether a join can be read back from a key. -/
def Join.legible (j : Join) : Bool :=
  lacks reserved j.keyword && lacks reserved j.table &&
    j.on.all fun e ↦ Lexeme.legible .elsewhere e.lexemes

/-- Whether an expanded array can be read back from a key. -/
def ArrayJoin.legible (a : ArrayJoin) : Bool :=
  a.item.legible && (a.aliasName.filter (· ≠ "")).all (lacks reserved)

/-- Whether a named entry can be read back from a key. -/
def legibleEntry (e : String × String) : Bool :=
  lacks ('=' :: closing) e.1 && lacks closing e.2

section Items

variable {c : Char}

theorem not_mem_selectedText {e : String × Operand} (h : legibleSelected e = true)
    (hc : c ∈ closing) : c ∉ selectedText e := by
  simp only [legibleSelected, Bool.and_eq_true] at h
  obtain ⟨⟨⟨hname, hitem⟩, hown⟩, htype⟩ := h
  have hname := Lexeme.not_mem_of_lacks hname (List.mem_cons_of_mem _ (reserved_of_closing hc))
  have hequals := ne_of_closing hc (d := '=') (by decide)
  have hitem := Operand.not_mem_keyText hitem hc
  have hown : c ∉ label "AS" e.2.ownName := Segment.not_mem_label hc (by decide) hown
  have htype : c ∉ label "TYPE" e.2.ownType := Segment.not_mem_label hc (by decide) htype
  simp [selectedText, hname, hequals, hitem, hown, htype]

/-- Selected items are read back. -/
theorem alikeSelected_of_text {e e' : String × Operand} (h : legibleSelected e = true)
    (h' : legibleSelected e' = true) (heq : selectedText e = selectedText e') :
    AlikeSelected e e' := by
  simp only [legibleSelected, Bool.and_eq_true] at h h'
  obtain ⟨⟨⟨hname, hitem⟩, hown⟩, htype⟩ := h
  obtain ⟨⟨⟨hname', hitem'⟩, hown'⟩, htype'⟩ := h'
  obtain ⟨hnames, hrest⟩ := Splitting.eq_of_first (Lexeme.not_mem_of_lacks hname (by decide))
    (Lexeme.not_mem_of_lacks hname' (by decide)) heq
  rw [Operand.keyText, Operand.keyText, List.append_assoc, List.append_assoc] at hrest
  obtain ⟨htag, hrest⟩ := Operand.tag_eq hrest
  have hnames : e.1 = e'.1 := String.toList_injective hnames
  by_cases hw : e.2.isWritten = true
  · have hw' : e'.2.isWritten = true := Operand.isWritten_eq htag ▸ hw
    obtain ⟨hsig, hownNames, htypes⟩ :=
      eq_of_labels hitem hitem' hw hw' hown hown' htype htype' hrest
    exact ⟨hnames, Operand.alike_of_signature hitem hitem' htag hsig, hownNames, htypes⟩
  · have hw' : ¬ e'.2.isWritten = true := Operand.isWritten_eq htag ▸ hw
    obtain ⟨halike, hownNames, htypes⟩ := Operand.alike_of_unwritten hw hw'
    exact ⟨hnames, halike, hownNames, htypes⟩

theorem not_mem_joinText {j : Join} (h : j.legible = true) (hc : c ∈ closing) :
    c ∉ j.keyText := by
  simp only [Join.legible, Bool.and_eq_true] at h
  obtain ⟨⟨hkeyword, htable⟩, hon⟩ := h
  have hkeyword := Lexeme.not_mem_of_lacks hkeyword (reserved_of_closing hc)
  have htable := Lexeme.not_mem_of_lacks htable (reserved_of_closing hc)
  have hcolon := ne_of_closing hc (d := ':') (by decide)
  have hlacks : lacks closing "ON" = true := by decide
  have hon' := Lexeme.not_mem_of_lacks hlacks hc
  unfold Join.keyText
  rcases ho : j.on with _ | e
  · simp [hkeyword, htable, hcolon]
  · rw [ho] at hon
    have hsig := Lexeme.not_mem_spell hon hc
    simp only [List.mem_append, List.mem_cons, not_or]
    exact ⟨hkeyword, hcolon, htable, hon', hcolon, hsig⟩

/-- Joins are read back. -/
theorem alikeJoin_of_text {j j' : Join} (h : j.legible = true) (h' : j'.legible = true)
    (heq : j.keyText = j'.keyText) : AlikeJoin j j' := by
  simp only [Join.legible, Bool.and_eq_true] at h h'
  obtain ⟨⟨hkeyword, htable⟩, hon⟩ := h
  obtain ⟨⟨hkeyword', htable'⟩, hon'⟩ := h'
  have hcolon {text : String} (ht : lacks reserved text = true) : ':' ∉ text.toList :=
    Lexeme.not_mem_of_lacks ht (by decide)
  have hcolonOn {text : String} (ht : lacks reserved text = true) :
      ':' ∉ text.toList ++ "ON".toList := by
    simp [hcolon ht]
  obtain ⟨hkeywords, hrest⟩ := Splitting.eq_of_first (hcolon hkeyword) (hcolon hkeyword') heq
  have hkeywords : j.keyword = j'.keyword := String.toList_injective hkeywords
  rcases ho : j.on with _ | e <;> rcases ho' : j'.on with _ | e' <;>
    simp only [ho, ho', List.append_nil, ← List.append_assoc] at hrest
  · exact ⟨hkeywords, String.toList_injective hrest, by rw [ho, ho']; exact .none⟩
  · exact absurd (hrest ▸ by simp) (hcolon htable)
  · exact absurd (hrest ▸ by simp) (hcolon htable')
  · obtain ⟨htables, hsig⟩ := Splitting.eq_of_first (hcolonOn htable) (hcolonOn htable') hrest
    rw [ho] at hon
    rw [ho'] at hon'
    refine ⟨hkeywords, String.toList_injective (List.append_cancel_right htables), ?_⟩
    rw [ho, ho']
    exact .some (Lexeme.eq_of_spell hon hon' hsig)

theorem not_mem_arrayText {a : ArrayJoin} (h : a.legible = true) (hc : c ∈ closing) :
    c ∉ a.keyText := by
  obtain ⟨hitem, hname⟩ := Bool.and_eq_true_iff.mp h
  rw [ArrayJoin.keyText, List.mem_append, not_or]
  exact ⟨Operand.not_mem_keyText hitem hc, Segment.not_mem_label hc (by decide) hname⟩

/-- Expanded arrays are read back. -/
theorem alikeArray_of_text {a a' : ArrayJoin} (h : a.legible = true) (h' : a'.legible = true)
    (heq : a.keyText = a'.keyText) : AlikeArray a a' := by
  obtain ⟨hitem, hname⟩ := Bool.and_eq_true_iff.mp h
  obtain ⟨hitem', hname'⟩ := Bool.and_eq_true_iff.mp h'
  rw [ArrayJoin.keyText, ArrayJoin.keyText, Operand.keyText, Operand.keyText,
    List.append_assoc, List.append_assoc] at heq
  obtain ⟨htag, hrest⟩ := Operand.tag_eq heq
  by_cases hw : a.item.isWritten = true
  · have hw' : a'.item.isWritten = true := Operand.isWritten_eq htag ▸ hw
    have hnone : (none : Option String).all (lacks reserved) = true := rfl
    have hlabels (b : ArrayJoin) : label "AS" (b.aliasName.filter (· ≠ "")) =
        label "AS" (b.aliasName.filter (· ≠ "")) ++ label "TYPE" none :=
      (List.append_nil _).symm
    rw [hlabels a, hlabels a'] at hrest
    obtain ⟨hsig, hnames, -⟩ :=
      eq_of_labels hitem hitem' hw hw' hname hname' hnone hnone hrest
    exact ⟨Operand.alike_of_signature hitem hitem' htag hsig, fun _ ↦ hnames⟩
  · have hw' : ¬ a'.item.isWritten = true := Operand.isWritten_eq htag ▸ hw
    exact ⟨(Operand.alike_of_unwritten hw hw').1, fun hw'' ↦ absurd hw'' hw⟩

theorem not_mem_orderText {o : OrderItem} (h : o.item.legible = true) (hc : c ∈ closing) :
    c ∉ o.keyText := by
  have hitem := Operand.not_mem_keyText h hc
  have hcolon := ne_of_closing hc (d := ':') (by decide)
  have hkeyword : lacks closing o.direction.keyword = true := by
    cases o.direction <;> decide
  have hkeyword := Lexeme.not_mem_of_lacks hkeyword hc
  simp [OrderItem.keyText, hitem, hcolon, hkeyword]

/-- Items of an ordering are read back. -/
theorem alikeOrder_of_text {o o' : OrderItem} (h : o.item.legible = true)
    (h' : o'.item.legible = true) (heq : o.keyText = o'.keyText) : AlikeOrder o o' := by
  have hcolon (d : Direction) : ':' ∉ d.keyword.toList := by
    cases d <;> decide
  obtain ⟨hitem, hkeyword⟩ := Splitting.eq_of_last (hcolon _) (hcolon _) heq
  have hdirection := congrArg Direction.ofKeyword? (String.toList_injective hkeyword)
  rw [Direction.ofKeyword?_keyword, Direction.ofKeyword?_keyword] at hdirection
  exact ⟨Operand.alike_of_keyText h h' hitem, Option.some.inj hdirection⟩

theorem not_mem_entryText {e : String × String} (h : legibleEntry e = true) (hc : c ∈ closing) :
    c ∉ e.1.toList ++ '=' :: e.2.toList := by
  obtain ⟨hname, htext⟩ := Bool.and_eq_true_iff.mp h
  have hname := Lexeme.not_mem_of_lacks hname (List.mem_cons_of_mem _ hc)
  have htext := Lexeme.not_mem_of_lacks htext hc
  have hequals := ne_of_closing hc (d := '=') (by decide)
  simp [hname, hequals, htext]

/-- Named entries are read back. -/
theorem eq_of_entryText {e e' : String × String} (h : legibleEntry e = true)
    (h' : legibleEntry e' = true)
    (heq : e.1.toList ++ '=' :: e.2.toList = e'.1.toList ++ '=' :: e'.2.toList) : e = e' := by
  obtain ⟨hname, -⟩ := Bool.and_eq_true_iff.mp h
  obtain ⟨hname', -⟩ := Bool.and_eq_true_iff.mp h'
  obtain ⟨hnames, htexts⟩ := Splitting.eq_of_first (Lexeme.not_mem_of_lacks hname (by decide))
    (Lexeme.not_mem_of_lacks hname' (by decide)) heq
  exact Prod.ext (String.toList_injective hnames) (String.toList_injective htexts)

end Items

end Columnar
