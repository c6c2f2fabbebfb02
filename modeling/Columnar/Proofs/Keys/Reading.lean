import Columnar.Proofs.Keys.Legible
import Mathlib.Data.List.Nodup

/-!
# Reading clauses back

`Clauses.Legible` says when the clauses of a query can be read back from its key. Then clauses that
hold the same in two keys are alike (`Clauses.alike_of_texts`): settings and windows up to the order
in which they were given, and whatever settings a table adds to them.
-/

namespace Columnar

open Segment (ended bracketed items entries label)

/-! ### Settings and windows -/

namespace Setting

variable {α β : Type} {xs ys : List (String × α)}

private theorem sorted_pairwise (xs : List (String × α)) :
    (sorted xs).Pairwise fun a b ↦ decide (a.1 ≤ b.1) = true := by
  refine List.pairwise_mergeSort (fun a b c hab hbc ↦ ?_) (fun a b ↦ ?_) xs
  · rw [decide_eq_true_eq] at hab hbc ⊢
    exact String.le_trans hab hbc
  · rw [Bool.or_eq_true, decide_eq_true_eq, decide_eq_true_eq]
    exact String.le_total a.1 b.1

/-- Entries under different keys are sorted in one way. -/
theorem sorted_eq_of_perm (hnodup : (Keyed.keys xs).Nodup) (h : xs.Perm ys) :
    sorted xs = sorted ys := by
  have hperm : (sorted xs).Perm (sorted ys) :=
    (sorted_perm xs).trans (h.trans (sorted_perm ys).symm)
  refine hperm.eq_of_pairwise (fun a b ha hb hab hba ↦ ?_) (sorted_pairwise xs) (sorted_pairwise ys)
  rw [decide_eq_true_eq] at hab hba
  exact List.inj_on_of_nodup_map hnodup ((sorted_perm xs).mem_iff.mp ha)
    (h.mem_iff.mpr ((sorted_perm ys).mem_iff.mp hb)) (String.le_antisymm hab hba)

/-- Sorting looks at keys only. -/
theorem sorted_mapValues (f : α → β) (xs : List (String × α)) :
    sorted (Keyed.mapValues f xs) = Keyed.mapValues f (sorted xs) := by
  unfold sorted Keyed.mapValues
  rw [List.map_mergeSort]
  intro a _ b _
  rfl

end Setting

namespace Clauses

variable {c c' : Clauses}

/-- The text of settings is written from their sorted texts. -/
private theorem settingsText_eq (c : Clauses) (t : Table) :
    c.settingsText t =
      if (Setting.sorted (Keyed.mapValues Setting.format (c.allSettings t))).isEmpty then ""
      else "SETTINGS " ++ ", ".intercalate
        ((Setting.sorted (Keyed.mapValues Setting.format (c.allSettings t))).map
          fun s ↦ s.1 ++ " = " ++ s.2) := by
  rw [settingsText, Setting.sorted_mapValues, Keyed.mapValues, List.isEmpty_map,
    Setting.isEmpty_sorted, List.map_map]
  rfl

/-- The table adds no setting that is there already. -/
private theorem nodup_allSettings (hc : c.misfits = {}) (hnodup : (Keyed.keys c.settings).Nodup)
    (t : Table) : (Keyed.keys (c.allSettings t)).Nodup := by
  unfold allSettings
  split
  · next hadds =>
    have hfresh : Setting.projections ∉ Keyed.keys c.settings := by
      rw [addsProjections, setsProjections, hc, Bool.and_eq_true] at hadds
      obtain ⟨-, hnot⟩ := hadds
      change (!Keyed.contains Setting.projections c.settings) = true at hnot
      intro hmem
      rw [Keyed.contains, List.contains_iff_mem.mpr hmem] at hnot
      cases hnot
    rw [Keyed.keys, List.map_append, List.nodup_append]
    refine ⟨hnodup, List.nodup_singleton _, ?_⟩
    rintro key hkey _ hadded rfl
    obtain rfl := List.mem_singleton.mp hadded
    exact hfresh hkey
  · exact hnodup

private theorem keys_mapValues (xs : List (String × Value)) :
    Keyed.keys (Keyed.mapValues Setting.format xs) = Keyed.keys xs := by
  simp [Keyed.keys, Keyed.mapValues]

private theorem perm_of_sorted
    (h : Setting.sorted (Keyed.mapValues Setting.format c.settings) =
      Setting.sorted (Keyed.mapValues Setting.format c'.settings)) :
    (Keyed.mapValues Setting.format c.settings).Perm
      (Keyed.mapValues Setting.format c'.settings) :=
  (Setting.sorted_perm _).symm.trans (h ▸ Setting.sorted_perm _)

/-- Settings with the same sorted texts say alike whether projections are read. -/
theorem setsProjections_congr (hc : c.misfits = {}) (hc' : c'.misfits = {})
    (h : Setting.sorted (Keyed.mapValues Setting.format c.settings) =
      Setting.sorted (Keyed.mapValues Setting.format c'.settings)) :
    c.setsProjections = c'.setsProjections := by
  have hkeysPerm : (Keyed.keys c.settings).Perm (Keyed.keys c'.settings) := by
    rw [← keys_mapValues, ← keys_mapValues]
    exact (perm_of_sorted h).map Prod.fst
  rw [setsProjections, setsProjections, hc, hc', Bool.eq_iff_iff]
  simp only [Keyed.contains, List.contains_iff_mem]
  exact hkeysPerm.mem_iff

/-- Settings with the same sorted texts are written alike, whatever the table adds to them. -/
theorem settingsText_congr (hc : c.misfits = {}) (hc' : c'.misfits = {})
    (hnodup : (Keyed.keys c.settings).Nodup)
    (h : Setting.sorted (Keyed.mapValues Setting.format c.settings) =
      Setting.sorted (Keyed.mapValues Setting.format c'.settings)) (t : Table) :
    c.settingsText t = c'.settingsText t := by
  -- both take the setting of the table in, or neither does: they have the same keys
  have hadds : c.addsProjections t = c'.addsProjections t := by
    rw [addsProjections, addsProjections, setsProjections_congr hc hc' h]
  have hall : (Keyed.mapValues Setting.format (c.allSettings t)).Perm
      (Keyed.mapValues Setting.format (c'.allSettings t)) := by
    unfold allSettings
    rw [hadds]
    split
    · simp only [Keyed.mapValues, List.map_append]
      exact (perm_of_sorted h).append_right _
    · exact perm_of_sorted h
  have hallNodup : (Keyed.keys (c.allSettings t)).Nodup := nodup_allSettings hc hnodup t
  rw [← keys_mapValues] at hallNodup
  rw [settingsText_eq, settingsText_eq, Setting.sorted_eq_of_perm hallNodup hall]

/-- Whether clauses can be read back from a key. Nothing stands in place of a clause, and whatever
is put into the key has none of the characters that follow it there. -/
structure Legible (c : Clauses) : Prop where
  fitting : c.misfits = {}
  selection : ∀ e ∈ c.selection, legibleSelected e = true
  joins : ∀ j ∈ c.joins, j.legible = true
  arrayJoins : ∀ a ∈ c.arrayJoins, a.legible = true
  conditions : ∀ o, o ∈ c.prewhere ∨ o ∈ c.condition ∨ o ∈ c.having → o.legible = true
  groupBy : ∀ o ∈ c.groupBy, o.legible = true
  orderBy : ∀ o ∈ c.orderBy, o.item.legible = true
  numbers : lacks ['|'] c.limit.display = true ∧ lacks ['|'] c.offset.display = true
  sample : ∀ s ∈ c.sample, lacks ['|'] s.ratio.display = true ∧
    lacks ['|', ':'] s.offset.display = true ∧ (s.offset.display = "None" → s.offset = .null)
  settings : (Keyed.keys c.settings).Nodup ∧
    ∀ e ∈ Keyed.mapValues Setting.format c.settings, legibleEntry e = true
  windows : ∀ e ∈ c.windows, legibleEntry e = true

/-- The entries of a clause are read back, sorted. -/
theorem sorted_of_entries {xs ys : List (String × String)}
    (hx : ∀ e ∈ xs, legibleEntry e = true) (hy : ∀ e ∈ ys, legibleEntry e = true)
    (h : entries xs = entries ys) : Setting.sorted xs = Setting.sorted ys := by
  have hx' : ∀ e ∈ Setting.sorted xs, legibleEntry e = true :=
    fun e he ↦ hx e ((Setting.sorted_perm xs).mem_iff.mp he)
  have hy' : ∀ e ∈ Setting.sorted ys, legibleEntry e = true :=
    fun e he ↦ hy e ((Setting.sorted_perm ys).mem_iff.mp he)
  have heq := Segment.forall₂_of_ended hx' hy' (fun _ he ↦ not_mem_entryText he (by decide))
    (fun _ _ ↦ eq_of_entryText) h
  rwa [List.forall₂_eq_eq_eq] at heq

/-- The items of a selection begin with a name and the sign after it. -/
private theorem selected_cons (e : String × Operand) (es : Selection) :
    ∃ rest, items ended ((e :: es).map selectedText) = some (e.1.toList ++ '=' :: rest) := by
  unfold items
  rw [List.map_cons, List.isEmpty_cons, if_neg Bool.false_ne_true, List.flatMap_cons, ended,
    selectedText]
  exact ⟨_, by rw [List.append_assoc, List.append_assoc, List.cons_append]⟩

/-- The items of a selection are not taken for the mark of distinct rows, which has a colon. -/
private theorem selected_ne_distinct {es : Selection}
    (h : ∀ e ∈ es, legibleSelected e = true) (rest : List Char) :
    (items ended (es.map selectedText)).getD ['*'] ≠ "DISTINCT".toList ++ ':' :: rest := by
  intro heq
  cases es with
  | nil => cases heq
  | cons e es =>
    have hname := h e List.mem_cons_self
    simp only [legibleSelected, Bool.and_eq_true] at hname
    obtain ⟨row, hrow⟩ := selected_cons e es
    rw [hrow, Option.getD_some] at heq
    apply Lexeme.not_mem_of_lacks hname.1.1.1 (c := ':') (by decide)
    exact Splitting.mem_of_until (Splitting.ends_cons '=' row) (by decide) (by decide) heq

/-- The items of a selection are not taken for all columns. -/
private theorem items_of_selected {es es' : Selection}
    (h : (items ended (es.map selectedText)).getD ['*'] =
      (items ended (es'.map selectedText)).getD ['*']) :
    items ended (es.map selectedText) = items ended (es'.map selectedText) := by
  have hstar (name rest : List Char) : ['*'] ≠ name ++ '=' :: rest := by
    intro heq
    have hmem : '=' ∈ ['*'] := heq ▸ List.mem_append_right _ List.mem_cons_self
    exact absurd hmem (by decide)
  cases es with
  | nil =>
    cases es' with
    | nil => rfl
    | cons e' es' =>
      obtain ⟨row, hrow⟩ := selected_cons e' es'
      rw [hrow] at h
      exact absurd h (hstar _ _)
  | cons e es =>
    obtain ⟨row, hrow⟩ := selected_cons e es
    cases es' with
    | nil =>
      rw [hrow] at h
      exact absurd h.symm (hstar _ _)
    | cons e' es' =>
      obtain ⟨row', hrow'⟩ := selected_cons e' es'
      rw [hrow, hrow'] at h ⊢
      exact congrArg some h

/-- The selection is read back: first whether rows are distinct, then the items. -/
private theorem selection_of_text (h : c.Legible) (h' : c'.Legible)
    (heq : c.selectionText = c'.selectionText) :
    c.distinct = c'.distinct ∧ List.Forall₂ AlikeSelected c.selection c'.selection := by
  have hitems (heq : (items ended (c.selection.map selectedText)).getD ['*'] =
      (items ended (c'.selection.map selectedText)).getD ['*']) :
      List.Forall₂ AlikeSelected c.selection c'.selection :=
    Segment.forall₂_of_ended h.selection h'.selection
      (fun _ he ↦ not_mem_selectedText he (by decide)) (fun _ _ ↦ alikeSelected_of_text)
      (items_of_selected heq)
  have hmark : "DISTINCT:".toList = "DISTINCT".toList ++ [':'] := rfl
  unfold selectionText at heq
  rw [hmark] at heq
  cases hd : c.distinct <;> cases hd' : c'.distinct <;>
    simp only [hd, hd', if_true, if_false, Bool.false_eq_true, List.nil_append] at heq
  · exact ⟨rfl, hitems heq⟩
  · rw [List.append_assoc] at heq
    exact absurd heq (selected_ne_distinct h.selection _)
  · rw [List.append_assoc] at heq
    exact absurd heq.symm (selected_ne_distinct h'.selection _)
  · exact ⟨rfl, hitems (List.append_cancel_left heq)⟩

/-- Conditions are read back; they are expressions. -/
theorem alike_of_conditions {o o' : Option Operand}
    (h : ∀ x ∈ o, x.legible = true ∧ x.tag = "EXPR:")
    (h' : ∀ x ∈ o', x.legible = true ∧ x.tag = "EXPR:")
    (heq : o.map Operand.signature = o'.map Operand.signature) :
    Option.Rel Operand.Alike o o' := by
  cases o with
  | none =>
    cases o' with
    | none => exact .none
    | some x' => cases heq
  | some x =>
    cases o' with
    | none => cases heq
    | some x' =>
      obtain ⟨hx, htag⟩ := h x rfl
      obtain ⟨hx', htag'⟩ := h' x' rfl
      exact .some (Operand.alike_of_signature hx hx' (htag.trans htag'.symm) (Option.some.inj heq))

private theorem numberText_of_ne {v : Value} (h : v ≠ .null) :
    numberText v = some v.display.toList := by
  cases v <;> first | rfl | exact absurd rfl h

/-- The number of rows and how many are skipped are written from what they hold in a key. -/
private theorem limitText_eq (c : Clauses) :
    c.limitText = match numberText c.limit, numberText c.offset with
      | none, _ => ""
      | some n, none => "LIMIT " ++ String.ofList n
      | some n, some k => "LIMIT " ++ String.ofList n ++ " OFFSET " ++ String.ofList k := by
  unfold limitText
  split
  · next hlimit =>
    rw [hlimit]
    rfl
  · next hoffset hlimit =>
    rw [hoffset, numberText_of_ne hlimit]
    simp [numberText, Value.isNull]
  · next hlimit hoffset =>
    rw [numberText_of_ne hlimit, numberText_of_ne hoffset]
    simp

private theorem sampleText_of_ne {ratio offset : Value} (h : offset ≠ .null)
    (hc : c.sample = some ⟨ratio, offset⟩) :
    c.sampleText = "SAMPLE " ++ ratio.display ++ " OFFSET " ++ offset.display := by
  unfold sampleText
  rw [hc]
  cases offset <;> first | rfl | exact absurd rfl h

/-- The sample is read back: nothing but null displays as null does. -/
private theorem sampleText_of_text (h : c.Legible) (h' : c'.Legible)
    (heq : c.sampleKeyText = c'.sampleKeyText) : c.sampleText = c'.sampleText := by
  have hsample := h.sample
  have hsample' := h'.sample
  unfold sampleKeyText at heq
  rcases hs : c.sample with _ | ⟨ratio, offset⟩ <;>
    rcases hs' : c'.sample with _ | ⟨ratio', offset'⟩ <;>
    rw [hs, hs'] at heq
  · unfold sampleText
    rw [hs, hs']
  · cases heq
  · cases heq
  · obtain ⟨-, hcolon, hnull⟩ := hsample _ hs
    obtain ⟨-, hcolon', hnull'⟩ := hsample' _ hs'
    obtain ⟨hratio, hoffset⟩ := Splitting.eq_of_last (Lexeme.not_mem_of_lacks hcolon (by decide))
      (Lexeme.not_mem_of_lacks hcolon' (by decide)) (Option.some.inj heq)
    replace hratio : ratio.display = ratio'.display := String.toList_injective hratio
    replace hoffset : offset.display = offset'.display := String.toList_injective hoffset
    by_cases ho : offset = .null
    · subst ho
      have ho' : offset' = .null := hnull' hoffset.symm
      subst ho'
      unfold sampleText
      rw [hs, hs']
      exact congrArg ("SAMPLE " ++ ·) hratio
    · have ho' : offset' ≠ .null := by
        rintro rfl
        exact ho (hnull hoffset)
      rw [sampleText_of_ne ho hs, sampleText_of_ne ho' hs', hratio, hoffset]

/-- Windows are written from their sorted texts. -/
private theorem windowText_congr (h : Setting.sorted c.windows = Setting.sorted c'.windows) :
    c.windowText = c'.windowText := by
  rw [windowText, windowText, ← Setting.isEmpty_sorted c.windows,
    ← Setting.isEmpty_sorted c'.windows, h]

/-- Legible clauses are read back from what they hold in a key. -/
theorem alike_of_texts (h : c.Legible) (h' : c'.Legible)
    (hselection : c.selectionText = c'.selectionText)
    (hjoins : items ended (c.joins.map Join.keyText) = items ended (c'.joins.map Join.keyText))
    (harrays : items ended (c.arrayJoins.map ArrayJoin.keyText) =
      items ended (c'.arrayJoins.map ArrayJoin.keyText))
    (hprewhere : Option.Rel Operand.Alike c.prewhere c'.prewhere)
    (hcondition : Option.Rel Operand.Alike c.condition c'.condition)
    (hgroups : items ended (c.groupBy.map Operand.keyText) =
      items ended (c'.groupBy.map Operand.keyText))
    (hhaving : Option.Rel Operand.Alike c.having c'.having)
    (horder : items ended (c.orderBy.map OrderItem.keyText) =
      items ended (c'.orderBy.map OrderItem.keyText))
    (hlimit : numberText c.limit = numberText c'.limit)
    (hoffset : numberText c.offset = numberText c'.offset)
    (hsample : c.sampleKeyText = c'.sampleKeyText)
    (hsettings : entries (Keyed.mapValues Setting.format c.settings) =
      entries (Keyed.mapValues Setting.format c'.settings))
    (hwindows : entries c.windows = entries c'.windows) : c.Alike c' := by
  obtain ⟨hdistinct, hselected⟩ := selection_of_text h h' hselection
  have hsorted := sorted_of_entries h.settings.2 h'.settings.2 hsettings
  have hsemicolon : ';' ∈ closing := by decide
  exact {
    distinct := hdistinct
    selection := hselected
    joins := Segment.forall₂_of_ended h.joins h'.joins
      (fun _ hj ↦ not_mem_joinText hj hsemicolon) (fun _ _ ↦ alikeJoin_of_text) hjoins
    arrayJoins := Segment.forall₂_of_ended h.arrayJoins h'.arrayJoins
      (fun _ ha ↦ not_mem_arrayText ha hsemicolon) (fun _ _ ↦ alikeArray_of_text) harrays
    prewhere := hprewhere
    condition := hcondition
    groupBy := Segment.forall₂_of_ended h.groupBy h'.groupBy
      (fun _ ho ↦ Operand.not_mem_keyText ho hsemicolon) (fun _ _ ↦ Operand.alike_of_keyText)
      hgroups
    having := hhaving
    orderBy := Segment.forall₂_of_ended h.orderBy h'.orderBy
      (fun _ ho ↦ not_mem_orderText ho hsemicolon) (fun _ _ ↦ alikeOrder_of_text) horder
    page := by rw [limitText_eq, limitText_eq, hlimit, hoffset]
    sample := sampleText_of_text h h' hsample
    windows := windowText_congr (sorted_of_entries h.windows h'.windows hwindows)
    settings := settingsText_congr h.fitting h'.fitting h.settings.1 hsorted }

end Clauses

end Columnar
