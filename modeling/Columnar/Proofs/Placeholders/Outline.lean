import Columnar.Proofs.Keys.Splitting
import Columnar.Proofs.Numbering

/-!
# Outlines of statements

An outline is SQL before its literals are numbered: a row of texts and of places for literals.
`Outline.write` numbers the places from left to right, and `Outline.Written` says what is written
and bound on the way; it composes along `++`. Where no text has an opening brace, a statement that
is renumbered is the same outline written from another number (`rename_write`), and whatever opens
with a brace is the placeholder of a literal (`opens_write`).
-/

namespace Columnar

/-- The text has no opening brace. -/
def Text.Unbraced (s : String) : Prop := '{' ∉ s.toList

instance (s : String) : Decidable (Text.Unbraced s) := inferInstanceAs (Decidable ('{' ∉ s.toList))

@[simp] theorem Text.unbraced_append (s t : String) :
    Unbraced (s ++ t) ↔ Unbraced s ∧ Unbraced t := by
  simp [Unbraced]

/-- A part of SQL: text as it is, or the place of a literal with the literal's type. -/
inductive Token where
  | text (s : String)
  | literal (v : Value) (type : String)

/-- SQL before its literals are numbered. -/
abbrev Outline := List Token

/-- Whether a part has no opening brace of its own. -/
def Token.Unbraced : Token → Prop
  | text s => Text.Unbraced s
  | literal _ type => Text.Unbraced type

@[simp] theorem Token.unbraced_text (s : String) : (text s).Unbraced ↔ Text.Unbraced s := .rfl

namespace Outline

/-- The SQL when `n` numbers are taken: the literals get the numbers that follow. -/
def write (n : Nat) : Outline → String
  | [] => ""
  | .text s :: rest => s ++ write n rest
  | .literal _ type :: rest => placeholder (Bindings.nameOf (n + 1)) type ++ write (n + 1) rest

/-- The literals with their types, from left to right. -/
def literals : Outline → List (Value × String)
  | [] => []
  | .text _ :: rest => literals rest
  | .literal v type :: rest => (v, type) :: literals rest

/-- The serial forms of the literals. -/
def serials (o : Outline) : Except Failure (List Value) :=
  o.literals.mapM fun l ↦ Literal.serialize l.1

/-- Outlines with a text between each two of them. -/
def spaced (separator : String) (os : List Outline) : Outline :=
  [Token.text separator].intercalate os

/-- No text and no type in the outline has an opening brace. -/
def Unbraced (o : Outline) : Prop := ∀ t ∈ o, t.Unbraced

@[simp] theorem literals_append (o₁ o₂ : Outline) :
    literals (o₁ ++ o₂) = o₁.literals ++ o₂.literals := by
  induction o₁ with
  | nil => rfl
  | cons t o₁ ih => cases t <;> simp [literals, ih]

theorem write_append (n : Nat) (o₁ o₂ : Outline) :
    write n (o₁ ++ o₂) = o₁.write n ++ o₂.write (n + o₁.literals.length) := by
  induction o₁ generalizing n with
  | nil => simp [write, literals]
  | cons t o₁ ih =>
    cases t with
    | text s => simp [write, literals, ih, String.append_assoc]
    | literal v type =>
      have hn : n + 1 + (literals o₁).length = n + ((literals o₁).length + 1) := by omega
      simp [write, literals, ih, String.append_assoc, hn]

@[simp] theorem write_text (n : Nat) (s : String) : write n [.text s] = s := by
  simp [write]

@[simp] theorem unbraced_append {o₁ o₂ : Outline} :
    Unbraced (o₁ ++ o₂) ↔ o₁.Unbraced ∧ o₂.Unbraced := List.forall_mem_append

@[simp] theorem unbraced_cons {t : Token} {o : Outline} :
    Unbraced (t :: o) ↔ t.Unbraced ∧ o.Unbraced := List.forall_mem_cons

@[simp] theorem unbraced_nil : Unbraced [] := List.forall_mem_nil _

theorem literals_spaced (separator : String) (os : List Outline) :
    (spaced separator os).literals = os.flatMap literals := by
  induction os with
  | nil => rfl
  | cons o os ih =>
    cases os with
    | nil => simp [spaced]
    | cons o' os' =>
      rw [spaced] at ih
      rw [spaced, List.intercalate_cons_cons, literals_append, literals_append, ih,
        List.flatMap_cons]
      simp [literals]

theorem unbraced_spaced {separator : String} (hs : Text.Unbraced separator) {os : List Outline}
    (hos : ∀ o ∈ os, o.Unbraced) : (spaced separator os).Unbraced := by
  induction os with
  | nil => exact unbraced_nil
  | cons o os ih =>
    obtain ⟨ho, hrest⟩ := List.forall_mem_cons.mp hos
    cases os with
    | nil => simpa [spaced] using ho
    | cons o' os' =>
      rw [spaced, List.intercalate_cons_cons, unbraced_append, unbraced_append]
      exact ⟨⟨ho, by simpa using hs⟩, ih hrest⟩

theorem literals_flatten (os : List Outline) : literals os.flatten = os.flatMap literals := by
  induction os with
  | nil => rfl
  | cons o os ih => rw [List.flatten_cons, literals_append, ih, List.flatMap_cons]

/-! ### Writing and binding -/

/-- The outline gives the SQL when it is written from the bindings `b`, and its literals are bound
on the way. -/
def Written (o : Outline) (b : Bindings) (sql : String) (b' : Bindings) : Prop :=
  sql = o.write b.count ∧ ∃ vs, o.serials = .ok vs ∧ b' = b.extend vs

section Written

variable {o o₁ o₂ : Outline} {os : List Outline} {b b₁ b₂ b' : Bindings} {sql sql₁ sql₂ : String}

/-- As many numbers are taken as there are literals. -/
theorem Written.count (h : o.Written b sql b') : b'.count = b.count + o.literals.length := by
  obtain ⟨-, vs, hvs, rfl⟩ := h
  have hlen : ∀ {ls : List (Value × String)} {vs : List Value},
      (ls.mapM fun l ↦ Literal.serialize l.1) = .ok vs → vs.length = ls.length := by
    intro ls
    induction ls with
    | nil =>
      rintro vs ⟨⟩
      rfl
    | cons l ls ih =>
      intro vs h
      rw [List.mapM_cons] at h
      rcases hl : Literal.serialize l.1 with e | v <;> rw [hl] at h
      · cases h
      · rcases hls : (ls.mapM fun l ↦ Literal.serialize l.1) with e | ws <;> rw [hls] at h
        · cases h
        · cases h
          rw [List.length_cons, List.length_cons, ih hls]
  rw [Bindings.extend, hlen hvs]

/-- What is written and bound is determined by the outline and the bindings it starts from. -/
theorem Written.unique (h₁ : o.Written b sql₁ b₁) (h₂ : o.Written b sql₂ b₂) :
    sql₁ = sql₂ ∧ b₁ = b₂ := by
  obtain ⟨rfl, vs, hvs, rfl⟩ := h₁
  obtain ⟨rfl, ws, hws, rfl⟩ := h₂
  obtain rfl := Except.ok.inj (hvs.symm.trans hws)
  exact ⟨rfl, rfl⟩

theorem written_nil (b : Bindings) : Written [] b "" b :=
  ⟨rfl, [], rfl, by simp⟩

theorem written_text (s : String) (b : Bindings) : Written [.text s] b s b :=
  ⟨by simp, [], rfl, by simp⟩

private theorem serials_append {vs ws : List Value} (h₁ : o₁.serials = .ok vs)
    (h₂ : o₂.serials = .ok ws) : serials (o₁ ++ o₂) = .ok (vs ++ ws) := by
  unfold serials at *
  rw [literals_append, List.mapM_append, h₁, h₂]
  rfl

/-- What is written one after the other is the whole. -/
theorem Written.append (h₁ : o₁.Written b sql₁ b₁) (h₂ : o₂.Written b₁ sql₂ b₂) :
    Written (o₁ ++ o₂) b (sql₁ ++ sql₂) b₂ := by
  have hcount := h₁.count
  obtain ⟨rfl, vs, hvs, rfl⟩ := h₁
  obtain ⟨rfl, ws, hws, rfl⟩ := h₂
  refine ⟨?_, vs ++ ws, serials_append hvs hws, by simp⟩
  rw [write_append, hcount]

theorem Written.cons (h : o.Written b sql b') (s : String) :
    Written (.text s :: o) b (s ++ sql) b' := (written_text s b).append h

theorem Written.snoc (h : o.Written b sql b') (s : String) :
    Written (o ++ [.text s]) b (sql ++ s) b' := h.append (written_text s b')

/-- A literal is written as its placeholder and bound to its serial form. -/
theorem written_literal {v serial : Value} (h : Literal.serialize v = .ok serial) (type : String)
    (b : Bindings) : Written [.literal v type] b
      (placeholder (Bindings.nameOf (b.count + 1)) type) (b.extend [serial]) := by
  refine ⟨by simp [write], [serial], ?_, rfl⟩
  rw [serials, literals, literals, List.mapM_cons, h]
  rfl

/-- Outlines are written one after another. -/
inductive AllWritten : List Outline → Bindings → List String → Bindings → Prop
  | nil {b : Bindings} : AllWritten [] b [] b
  | cons {o : Outline} {os : List Outline} {b b₁ b₂ : Bindings} {sql : String}
      {sqls : List String} : o.Written b sql b₁ → AllWritten os b₁ sqls b₂ →
      AllWritten (o :: os) b (sql :: sqls) b₂

/-- Texts are put together with a separator as their outlines are. -/
theorem AllWritten.spaced {sqls : List String} (h : AllWritten os b sqls b') (separator : String) :
    (Outline.spaced separator os).Written b (separator.intercalate sqls) b' := by
  induction h with
  | nil => exact written_nil _
  | @cons o os b b₁ b₂ sql sqls ho hos ih =>
    cases hos with
    | nil => simpa [Outline.spaced, List.intercalate] using ho
    | cons ho' hos' =>
      rw [Outline.spaced, List.intercalate_cons_cons, String.intercalate_cons_cons]
      exact (ho.snoc separator).append ih

/-- Texts are joined as their outlines are. -/
theorem AllWritten.flatten {sqls : List String} (h : AllWritten os b sqls b') :
    Written os.flatten b (String.join sqls) b' := by
  induction h with
  | nil => exact written_nil _
  | cons ho _ ih =>
    rw [List.flatten_cons, String.join_cons]
    exact ho.append ih

theorem AllWritten.isEmpty {sqls : List String} (h : AllWritten os b sqls b') :
    os.isEmpty = sqls.isEmpty := by
  cases h <;> rfl

end Written

/-! ### What does not depend on the numbers -/

/-- Without literals one text is written; with literals there is a closing brace, and what is behind
the last one is the same whatever the numbers are. -/
private theorem write_cases (o : Outline) : (∃ s, ∀ n, o.write n = s) ∨
    ∃ tail : String, ∀ n, ∃ head : String, o.write n = head ++ ("\x7d" ++ tail) := by
  induction o with
  | nil => exact .inl ⟨"", fun _ ↦ rfl⟩
  | cons t o ih =>
    cases t with
    | text s =>
      rcases ih with ⟨r, hr⟩ | ⟨tail, htail⟩
      · exact .inl ⟨s ++ r, fun n ↦ by rw [write, hr]⟩
      · refine .inr ⟨tail, fun n ↦ ?_⟩
        obtain ⟨head, hhead⟩ := htail n
        exact ⟨s ++ head, by rw [write, hhead, String.append_assoc]⟩
    | literal v type =>
      rcases ih with ⟨r, hr⟩ | ⟨tail, htail⟩
      · refine .inr ⟨r, fun n ↦ ⟨"\x7b" ++ Bindings.nameOf (n + 1) ++ ":" ++ type, ?_⟩⟩
        simp only [write, hr, placeholder, String.append_assoc]
      · refine .inr ⟨tail, fun n ↦ ?_⟩
        obtain ⟨head, hhead⟩ := htail (n + 1)
        exact ⟨placeholder (Bindings.nameOf (n + 1)) type ++ head, by
          rw [write, hhead, String.append_assoc]⟩

/-- Whether anything is written does not depend on the numbers. -/
theorem write_eq_empty (o : Outline) (m n : Nat) : o.write m = "" ↔ o.write n = "" := by
  rcases write_cases o with ⟨s, hs⟩ | ⟨tail, htail⟩
  · rw [hs, hs]
  · have hne (n : Nat) : o.write n ≠ "" := by
      obtain ⟨head, hhead⟩ := htail n
      rw [hhead]
      simp [String.append_eq_empty_iff]
    exact iff_of_false (hne m) (hne n)

private theorem literals_of_write {o : Outline} {n : Nat} (h : o.write n = "") :
    o.literals = [] := by
  induction o generalizing n with
  | nil => rfl
  | cons t o ih =>
    cases t with
    | text s => exact ih (String.append_eq_empty_iff.mp h).2
    | literal v type =>
      have hplace := (String.append_eq_empty_iff.mp h).1
      simp [placeholder, String.append_eq_empty_iff] at hplace

/-- Whether anything is written. -/
def isWritten (o : Outline) : Bool := o.write 0 ≠ ""

theorem isWritten_eq (o : Outline) (n : Nat) : o.isWritten = decide (o.write n ≠ "") := by
  rw [isWritten, decide_eq_decide, ne_eq, ne_eq, write_eq_empty o 0 n]

/-- Outlines that nothing is written of have no literals. -/
theorem literals_filter (os : List Outline) :
    (os.filter isWritten).flatMap literals = os.flatMap literals := by
  induction os with
  | nil => rfl
  | cons o os ih =>
    rw [List.filter_cons]
    split
    · rw [List.flatMap_cons, List.flatMap_cons, ih]
    · next h =>
      rw [isWritten, decide_eq_true_eq, not_not] at h
      rw [List.flatMap_cons, literals_of_write h, List.nil_append, ih]

/-- What is left of texts without the empty ones is written by what is left of the outlines. -/
theorem AllWritten.filter {os : List Outline} {b b' : Bindings} {sqls : List String}
    (h : AllWritten os b sqls b') :
    AllWritten (os.filter isWritten) b (sqls.filter (· ≠ "")) b' := by
  induction h with
  | nil => exact .nil
  | @cons o os b b₁ b₂ sql sqls ho hos ih =>
    have hsame : o.isWritten = decide (sql ≠ "") := by rw [isWritten_eq o b.count, ho.1]
    rw [List.filter_cons, List.filter_cons, hsame]
    split
    · exact .cons ho ih
    · next hempty =>
      rw [decide_eq_true_eq, not_not] at hempty
      obtain ⟨hsql, vs, hvs, rfl⟩ := ho
      rw [serials, literals_of_write (hsql.symm.trans hempty)] at hvs
      obtain rfl : vs = [] := (Except.ok.inj hvs).symm
      rwa [Bindings.extend_nil] at ih

private theorem dropWhile_append_cons {p : Char → Bool} {d : Char} (hd : p d = false)
    (xs ys : List Char) : (xs ++ d :: ys).dropWhile p = xs.dropWhile p ++ d :: ys := by
  induction xs with
  | nil => simp [hd]
  | cons x xs ih =>
    rw [List.cons_append, List.dropWhile_cons, List.dropWhile_cons, ih]
    split <;> rfl

private theorem strip_append_cons {p : Char → Bool} {d : Char} (hd : p d = false)
    (xs ys : List Char) : Text.strip p (xs ++ d :: ys) =
      xs.dropWhile p ++ d :: (ys.reverse.dropWhile p).reverse := by
  rw [Text.strip, dropWhile_append_cons hd, List.reverse_append, List.reverse_cons,
    List.append_assoc, List.singleton_append, dropWhile_append_cons hd]
  simp

private theorem isSuffixOf_append_cons {k : List Char} {d : Char} (hd : d ∉ k)
    (xs ys : List Char) : k.isSuffixOf (xs ++ d :: ys) = k.isSuffixOf ys := by
  rw [Bool.eq_iff_iff, List.isSuffixOf_iff_suffix, List.isSuffixOf_iff_suffix]
  constructor
  · intro h
    rcases List.suffix_or_suffix_of_suffix h (List.suffix_append xs (d :: ys)) with h | h
    · rcases List.suffix_cons_iff.mp h with rfl | h
      · exact absurd List.mem_cons_self hd
      · exact h
    · exact absurd (h.subset List.mem_cons_self) hd
  · intro h
    exact h.trans ((List.suffix_cons d ys).trans (List.suffix_append _ _))

/-- Only what is behind a closing brace can be a keyword at the end. -/
private theorem endsInKeyword_brace {suffix : String} (hs : '}' ∉ suffix.toList)
    (head tail : String) : Text.endsInKeyword suffix (head ++ ("\x7d" ++ tail)) =
      suffix.toList.isSuffixOf ((tail.toList.reverse.dropWhile Text.isBlank).reverse.flatMap
        Text.capital) := by
  have hlist : (head ++ ("\x7d" ++ tail)).toList = head.toList ++ '}' :: tail.toList := by
    simp [String.toList_append]
  rw [Text.endsInKeyword, Text.capitals, Text.trim, hlist, Text.trimChars,
    strip_append_cons (by decide), String.toList_ofList, String.toList_ofList,
    List.flatMap_append, List.flatMap_cons]
  exact isSuffixOf_append_cons hs _ _

/-- Whether an ordering has a direction of its own does not depend on the numbers. -/
theorem hasDirection_write (o : Outline) (m n : Nat) :
    Clauses.hasDirection (o.write m) = Clauses.hasDirection (o.write n) := by
  rcases write_cases o with ⟨s, hs⟩ | ⟨tail, htail⟩
  · rw [hs, hs]
  · obtain ⟨head, hhead⟩ := htail m
    obtain ⟨head', hhead'⟩ := htail n
    rw [hhead, hhead', Clauses.hasDirection, Clauses.hasDirection,
      endsInKeyword_brace (by decide), endsInKeyword_brace (by decide),
      endsInKeyword_brace (by decide), endsInKeyword_brace (by decide)]

/-! ### Renumbering -/

/-- Renamings of a number of names after `k` to as many after `m`. -/
def shifts (k m : Nat) : Nat → List (String × String)
  | 0 => []
  | n + 1 => (Bindings.nameOf (k + 1), Bindings.nameOf (m + 1)) :: shifts (k + 1) (m + 1) n

theorem fst_rebind (k : Nat) (vs : List Value) (b : Bindings) :
    (Statement.rebind (Bindings.numbered k vs) b).1 = shifts k b.count vs.length := by
  induction vs generalizing k b with
  | nil => rfl
  | cons v vs ih =>
    change (Bindings.nameOf (k + 1), Bindings.nameOf (b.count + 1)) ::
      (Statement.rebind (Bindings.numbered (k + 1) vs) (b.next.push v)).1 = _
    rw [ih]
    rfl

/-- The names of parameters are made of a prefix and digits. -/
theorem notMem_nameOf {c : Char} (hc : c ∉ "p_".toList ∧ c.isDigit = false) (n : Nat) :
    c ∉ (Bindings.nameOf n).toList := by
  intro h
  simp only [Bindings.nameOf, Text.ofNat, String.toList_append, String.toList_ofList,
    List.mem_append] at h
  rcases h with h | h
  · exact hc.1 h
  · rw [Nat.isDigit_of_mem_toDigits (by decide) (by decide) h] at hc
    cases hc.2

theorem colon_notMem_nameOf (n : Nat) : ':' ∉ (Bindings.nameOf n).toList :=
  notMem_nameOf (by decide) n

/-- A name is renamed where it stands before a colon. -/
theorem renamingAt_shifts {k m n i : Nat} (hi : i < n) (r : List Char) :
    Statement.renamingAt (shifts k m n) ((Bindings.nameOf (k + i + 1)).toList ++ ':' :: r) =
      some (Bindings.nameOf (k + i + 1), Bindings.nameOf (m + i + 1)) := by
  induction n generalizing k m i with
  | zero => omega
  | succ n ih =>
    unfold Statement.renamingAt at *
    cases i with
    | zero =>
      rw [shifts, List.find?_cons_of_pos]
      rw [List.isPrefixOf_iff_prefix]
      exact ⟨r, by simp⟩
    | succ i =>
      rw [shifts, List.find?_cons_of_neg]
      · have h := ih (k := k + 1) (m := m + 1) (i := i) (by omega)
        rwa [show k + 1 + i + 1 = k + (i + 1) + 1 by omega,
          show m + 1 + i + 1 = m + (i + 1) + 1 by omega] at h
      · rw [List.isPrefixOf_iff_prefix]
        rintro ⟨w, hw⟩
        -- Neither name holds a colon, so one before the other's colon is the other: no name is
        -- taken for a longer one with the same beginning.
        simp only [List.append_assoc, List.singleton_append] at hw
        obtain ⟨heq, -⟩ := Splitting.eq_of_first (colon_notMem_nameOf _) (colon_notMem_nameOf _) hw
        have := Bindings.nameOf_injective (String.toList_injective heq)
        omega

/-- The old name is passed over. -/
theorem renameFrom_skip (names : List (String × String)) (skipped r : List Char) :
    Statement.renameFrom names skipped.length (skipped ++ r) = Statement.renameFrom names 0 r := by
  induction skipped with
  | nil => rfl
  | cons c skipped ih => exact ih

/-- Text without an opening brace stays as it is. -/
private theorem renameFrom_text (names : List (String × String)) {s : List Char} (h : '{' ∉ s)
    (r : List Char) :
    Statement.renameFrom names 0 (s ++ r) = s ++ Statement.renameFrom names 0 r := by
  induction s with
  | nil => rfl
  | cons c s ih =>
    obtain ⟨hc, hs⟩ := not_or.mp (List.mem_cons.not.mp h)
    have hne : (c == '{') = false := beq_eq_false_iff_ne.mpr fun he ↦ hc he.symm
    rw [List.cons_append, Statement.renameFrom, hne]
    simp [ih hs]

theorem toList_placeholder (name type : String) :
    (placeholder name type).toList = '{' :: (name.toList ++ ':' :: (type.toList ++ ['}'])) := by
  simp [placeholder]

/-- What follows the name in a placeholder has no opening brace when the type has none. -/
private theorem notMem_behind {type : String} (h : Text.Unbraced type) :
    '{' ∉ ':' :: (type.toList ++ ['}']) := by
  have h : '{' ∉ type.toList := h
  simp [h]

private theorem renameFrom_write {o : Outline} (ho : o.Unbraced) {m j n : Nat}
    (hn : j + o.literals.length ≤ n) :
    Statement.renameFrom (shifts 0 m n) 0 (o.write j).toList = (o.write (m + j)).toList := by
  induction o generalizing j with
  | nil => rfl
  | cons t o ih =>
    obtain ⟨ht, hrest⟩ := unbraced_cons.mp ho
    cases t with
    | text s =>
      simp only [literals] at hn
      rw [write, write, String.toList_append, String.toList_append, renameFrom_text _ ht,
        ih hrest hn]
    | literal v type =>
      simp only [literals, List.length_cons] at hn
      have hafter := ih hrest (j := j + 1) (by omega)
      have hname := renamingAt_shifts (k := 0) (m := m) (n := n) (i := j) (by omega)
        (type.toList ++ ['}'] ++ (write (j + 1) o).toList)
      rw [Nat.zero_add] at hname
      have hend := renameFrom_text (shifts 0 m n) (notMem_behind ht) (write (j + 1) o).toList
      have hskip := renameFrom_skip (shifts 0 m n) (Bindings.nameOf (j + 1)).toList
        (':' :: (type.toList ++ ['}']) ++ (write (j + 1) o).toList)
      rw [write, write, String.toList_append, String.toList_append, toList_placeholder,
        toList_placeholder]
      simp only [List.cons_append, List.append_assoc] at hname hend hskip ⊢
      rw [Statement.renameFrom]
      simp only [beq_self_eq_true, if_true, hname, String.length_toList] at hskip ⊢
      rw [hskip, hend, hafter, show m + (j + 1) = m + j + 1 by omega, List.cons_append]

/-- A statement written from the first number and bound again after others reads as its outline
written after them. -/
theorem rename_write {o : Outline} (ho : o.Unbraced) {vs : List Value}
    (hvs : vs.length = o.literals.length) (b : Bindings) :
    Statement.rename (Statement.rebind (Bindings.numbered 0 vs) b).1 (o.write 0) =
      o.write b.count := by
  apply String.toList_injective
  rw [Statement.rename, String.toList_ofList, fst_rebind, renameFrom_write ho (by omega),
    Nat.add_zero]

/-! ### Placeholders -/

/-- What follows each opening brace of a text. -/
def openings : List Char → List (List Char)
  | [] => []
  | c :: rest => if c = '{' then rest :: openings rest else openings rest

private theorem openings_append {s : List Char} (h : '{' ∉ s) (r : List Char) :
    openings (s ++ r) = openings r := by
  induction s with
  | nil => rfl
  | cons c s ih =>
    obtain ⟨hc, hs⟩ := not_or.mp (List.mem_cons.not.mp h)
    rw [List.cons_append, openings, if_neg fun he ↦ hc he.symm, ih hs]

/-- A text begins with what is inside the placeholder of a literal with a type and a number. -/
def Opens (opened : List Char) (l : (Value × String) × Nat) : Prop :=
  (Bindings.nameOf l.2 ++ ":" ++ l.1.2 ++ "\x7d").toList <+: opened

/-- The opening braces of what is written belong to the placeholders of the literals, which are
numbered from left to right. -/
theorem opens_write {o : Outline} (ho : o.Unbraced) (n : Nat) :
    List.Forall₂ Opens (openings (o.write n).toList) (o.literals.zipIdx (n + 1)) := by
  induction o generalizing n with
  | nil => exact .nil
  | cons t o ih =>
    obtain ⟨ht, hrest⟩ := unbraced_cons.mp ho
    cases t with
    | text s =>
      rw [write, String.toList_append, openings_append ht]
      exact ih hrest n
    | literal v type =>
      have hinside : '{' ∉ (Bindings.nameOf (n + 1)).toList ++ ':' :: (type.toList ++ ['}']) :=
        fun h ↦ (List.mem_append.mp h).elim (notMem_nameOf (by decide) _) (notMem_behind ht)
      rw [write, String.toList_append, toList_placeholder, literals, List.zipIdx_cons,
        List.cons_append, openings, if_pos rfl, openings_append hinside]
      refine .cons ⟨(write (n + 1) o).toList, ?_⟩ (ih hrest (n + 1))
      simp

end Outline

end Columnar
