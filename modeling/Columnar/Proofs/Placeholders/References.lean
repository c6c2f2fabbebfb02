import Columnar.Proofs.Placeholders.Outline
import Columnar.Proofs.Succeeding

/-!
# References to parameters

A statement that is inlined is renamed wherever its text has an opening brace, the name of one of
its parameters and a colon. `Statement.references` counts these places. The placeholders of its
literals are among them (`Outline.length_literals_le`), but any other text may be as well. A
statement that is bound again behind other parameters is its own outline, written from another
number, exactly when the placeholders are all there is (`Outline.rename_write_iff`).
-/

namespace Columnar

namespace Statement

/-- Whether the characters begin with one of the names and a colon. -/
def refersTo (names : List String) (cs : List Char) : Bool :=
  names.any fun name ↦ (name.toList ++ [':']).isPrefixOf cs

/-- The number of opening braces that have one of the names and a colon behind them. -/
def referencesIn (names : List String) : List Char → Nat
  | [] => 0
  | c :: rest =>
    (if c = '{' ∧ refersTo names rest = true then 1 else 0) + referencesIn names rest

/-- How often the text of a statement refers to its parameters. -/
def references (s : Statement) : Nat := referencesIn (s.params.map Prod.fst) s.sql.toList

theorem isSome_renamingAt (names : List (String × String)) (cs : List Char) :
    (renamingAt names cs).isSome = refersTo (names.map Prod.fst) cs := by
  rw [Bool.eq_iff_iff, renamingAt, List.find?_isSome, refersTo, List.any_map, List.any_eq_true]
  rfl

theorem referencesIn_le_append (names : List String) (cs rest : List Char) :
    referencesIn names rest ≤ referencesIn names (cs ++ rest) := by
  induction cs with
  | nil => exact Nat.le_refl _
  | cons c cs ih => exact ih.trans (Nat.le_add_left _ _)

variable {names : List (String × String)}

/-- The old name is one of those that are renamed, and it stands there in front of a colon. -/
theorem of_renamingAt {cs : List Char} {old new : String}
    (h : renamingAt names cs = some (old, new)) :
    (old, new) ∈ names ∧ ∃ behind, cs = old.toList ++ ':' :: behind := by
  refine ⟨List.mem_of_find?_eq_some h, ?_⟩
  have hprefix : (old.toList ++ [':']).isPrefixOf cs = true :=
    List.find?_some (p := fun n : String × String ↦ (n.1.toList ++ [':']).isPrefixOf cs) h
  obtain ⟨behind, rfl⟩ := List.isPrefixOf_iff_prefix.mp hprefix
  exact ⟨behind, by simp⟩

/-- Where a reference begins, the new name stands in place of the old one. -/
theorem renameFrom_reference {old new : String} {behind : List Char}
    (h : renamingAt names (old.toList ++ ':' :: behind) = some (old, new)) :
    renameFrom names 0 ('{' :: (old.toList ++ ':' :: behind)) =
      '{' :: (new.toList ++ ':' :: renameFrom names 0 behind) := by
  have hskip := Outline.renameFrom_skip names old.toList (':' :: behind)
  rw [String.length_toList] at hskip
  rw [renameFrom]
  simp only [beq_self_eq_true, if_true, h, hskip]
  rfl

/-- A character at which no reference begins stays as it is. -/
theorem renameFrom_cons {c : Char} {rest : List Char}
    (h : ¬ (c = '{' ∧ refersTo (names.map Prod.fst) rest = true)) :
    renameFrom names 0 (c :: rest) = c :: renameFrom names 0 rest := by
  rw [renameFrom]
  split
  · next hc =>
    have hnone : renamingAt names rest = none := by
      rw [← Option.not_isSome_iff_eq_none, isSome_renamingAt]
      exact fun hrefers ↦ h ⟨by simpa using hc, hrefers⟩
    rw [hnone]
  · rfl

/-- Text in which no reference begins stays as it is. -/
theorem renameFrom_append {cs rest : List Char}
    (h : referencesIn (names.map Prod.fst) (cs ++ rest) = referencesIn (names.map Prod.fst) rest) :
    renameFrom names 0 (cs ++ rest) = cs ++ renameFrom names 0 rest := by
  induction cs with
  | nil => rfl
  | cons c cs ih =>
    have hle := referencesIn_le_append (names.map Prod.fst) cs rest
    rw [List.cons_append, referencesIn] at h
    rw [List.cons_append, renameFrom_cons, ih (by omega), List.cons_append]
    intro hrefers
    rw [if_pos hrefers] at h
    omega

/-- Text without an opening brace has no references. -/
theorem referencesIn_append_of_notMem (names : List String) {cs : List Char} (h : '{' ∉ cs)
    (rest : List Char) : referencesIn names (cs ++ rest) = referencesIn names rest := by
  induction cs with
  | nil => rfl
  | cons c cs ih =>
    obtain ⟨hc, hcs⟩ := not_or.mp (List.mem_cons.not.mp h)
    rw [List.cons_append, referencesIn, if_neg fun hr ↦ hc hr.1.symm, Nat.zero_add, ih hcs]

/-- The characters agree until the first opening brace of one of them. -/
def AgreeToBrace (cs cs' : List Char) : Prop := ∀ w, '{' ∉ w → w <+: cs → w <+: cs'

theorem AgreeToBrace.append {rest rest' : List Char} (h : AgreeToBrace rest rest')
    (cs : List Char) : AgreeToBrace (cs ++ rest) (cs ++ rest') := by
  induction cs with
  | nil => exact h
  | cons c cs ih =>
    intro w hw hprefix
    cases w with
    | nil => exact List.nil_prefix
    | cons d w =>
      rw [List.cons_append] at hprefix ⊢
      obtain ⟨rfl, htail⟩ := List.cons_prefix_cons.mp hprefix
      exact List.cons_prefix_cons.mpr ⟨rfl, ih w (fun hd ↦ hw (List.mem_cons_of_mem _ hd)) htail⟩

/-- Where new names differ from the old ones, text stays as it is only if no reference begins in
it. -/
theorem referencesIn_of_renameFrom {cs rest rest' : List Char}
    (hnames : ∀ n ∈ names, n.2 ≠ n.1 ∧ '{' ∉ n.1.toList ∧ ':' ∉ n.1.toList ∧ ':' ∉ n.2.toList)
    (hagree : AgreeToBrace rest rest') (h : renameFrom names 0 (cs ++ rest) = cs ++ rest') :
    referencesIn (names.map Prod.fst) (cs ++ rest) = referencesIn (names.map Prod.fst) rest ∧
      renameFrom names 0 rest = rest' := by
  induction cs with
  | nil => exact ⟨rfl, h⟩
  | cons c cs ih =>
    by_cases hrefers : c = '{' ∧ refersTo (names.map Prod.fst) (cs ++ rest) = true
    · -- The old name and the colon stand before any brace of the rest, so they are still there, and
      -- the new name stands in their place.
      exfalso
      obtain ⟨rfl, hrefers⟩ := hrefers
      rw [← isSome_renamingAt, Option.isSome_iff_exists] at hrefers
      obtain ⟨⟨old, new⟩, hat⟩ := hrefers
      obtain ⟨hmem, behind, hbehind⟩ := of_renamingAt hat
      obtain ⟨hne, hbrace, hold, hnew⟩ := hnames _ hmem
      obtain ⟨behind', hbehind'⟩ := hagree.append cs (old.toList ++ [':']) (by simpa using hbrace)
        ⟨behind, by simp [hbehind]⟩
      rw [hbehind] at hat
      rw [List.cons_append, hbehind, renameFrom_reference hat, List.cons_append, ← hbehind',
        List.append_assoc] at h
      obtain ⟨heq, -⟩ := Splitting.eq_of_first hnew hold (List.cons.inj h).2
      exact hne (String.toList_injective heq)
    · rw [List.cons_append, renameFrom_cons hrefers] at h
      obtain ⟨hrefs, hrest⟩ := ih (List.cons.inj h).2
      rw [List.cons_append, referencesIn, if_neg hrefers, Nat.zero_add]
      exact ⟨hrefs, hrest⟩

/-- Names that stay as they are leave the text as it is. -/
theorem renameFrom_self (h : ∀ e ∈ names, e.2 = e.1) (cs : List Char) :
    renameFrom names 0 cs = cs := by
  -- Behind a reference the renaming goes on behind its name, so the rest is any shorter text.
  induction hlength : cs.length using Nat.strong_induction_on generalizing cs with
  | _ length ih =>
    cases cs with
    | nil => rfl
    | cons c rest =>
      subst hlength
      by_cases hrefers : c = '{' ∧ refersTo (names.map Prod.fst) rest = true
      · obtain ⟨rfl, hrefers⟩ := hrefers
        rw [← isSome_renamingAt, Option.isSome_iff_exists] at hrefers
        obtain ⟨⟨old, new⟩, hat⟩ := hrefers
        obtain ⟨hmem, behind, rfl⟩ := of_renamingAt hat
        obtain rfl : new = old := h _ hmem
        rw [renameFrom_reference hat, ih behind.length _ behind rfl]
        simp only [List.length_cons, List.length_append]
        omega
      · rw [renameFrom_cons hrefers, ih rest.length (Nat.lt_succ_self _) rest rfl]

end Statement

namespace Outline

open Statement

/-- There is one serial form for each literal. -/
theorem length_of_serials {o : Outline} {vs : List Value} (h : o.serials = .ok vs) :
    vs.length = o.literals.length := by
  rw [(Succeeding.forall₂_of_mapM h).length_eq]

theorem serials_append_eq_ok {o o' : Outline} {vs : List Value} :
    serials (o ++ o') = .ok vs ↔
      ∃ us ws, o.serials = .ok us ∧ o'.serials = .ok ws ∧ us ++ ws = vs := by
  unfold serials
  rw [literals_append, List.mapM_append, Succeeding.bind_eq_ok]
  constructor
  · rintro ⟨us, hus, h⟩
    obtain ⟨ws, hws, h⟩ := Succeeding.bind_eq_ok.mp h
    exact ⟨us, ws, hus, hws, Except.ok.inj h⟩
  · rintro ⟨us, ws, hus, hws, rfl⟩
    exact ⟨us, hus, Succeeding.bind_eq_ok.mpr ⟨ws, hws, rfl⟩⟩

/-- The names from `p_1` on. -/
def firstNames (n : Nat) : List String := (shifts 0 0 n).map Prod.fst

theorem map_fst_shifts (k m m' n : Nat) :
    (shifts k m n).map Prod.fst = (shifts k m' n).map Prod.fst := by
  induction n generalizing k m m' with
  | zero => rfl
  | succ n ih => rw [shifts, shifts, List.map_cons, List.map_cons, ih]

theorem map_fst_numbered (vs : List Value) :
    (Bindings.numbered 0 vs).map Prod.fst = firstNames vs.length := by
  have h (k : Nat) : (Bindings.numbered k vs).map Prod.fst =
      (shifts k k vs.length).map Prod.fst := by
    induction vs generalizing k with
    | nil => rfl
    | cons v vs ih =>
      rw [Bindings.numbered, List.map_cons, List.length_cons, shifts, List.map_cons, ih]
  exact h 0

theorem length_numbered (n : Nat) (vs : List Value) :
    (Bindings.numbered n vs).length = vs.length := by
  have h := congrArg List.length (Bindings.values_numbered n vs)
  rwa [List.length_map] at h

/-- A placeholder refers to its parameter. -/
theorem refersTo_placeholder {n j : Nat} (hj : j < n) (rest : List Char) :
    refersTo (firstNames n) ((Bindings.nameOf (j + 1)).toList ++ ':' :: rest) = true := by
  have hat := renamingAt_shifts (k := 0) (m := 0) hj rest
  rw [Nat.zero_add] at hat
  rw [firstNames, ← isSome_renamingAt, hat]
  rfl

private theorem toList_write_literal (n : Nat) (v : Value) (type : String) (o : Outline) :
    (write n (.literal v type :: o)).toList = '{' :: ((Bindings.nameOf (n + 1)).toList ++
      (':' :: (type.toList ++ ['}']) ++ (write (n + 1) o).toList)) := by
  rw [write, String.toList_append, toList_placeholder]
  simp

/-- Where a literal stands there is one reference, and no other one in its name. -/
theorem referencesIn_literal {n j : Nat} (hj : j < n) (v : Value) (type : String) (o : Outline) :
    referencesIn (firstNames n) (write j (.literal v type :: o)).toList =
      1 + referencesIn (firstNames n)
        (':' :: (type.toList ++ ['}']) ++ (o.write (j + 1)).toList) := by
  rw [toList_write_literal, referencesIn, List.cons_append, if_pos ⟨rfl, refersTo_placeholder hj _⟩,
    referencesIn_append_of_notMem _ (notMem_nameOf (by decide) _)]

/-- Every literal is referred to. -/
theorem length_literals_le {o : Outline} {j n : Nat} (hn : j + o.literals.length ≤ n) :
    o.literals.length ≤ referencesIn (firstNames n) (write j o).toList := by
  induction o generalizing j with
  | nil => exact Nat.zero_le _
  | cons t o ih =>
    cases t with
    | text s =>
      rw [write, String.toList_append]
      exact (ih hn).trans (referencesIn_le_append _ _ _)
    | literal v type =>
      simp only [literals, List.length_cons] at hn ⊢
      have hrest := ih (j := j + 1) (by omega)
      have hbehind := referencesIn_le_append (firstNames n) (':' :: (type.toList ++ ['}']))
        (write (j + 1) o).toList
      rw [referencesIn_literal (by omega)]
      omega

/-- What is written where a literal stands, renamed. -/
private theorem renameFrom_literal {m n j : Nat} (hj : j < n) (v : Value) (type : String)
    (o : Outline) : renameFrom (shifts 0 m n) 0 (write j (.literal v type :: o)).toList =
      '{' :: ((Bindings.nameOf (m + j + 1)).toList ++ renameFrom (shifts 0 m n) 0
        (':' :: (type.toList ++ ['}']) ++ (write (j + 1) o).toList)) := by
  have hat := renamingAt_shifts (k := 0) (m := m) hj
    (type.toList ++ ['}'] ++ (write (j + 1) o).toList)
  rw [Nat.zero_add] at hat
  rw [toList_write_literal, List.cons_append, renameFrom_reference hat, renameFrom_cons (by simp)]

/-- Where only the literals are referred to, the text is renamed to the outline behind other
parameters. -/
theorem renameFrom_write_of_references {o : Outline} {m j n : Nat}
    (hn : j + o.literals.length ≤ n)
    (h : referencesIn (firstNames n) (o.write j).toList = o.literals.length) :
    renameFrom (shifts 0 m n) 0 (o.write j).toList = (o.write (m + j)).toList := by
  have hnames : (shifts 0 m n).map Prod.fst = firstNames n := map_fst_shifts ..
  induction o generalizing j with
  | nil => rfl
  | cons t o ih =>
    cases t with
    | text s =>
      simp only [literals] at hn h
      have hle := referencesIn_le_append (firstNames n) s.toList (write j o).toList
      have hge := length_literals_le hn
      rw [write, String.toList_append] at h
      rw [write, write, String.toList_append, String.toList_append, renameFrom_append, ih hn]
      · omega
      · rw [hnames]
        omega
    | literal v type =>
      simp only [literals, List.length_cons] at hn h
      have hge := length_literals_le (o := o) (j := j + 1) (n := n) (by omega)
      have hbehind := referencesIn_le_append (firstNames n) (':' :: (type.toList ++ ['}']))
        (write (j + 1) o).toList
      rw [referencesIn_literal (by omega)] at h
      rw [renameFrom_literal (by omega), renameFrom_append (by rw [hnames]; omega),
        ih (by omega) (by omega), toList_write_literal, show m + (j + 1) = m + j + 1 by omega]

theorem mem_shifts {k m n : Nat} {names : String × String} (h : names ∈ shifts k m n) :
    ∃ i, names = (Bindings.nameOf (k + i + 1), Bindings.nameOf (m + i + 1)) := by
  induction n generalizing k m with
  | zero => cases h
  | succ n ih =>
    rcases List.mem_cons.mp h with rfl | h
    · exact ⟨0, rfl⟩
    · obtain ⟨i, rfl⟩ := ih h
      exact ⟨i + 1, by rw [show k + (i + 1) = k + 1 + i by omega,
        show m + (i + 1) = m + 1 + i by omega]⟩

/-- An outline reads the same until its first literal, whatever the numbers are. -/
theorem agreeToBrace_write (o : Outline) (j j' : Nat) :
    AgreeToBrace (o.write j).toList (o.write j').toList := by
  induction o generalizing j j' with
  | nil => exact fun _ _ h ↦ h
  | cons t o ih =>
    cases t with
    | text s =>
      rw [write, write, String.toList_append, String.toList_append]
      exact (ih j j').append s.toList
    | literal v type =>
      intro w hw hprefix
      rw [toList_write_literal] at hprefix
      cases w with
      | nil => exact List.nil_prefix
      | cons c w =>
        obtain ⟨rfl, -⟩ := List.cons_prefix_cons.mp hprefix
        exact absurd List.mem_cons_self hw

/-- Where the text is renamed to the outline behind other parameters, only the literals are referred
to. -/
theorem references_of_renameFrom_write {o : Outline} {m j n : Nat} (hm : 0 < m)
    (hn : j + o.literals.length ≤ n)
    (h : renameFrom (shifts 0 m n) 0 (o.write j).toList = (o.write (m + j)).toList) :
    referencesIn (firstNames n) (o.write j).toList = o.literals.length := by
  have hfirst : (shifts 0 m n).map Prod.fst = firstNames n := map_fst_shifts ..
  have hnames : ∀ e ∈ shifts 0 m n,
      e.2 ≠ e.1 ∧ '{' ∉ e.1.toList ∧ ':' ∉ e.1.toList ∧ ':' ∉ e.2.toList := by
    intro names hmem
    obtain ⟨i, rfl⟩ := mem_shifts hmem
    refine ⟨fun heq ↦ ?_, notMem_nameOf (by decide) _, colon_notMem_nameOf _, colon_notMem_nameOf _⟩
    have := Bindings.nameOf_injective heq
    omega
  induction o generalizing j with
  | nil => rfl
  | cons t o ih =>
    have hagree := agreeToBrace_write o
    cases t with
    | text s =>
      rw [write, write, String.toList_append, String.toList_append] at h
      obtain ⟨hrefs, hrest⟩ := referencesIn_of_renameFrom hnames (hagree _ _) h
      rw [hfirst] at hrefs
      rw [write, String.toList_append, hrefs, ih hn hrest]
      rfl
    | literal v type =>
      simp only [literals, List.length_cons] at hn ⊢
      rw [renameFrom_literal (by omega), toList_write_literal] at h
      have htail := List.append_cancel_left (List.cons.inj h).2
      obtain ⟨hrefs, hrest⟩ := referencesIn_of_renameFrom hnames (hagree _ _) htail
      rw [hfirst] at hrefs
      rw [referencesIn_literal (by omega), hrefs, ih (by omega) hrest, Nat.add_comm]

/-- A statement written from the first number and bound again after others is its outline written
after them exactly when nothing was bound before, or when only the placeholders refer to its
parameters. -/
theorem rename_write_iff {o : Outline} {vs : List Value} (hvs : vs.length = o.literals.length)
    (b : Bindings) :
    Statement.rename (Statement.rebind (Bindings.numbered 0 vs) b).1 (o.write 0) =
        o.write b.count ↔
      b.count = 0 ∨ referencesIn (firstNames vs.length) (o.write 0).toList = vs.length := by
  have hchars : Statement.rename (Statement.rebind (Bindings.numbered 0 vs) b).1 (o.write 0) =
        o.write b.count ↔
      renameFrom (shifts 0 b.count vs.length) 0 (o.write 0).toList =
        (o.write (b.count + 0)).toList := by
    rw [← String.toList_inj, Statement.rename, String.toList_ofList, fst_rebind, Nat.add_zero]
  rw [hchars, hvs]
  constructor
  · intro h
    rcases Nat.eq_zero_or_pos b.count with hzero | hpos
    · exact .inl hzero
    · exact .inr (references_of_renameFrom_write hpos (by omega) h)
  · rintro (hzero | h)
    · rw [hzero, renameFrom_self]
      intro names hmem
      obtain ⟨i, rfl⟩ := mem_shifts hmem
      rfl
    · exact renameFrom_write_of_references (by omega) h

end Outline

end Columnar
