import Columnar.Proofs.Logic.Reading
import Columnar.Proofs.Writable

/-!
# The meaning of combined conditions

A tree of conditions that are negated and combined is written so that it is read back with its
meaning: what is missing, null or false, is left out wherever it stands, and the text of the rest is
a formula with the truth value of the tree under every assignment (`render_reads`). One lemma for
each operator says what it writes, and the theorem is the induction over the tree.
-/

namespace Columnar

/-- Operands combined with a connective. -/
def Connective.combine : Connective → List Operand → Operand
  | and => Operand.all
  | or => Operand.any

/-- The truth value of a combination, which has none without operands. -/
def Connective.truth? : Connective → List Bool → Option Bool
  | _, [] => none
  | and, values => some (values.all id)
  | or, values => some (values.any id)

theorem Connective.combine_eq (k : Connective) (operands : List Operand) :
    k.combine operands = Operand.combine k.keyword operands := by
  cases k <;> rfl

/-- Operands that are joined one after another. -/
theorem Connective.truth?_cons (k : Connective) (value : Bool) (values : List Bool) :
    k.truth? (value :: values) = some (values.foldl k.apply value) := by
  induction values generalizing value with
  | nil => cases k <;> simp [truth?]
  | cons next values ih =>
    rw [List.foldl_cons, ← ih]
    cases k <;> simp [truth?, apply, Bool.and_assoc, Bool.or_assoc]

/-- Conditions: an operand that is given, a negation, or any number of conditions combined. -/
inductive Condition where
  | given (o : Operand)
  | not (c : Condition)
  | join (k : Connective) (cs : List Condition)

/-- As many texts are written as there are items. -/
theorem Render.length_of_done_mapM {α β : Type} {f : α → Render β} {items : List α}
    {b b' : Bindings} {written : List β} (h : (items.mapM f).Done b written b') :
    written.length = items.length := by
  induction items generalizing b written with
  | nil =>
    obtain ⟨rfl, -⟩ := Render.done_pure.mp h
    rfl
  | cons item items ih =>
    rw [List.mapM_cons] at h
    obtain ⟨first, b₁, hfirst, h⟩ := Render.done_bind.mp h
    obtain ⟨others, b₂, hothers, hend⟩ := Render.done_bind.mp h
    obtain ⟨rfl, rfl⟩ := Render.done_pure.mp hend
    rw [List.length_cons, List.length_cons, ih hothers]

namespace Condition

section Fold

variable {α : Type} (given : Operand → α) (not : α → α) (join : Connective → List α → α)

mutual

/-- What is made of a condition from what is made of its parts. -/
def fold : Condition → α
  | .given o => given o
  | .not c => not (fold c)
  | .join k cs => join k (foldAll cs)

/-- What is made of each of some conditions. -/
def foldAll : List Condition → List α
  | [] => []
  | c :: cs => fold c :: foldAll cs

end

theorem foldAll_eq (cs : List Condition) :
    foldAll given not join cs = cs.map (fold given not join) := by
  induction cs with
  | nil => rfl
  | cons c cs ih => rw [foldAll, ih, List.map_cons]

end Fold

/-- The operand that stands for a condition. -/
def operand : Condition → Operand := fold id (fun o ↦ .expression (Expr.not o)) Connective.combine

/-- Whether nothing is given, whatever is combined. -/
def isMissing : Condition → Bool :=
  fold Operand.isDropped (fun _ ↦ false) fun _ missing ↦ missing.all id

/-- The operands that are given and not missing, from left to right. -/
def atoms : Condition → List Operand :=
  fold (fun o ↦ if o.isDropped then [] else [o]) id fun _ parts ↦ parts.flatten

/-- The truth value of a condition without what is missing, given those of its atoms. There is none
when all is missing. -/
def holds (v : Operand → Bool) : Condition → Option Bool :=
  fold (fun o ↦ if o.isDropped then none else some (v o)) (Option.map (!·))
    fun k values ↦ k.truth? (values.filterMap id)

@[simp] theorem operand_given (o : Operand) : (given o).operand = o := rfl

@[simp] theorem operand_not (c : Condition) :
    (not c).operand = .expression (Expr.not c.operand) := rfl

@[simp] theorem operand_join (k : Connective) (cs : List Condition) :
    (join k cs).operand = k.combine (cs.map operand) := by
  rw [operand, fold, foldAll_eq]

@[simp] theorem isMissing_given (o : Operand) : (given o).isMissing = o.isDropped := rfl

@[simp] theorem isMissing_not (c : Condition) : (not c).isMissing = false := rfl

@[simp] theorem isMissing_join (k : Connective) (cs : List Condition) :
    (join k cs).isMissing = cs.all isMissing := by
  simp [isMissing, fold, foldAll_eq]

@[simp] theorem atoms_given (o : Operand) :
    (given o).atoms = if o.isDropped then [] else [o] := rfl

@[simp] theorem atoms_not (c : Condition) : (not c).atoms = c.atoms := rfl

@[simp] theorem atoms_join (k : Connective) (cs : List Condition) :
    (join k cs).atoms = cs.flatMap atoms := by
  rw [atoms, fold, foldAll_eq, List.flatMap]

variable {v : Operand → Bool}

@[simp] theorem holds_given (o : Operand) :
    (given o).holds v = if o.isDropped then none else some (v o) := rfl

@[simp] theorem holds_not (c : Condition) : (not c).holds v = (c.holds v).map (!·) := rfl

@[simp] theorem holds_join (k : Connective) (cs : List Condition) :
    (join k cs).holds v = k.truth? (cs.filterMap (holds v)) := by
  rw [holds, fold, foldAll_eq, List.filterMap_map]
  rfl

/-- Nothing missing is negated. -/
inductive NegatesPresent : Condition → Prop
  | given (o : Operand) : NegatesPresent (given o)
  | not {c : Condition} (hc : NegatesPresent c) (hpresent : c.isMissing = false) :
      NegatesPresent (not c)
  | join (k : Connective) {cs : List Condition} (hcs : ∀ c ∈ cs, NegatesPresent c) :
      NegatesPresent (join k cs)

/-! ### What is missing -/

/-- A combination of what is missing is null. -/
theorem operand_join_of_isMissing {k : Connective} {cs : List Condition}
    (h : ∀ c ∈ cs, c.operand.isDropped = true) : (join k cs).operand = .value .null := by
  have hnone : (cs.map operand).filter (fun o ↦ !o.isDropped) = [] := by
    simpa using h
  rw [operand_join, Connective.combine_eq, Operand.combine, hnone]

/-- A condition is left out when it is missing, and only then. -/
theorem isDropped_operand {c : Condition} (hc : c.NegatesPresent) :
    c.operand.isDropped = c.isMissing := by
  induction hc with
  | given o => rfl
  | not hc hpresent ih => rfl
  | @join k cs hcs ih =>
    by_cases hall : ∀ c ∈ cs, c.isMissing = true
    · have hnull := operand_join_of_isMissing (k := k) fun c hc ↦ (ih c hc).trans (hall c hc)
      have hmissing : (Condition.join k cs).isMissing = true := by simpa using hall
      rw [hnull, hmissing]
      rfl
    · have hmissing : (Condition.join k cs).isMissing = false := by simpa using hall
      rw [hmissing, operand_join, Connective.combine_eq, Operand.combine]
      split
      · next hkept =>
        have hdropped : ∀ c ∈ cs, c.operand.isDropped = true := by simpa using hkept
        exact absurd (fun c hc ↦ (ih c hc).symm.trans (hdropped c hc)) hall
      · next o hkept =>
        have ho : o ∈ (cs.map operand).filter fun o ↦ !o.isDropped := by
          rw [hkept]
          exact List.mem_singleton_self o
        simpa using (List.mem_filter.mp ho).2
      · rfl

/-- What is missing has no atoms and no truth value. -/
theorem atoms_of_isMissing {c : Condition} (hc : c.NegatesPresent) (hmissing : c.isMissing = true) :
    c.atoms = [] ∧ c.holds v = none := by
  induction hc with
  | given o =>
    have ho : o.isDropped = true := hmissing
    simp [ho]
  | not hc hpresent ih => cases hmissing
  | @join k cs hcs ih =>
    have hall : ∀ c ∈ cs, c.isMissing = true := by simpa using hmissing
    have hnone : cs.filterMap (holds v) = [] :=
      List.filterMap_eq_nil_iff.mpr fun c hc ↦ (ih c hc (hall c hc)).2
    refine ⟨?_, ?_⟩
    · simpa using fun c hc ↦ (ih c hc (hall c hc)).1
    · rw [holds_join, hnone]
      rfl

/-! ### What is written -/

/-- The atom that a text is read as. -/
def leaf (atom : Operand × String) : String := Text.trim atom.2

/-- An operand that is written as a text which is read as a formula; each atom of the formula goes
with the text that it is written as. -/
def WrittenAs (scope : Scope) (b : Bindings) (o : Operand) (f : Formula (Operand × String))
    (b' : Bindings) : Prop :=
  ∃ sql, (o.render scope).Done b sql b' ∧ Formula.ReadsAs sql.toList (f.map leaf)

/-- Operands that are written one after another. -/
inductive AllWrittenAs (scope : Scope) :
    Bindings → List Operand → List (Formula (Operand × String)) → Bindings → Prop
  | nil (b : Bindings) : AllWrittenAs scope b [] [] b
  | cons {b b₁ b' : Bindings} {o : Operand} {os : List Operand} {f : Formula (Operand × String)}
      {fs : List (Formula (Operand × String))} (ho : WrittenAs scope b o f b₁)
      (hos : AllWrittenAs scope b₁ os fs b') : AllWrittenAs scope b (o :: os) (f :: fs) b'

end Condition

/-- An operand that can stand for itself is written the same between pieces of text. -/
theorem Operand.writtenAs_of_render {scope : Scope} {o : Operand} {b b' : Bindings} {sql : String}
    (h : (o.render scope).Done b sql b') (last : Option Column) :
    o.slot.WrittenAs scope last b sql b' := by
  cases o with
  | column c => exact Render.done_pure.mp h
  | expression e => exact h
  | _ => exact absurd h Render.not_done_throw

namespace Condition

variable {scope : Scope} {b b' : Bindings} {o : Operand} {f : Formula (Operand × String)}

/-- The text of a negation. -/
theorem WrittenAs.not (h : WrittenAs scope b o f b') :
    WrittenAs scope b (.expression (Expr.not o)) (.not f) b' := by
  have ⟨sql, hsql, hreads⟩ := h
  refine ⟨"NOT (" ++ sql ++ ")", ?_, ?_⟩
  · show ((Body.cons "NOT (" o.slot (.done ")")).render scope "" 0 none).Done b _ b'
    apply Body.done_render_cons.mpr
    refine ⟨sql, b', Operand.writtenAs_of_render hsql none, Render.done_pure.mpr ⟨?_, rfl⟩⟩
    rw [String.empty_append]
  · have htext : ("NOT (" ++ sql ++ ")").toList = "NOT ".toList ++ Formula.grouped sql.toList := by
      simp [Formula.grouped]
    rw [htext]
    exact hreads.negation

/-- The text of operands with a connective between them. -/
theorem exists_done_render_separated {k : Connective} {os : List Operand}
    {fs : List (Formula (Operand × String))} (h : AllWrittenAs scope b (o :: os) (f :: fs) b')
    (soFar head : String) (position : Nat) (last : Option Column) :
    ∃ (sql : String) (cs : List Char) (others : List (List Char × Formula String)),
      ((Body.weave head ((separated (") " ++ k.keyword ++ " (") ")" (o :: os)).map
        fun p ↦ (p.1.slot, p.2))).render scope soFar position last).Done b sql b' ∧
      sql.toList = soFar.toList ++ head.toList ++ cs ++ ')' ::
        others.flatMap (fun other ↦ Formula.clause k other.1) ∧
      Formula.ReadsAs cs (f.map leaf) ∧
      others.map Prod.snd = fs.map (Formula.map leaf) ∧
      ∀ other ∈ others, Formula.ReadsAs other.1 other.2 := by
  induction os generalizing b o f fs soFar head position last with
  | nil =>
    cases h with
    | cons ho hos =>
      cases hos
      have ⟨sql, hsql, hreads⟩ := ho
      refine ⟨soFar ++ head ++ sql ++ ")", sql.toList, [], ?_, by simp, hreads, rfl, nofun⟩
      apply Body.done_render_cons.mpr
      exact ⟨sql, _, Operand.writtenAs_of_render hsql last, Render.done_pure.mpr ⟨rfl, rfl⟩⟩
  | cons next os ih =>
    cases h with
    | cons ho hos =>
      cases hos with
      | @cons b₁ b₂ _ _ _ g fs hnext hos =>
        have ⟨sql, hsql, hreads⟩ := ho
        have ⟨whole, cs, others, hwhole, htext, hcs, hfs, hothers⟩ :=
          ih (.cons hnext hos) (soFar ++ head ++ sql) (") " ++ k.keyword ++ " (") (position + 1)
            o.slot.column?
        refine ⟨whole, sql.toList, (cs, g.map leaf) :: others, ?_, ?_, hreads, ?_, ?_⟩
        · exact Body.done_render_cons.mpr
            ⟨sql, _, Operand.writtenAs_of_render hsql last, hwhole⟩
        · rw [htext]
          simp [Formula.clause, Formula.grouped]
        · rw [List.map_cons, hfs, List.map_cons]
        · exact List.forall_mem_cons.mpr ⟨hcs, hothers⟩

/-- The text of a combination of operands of which none is left out. -/
theorem AllWrittenAs.combine {k : Connective} {os : List Operand}
    {fs : List (Formula (Operand × String))} (h : AllWrittenAs scope b (o :: os) (f :: fs) b')
    {operands : List Operand} (hkept : operands.filter (fun o ↦ !o.isDropped) = o :: os) :
    WrittenAs scope b (k.combine operands) (Formula.joinAll k f fs) b' := by
  rw [Connective.combine_eq, Operand.combine, hkept]
  cases os with
  | nil =>
    cases h with
    | cons ho hos =>
      cases hos
      exact ho
  | cons next os =>
    have ⟨sql, cs, others, hsql, htext, hcs, hfs, hothers⟩ :=
      exists_done_render_separated (k := k) h "" "(" 0 none
    refine ⟨sql, hsql, ?_⟩
    have hgrouped : sql.toList = Formula.grouped cs ++
        others.flatMap fun other ↦ Formula.clause k other.1 := by
      rw [htext]
      simp [Formula.grouped]
    rw [hgrouped, Formula.map_joinAll, ← hfs]
    exact hcs.joined hothers

/-! ### What is read -/

/-- A condition that is written as a text which is read as a formula with its atoms and its
meaning; `texts` are what its atoms are written as. -/
structure ReadBack (scope : Scope) (b : Bindings) (c : Condition) (texts : List String)
    (f : Formula (Operand × String)) (b' : Bindings) : Prop where
  written : WrittenAs scope b c.operand f b'
  atoms : f.atoms = c.atoms.zip texts
  holds : ∀ v, c.holds v = some (f.holds (v ∘ Prod.fst))

/-- The operand that is kept of a list of conditions. -/
private def kept (cs : List Condition) : List Operand :=
  (cs.map operand).filter fun o ↦ !o.isDropped

/-- Conditions that are read back one by one are written in turn as far as they are kept. -/
private theorem exists_allWrittenAs {cs : List Condition} (hcs : ∀ c ∈ cs, c.NegatesPresent)
    (hread : ∀ c ∈ cs, ∀ {b b' : Bindings} {texts : List String},
      (c.atoms.mapM (Operand.render scope)).Done b texts b' →
      (∀ t ∈ texts, Formula.IsAtomic t.toList) → c.isMissing = false →
      ∃ f, ReadBack scope b c texts f b')
    {texts : List String}
    (hrender : ((cs.flatMap atoms).mapM (Operand.render scope)).Done b texts b')
    (htexts : ∀ t ∈ texts, Formula.IsAtomic t.toList) :
    ∃ fs, AllWrittenAs scope b (kept cs) fs b' ∧
      fs.flatMap Formula.atoms = (cs.flatMap atoms).zip texts ∧
      ∀ v, cs.filterMap (Condition.holds v) = fs.map (Formula.holds (v ∘ Prod.fst)) := by
  induction cs generalizing b texts with
  | nil =>
    obtain ⟨rfl, rfl⟩ := Render.done_pure.mp hrender
    exact ⟨[], .nil _, rfl, fun _ ↦ rfl⟩
  | cons c cs ih =>
    have hc := hcs c List.mem_cons_self
    rw [List.flatMap_cons, List.mapM_append] at hrender
    obtain ⟨own, b₁, hown, hrender⟩ := Render.done_bind.mp hrender
    obtain ⟨others, b₂, hothers, hend⟩ := Render.done_bind.mp hrender
    obtain ⟨rfl, rfl⟩ := Render.done_pure.mp hend
    have ⟨fs, hfs, hatoms, hholds⟩ := ih (fun c hc ↦ hcs c (List.mem_cons_of_mem _ hc))
      (fun c hc ↦ hread c (List.mem_cons_of_mem _ hc)) hothers
      fun t ht ↦ htexts t (List.mem_append_right _ ht)
    by_cases hmissing : c.isMissing = true
    · have hnone := (atoms_of_isMissing (v := fun _ ↦ true) hc hmissing).1
      rw [hnone] at hown
      obtain ⟨rfl, rfl⟩ := Render.done_pure.mp hown
      have hkept : kept (c :: cs) = kept cs := by
        simp [kept, isDropped_operand hc, hmissing]
      refine ⟨fs, hkept ▸ hfs, by simpa [hnone] using hatoms, fun v ↦ ?_⟩
      rw [List.filterMap_cons_none (atoms_of_isMissing hc hmissing).2, hholds]
    · have hpresent : c.isMissing = false := by simpa using hmissing
      have ⟨f, hf⟩ := hread c List.mem_cons_self hown
        (fun t ht ↦ htexts t (List.mem_append_left _ ht)) hpresent
      have hkept : kept (c :: cs) = c.operand :: kept cs := by
        simp [kept, isDropped_operand hc, hpresent]
      refine ⟨f :: fs, hkept ▸ .cons hf.written hfs, ?_, fun v ↦ ?_⟩
      · rw [List.flatMap_cons, List.flatMap_cons, hf.atoms, hatoms,
          List.zip_append (Render.length_of_done_mapM hown).symm]
      · rw [List.filterMap_cons_some (hf.holds v), hholds, List.map_cons]

/-- Each condition with an operand that is not missing is read back. -/
theorem exists_readBack {c : Condition} (hc : c.NegatesPresent) {texts : List String}
    (hrender : (c.atoms.mapM (Operand.render scope)).Done b texts b')
    (htexts : ∀ t ∈ texts, Formula.IsAtomic t.toList) (hpresent : c.isMissing = false) :
    ∃ f, ReadBack scope b c texts f b' := by
  induction hc generalizing b b' texts with
  | given o =>
    have ho : o.isDropped = false := hpresent
    have hatoms : (given o).atoms = [o] := by simp [ho]
    rw [hatoms, List.mapM_cons] at hrender
    obtain ⟨sql, b₁, hsql, hend⟩ := Render.done_bind.mp hrender
    obtain ⟨rfl, rfl⟩ := Render.done_pure.mp hend
    refine ⟨.atom (o, sql), ⟨sql, hsql, ?_⟩, by simp [ho, Formula.atoms], fun v ↦ ?_⟩
    · exact Formula.readsAs_atom (htexts sql List.mem_cons_self)
    · simp [ho, Formula.holds]
  | @not c hc hpresent' ih =>
    obtain ⟨f, hf⟩ := ih hrender htexts hpresent'
    refine ⟨.not f, hf.written.not, hf.atoms, fun v ↦ ?_⟩
    rw [holds_not, hf.holds v]
    rfl
  | @join k cs hcs ih =>
    rw [atoms_join] at hrender
    obtain ⟨fs, hfs, hatoms, hholds⟩ := exists_allWrittenAs hcs ih hrender htexts
    have hsome : kept cs ≠ [] := by
      obtain ⟨c, hc, hc'⟩ : ∃ c ∈ cs, c.isMissing = false := by simpa using hpresent
      intro hnone
      have hdropped : ∀ c ∈ cs, c.operand.isDropped = true := by simpa [kept] using hnone
      rw [← isDropped_operand (hcs c hc), hdropped c hc] at hc'
      cases hc'
    generalize hkept : kept cs = operands at hfs hsome
    cases hfs with
    | nil => exact absurd rfl hsome
    | @cons _ _ _ o os f fs ho hos =>
      refine ⟨Formula.joinAll k f fs, ?_, ?_, fun v ↦ ?_⟩
      · rw [operand_join]
        exact (AllWrittenAs.cons ho hos).combine hkept
      · rw [Formula.atoms_joinAll, atoms_join, ← hatoms, List.flatMap_cons]
      · rw [holds_join, hholds, List.map_cons, Connective.truth?_cons, Formula.holds_joinAll]

/-- A tree of conditions in which nothing missing is negated, whose atoms are written as text
without parentheses and keywords. When all is missing, a combination is null. Otherwise the tree is
written as a text which is read as a formula with the atoms of the tree, each under its text, and
with the truth value of the tree without what is missing, whatever the truth values of the atoms. -/
theorem render_reads {c : Condition} (hc : c.NegatesPresent) {scope : Scope} {b b' : Bindings}
    {texts : List String} (hrender : (c.atoms.mapM (Operand.render scope)).Done b texts b')
    (htexts : ∀ t ∈ texts, Formula.IsAtomic t.toList) :
    (c.isMissing = true → ∀ k cs, c = join k cs → c.operand = .value .null) ∧
      (c.isMissing = false → ∃ (sql : String) (f : Formula (Operand × String)),
        (c.operand.render scope).Done b sql b' ∧ Formula.read sql = some (f.map leaf) ∧
          f.atoms = c.atoms.zip texts ∧ ∀ v, c.holds v = some (f.holds (v ∘ Prod.fst))) := by
  constructor
  · rintro hmissing k cs rfl
    cases hc with
    | join _ hcs =>
      have hall : ∀ c ∈ cs, c.isMissing = true := by simpa using hmissing
      exact operand_join_of_isMissing fun c hc ↦ (isDropped_operand (hcs c hc)).trans (hall c hc)
  · intro hpresent
    have ⟨f, hf⟩ := exists_readBack hc hrender htexts hpresent
    have ⟨sql, hsql, hreads⟩ := hf.written
    exact ⟨sql, f, hsql, Formula.read_of_readsAs hreads, hf.atoms, hf.holds⟩

/-- A negated conjunction or a single condition, with missing operands in between. -/
def sample : Condition :=
  .join .or [.given (.value .null),
    .not (.join .and [.given (.expression (Expr.ofText "a = 1")), .given (.value (.bool false)),
      .given (.expression (Expr.ofText "b = 2"))]),
    .join .and [.given (.value .null), .given (.expression (Expr.ofText "c = 3"))]]

example : (sample.operand.render {}).outcome {} =
    (.ok "(NOT ((a = 1) AND (b = 2))) OR (c = 3)", {}) := by
  rfl

/-- The sample is read back. -/
theorem sample_reads : ∃ (sql : String) (f : Formula (Operand × String)),
    (sample.operand.render {}).Done {} sql {} ∧ Formula.read sql = some (f.map leaf) ∧
      f.atoms = sample.atoms.zip ["a = 1", "b = 2", "c = 3"] ∧
      ∀ v, sample.holds v = some (f.holds (v ∘ Prod.fst)) := by
  have hnegates : sample.NegatesPresent := by
    refine .join _ ?_
    simp only [List.forall_mem_cons]
    refine ⟨.given _, .not (.join _ ?_) rfl, .join _ ?_, nofun⟩
    · simp [NegatesPresent.given]
    · simp [NegatesPresent.given]
  have hatomic : ∀ t ∈ ["a = 1", "b = 2", "c = 3"], Formula.IsAtomic t.toList := by
    simp only [List.forall_mem_cons]
    refine ⟨?_, ?_, ?_, nofun⟩
    all_goals exact Formula.isAtomic_of_not_infix (by decide) (by decide) (by decide)
  have hrender : (sample.atoms.mapM (Operand.render {})).Done {} ["a = 1", "b = 2", "c = 3"] {} :=
    rfl
  exact (render_reads hnegates hrender hatomic).2 rfl

end Condition

end Columnar
