import Columnar.Proofs.Placeholders.Outline

/-!
# What outlines carry

An outline holds a text when one of its own texts does (`Outline.Holds`), and it has what a part of
it is (`Outline.Has`). `Writing.Carries` says that what is written is an outline, and of each of
some requirements that a part of this outline meets it; there is one lemma for each way to compose
writings.
-/

namespace Columnar

open Outline (AllWritten)

/-- The first text stands in the second one as it is. -/
def Text.Within (x t : String) : Prop := x.toList <:+: t.toList

instance (x t : String) : Decidable (Text.Within x t) :=
  inferInstanceAs (Decidable (x.toList <:+: t.toList))

private theorem infix_intercalate {α : Type} {x separator : List α} {xs : List (List α)}
    (hx : x ∈ xs) : x <:+: separator.intercalate xs := by
  induction xs with
  | nil => cases hx
  | cons y ys ih =>
    cases ys with
    | nil =>
      obtain rfl := List.mem_singleton.mp hx
      simp
    | cons z zs =>
      rw [List.intercalate_cons_cons, List.append_assoc]
      rcases List.mem_cons.mp hx with rfl | hx
      · exact (List.prefix_append _ _).isInfix
      · exact (ih hx).trans ((List.suffix_append _ _).trans (List.suffix_append _ _)).isInfix

namespace Text

theorem Within.refl (x : String) : Within x x := List.infix_rfl

theorem Within.trans {x y z : String} (h : Within x y) (h' : Within y z) : Within x z :=
  List.IsInfix.trans h h'

theorem within_append (before x after : String) : Within x (before ++ x ++ after) :=
  ⟨before.toList, after.toList, by simp⟩

/-- What stands in one of several texts stands in their row. -/
theorem within_row {α : Type} {x : String} {write : α → String} {items : List α} {i : α}
    (hi : i ∈ items) (hx : Within x (write i)) (head separator : String) :
    Within x (head ++ separator.intercalate (items.map write)) := by
  refine hx.trans (.trans ?_ (y := separator.intercalate (items.map write)) ?_)
  · rw [Within, String.toList_intercalate]
    exact infix_intercalate (List.mem_map_of_mem (List.mem_map_of_mem hi))
  · simpa using within_append head (separator.intercalate (items.map write)) ""

end Text

namespace Outline

variable {o o' : Outline} {x : String} {R : Outline → Prop}

/-- One of the outline's own texts holds the text. -/
def Holds (x : String) (o : Outline) : Prop := ∃ t, Token.text t ∈ o ∧ Text.Within x t

/-- A part of the outline meets the requirement. -/
def Has (o : Outline) (R : Outline → Prop) : Prop := ∃ part, part <:+: o ∧ R part

theorem Has.of (h : R o) : o.Has R := ⟨o, List.infix_rfl, h⟩

theorem Has.mono (h : o.Has R) (ho : o <:+: o') : o'.Has R := by
  obtain ⟨part, hpart, hR⟩ := h
  exact ⟨part, hpart.trans ho, hR⟩

theorem holds_text {t : String} (h : Text.Within x t) : Holds x [.text t] :=
  ⟨t, List.mem_singleton_self _, h⟩

theorem Has.holds (h : o.Has (Holds x)) : o.Holds x := by
  obtain ⟨part, hpart, t, ht, hx⟩ := h
  exact ⟨t, hpart.subset ht, hx⟩

/-- What is held stands in what is written, whatever the numbers are. -/
theorem Holds.within (h : o.Holds x) (n : Nat) : Text.Within x (o.write n) := by
  obtain ⟨t, ht, hx⟩ := h
  obtain ⟨before, after, rfl⟩ := List.append_of_mem ht
  rw [write_append, write, ← String.append_assoc]
  exact hx.trans (Text.within_append _ _ _)

theorem infix_spaced (separator : String) {os : List Outline} (ho : o ∈ os) :
    o <:+: spaced separator os := infix_intercalate ho

/-- An outline of which nothing is written binds nothing. -/
theorem written_empty (h : o.isWritten = false) (b : Bindings) : o.Written b "" b := by
  have hliterals : o.literals = [] := by
    have hfilter := literals_filter [o]
    rw [List.filter_cons_of_neg (by simp [h])] at hfilter
    simpa using hfilter.symm
  rw [isWritten_eq o b.count, decide_eq_false_iff_not, not_not] at h
  refine ⟨h.symm, [], ?_, by simp⟩
  rw [serials, hliterals]
  rfl

/-- The outline of what is left of texts without the empty ones has all of their outlines: those of
which nothing is written may stand at its end. -/
theorem AllWritten.written {os : List Outline} {b b' : Bindings} {sqls : List String}
    (h : AllWritten os b sqls b') (separator : String) :
    ∃ o : Outline, (∀ part ∈ os, part <:+: o) ∧
      o.Written b (separator.intercalate (sqls.filter (· ≠ ""))) b' := by
  have hrest : ∀ rest : List Outline, (∀ part ∈ rest, part.isWritten = false) →
      Written rest.flatten b' "" b' := by
    intro rest hempty
    induction rest with
    | nil => exact written_nil b'
    | cons part rest ih =>
      obtain ⟨hpart, hempty⟩ := List.forall_mem_cons.mp hempty
      exact (written_empty hpart b').append (ih hempty)
  have hall := (h.filter.spaced separator).append
    (hrest (os.filter fun part ↦ !part.isWritten) fun part hpart ↦ by
      simpa using List.of_mem_filter hpart)
  rw [String.append_empty] at hall
  refine ⟨_, fun part hpart ↦ ?_, hall⟩
  rcases hwritten : part.isWritten with _ | _
  · have hpart : part ∈ os.filter fun part ↦ !part.isWritten := by simp [hpart, hwritten]
    exact (List.infix_of_mem_flatten hpart).trans (List.suffix_append _ _).isInfix
  · exact (infix_spaced _ (List.mem_filter.mpr ⟨hpart, hwritten⟩)).trans
      (List.prefix_append _ _).isInfix

end Outline

namespace Writing

variable {α β ι σ : Type} {x : Writing α} {text : α → String} {Rs : List (Outline → Prop)}

/-- What is written is an outline, and each requirement is met by a part of it. `text` is the SQL in
an answer. -/
def Carries (x : Writing α) (text : α → String) (Rs : List (Outline → Prop)) : Prop :=
  ∀ ⦃b b' : Bindings⦄ ⦃a : α⦄, x.Done b a b' →
    ∃ o : Outline, o.Written b (text a) b' ∧ ∀ R ∈ Rs, o.Has R

/-- Each item that is written is an outline, and each requirement is met by a part of one of
them. -/
def AllCarry (x : Writing (List α)) (text : α → String) (Rs : List (Outline → Prop)) : Prop :=
  ∀ ⦃b b' : Bindings⦄ ⦃as : List α⦄, x.Done b as b' →
    ∃ os, AllWritten os b (as.map text) b' ∧ ∀ R ∈ Rs, ∃ o ∈ os, o.Has R

/-- Text without literals. -/
theorem carries_pure {a : α} (h : ∀ R ∈ Rs, R [.text (text a)]) : Carries (pure a) text Rs := by
  intro b b' r hx
  obtain ⟨rfl, rfl⟩ := done_pure.mp hx
  exact ⟨_, Outline.written_text _ _, fun R hR ↦ .of (h R hR)⟩

/-- A failure writes nothing. -/
theorem carries_throw {e : Failure} : Carries (throw e : Writing α) text Rs :=
  fun _ _ _ hx ↦ absurd hx not_done_throw

/-- A look-up in front writes nothing. -/
theorem Carries.look {e : Traced σ} {f : σ → Writing α}
    (h : ∀ s, e.result = .ok s → Carries (f s) text Rs) : Carries (liftM e >>= f) text Rs := by
  intro b b' a hx
  obtain ⟨s, hs, hf⟩ := done_traced_bind.mp hx
  exact h s hs hf

/-- A check in front writes nothing. -/
theorem Carries.check {e : Except Failure σ} {f : σ → Writing α}
    (h : ∀ s, e = .ok s → Carries (f s) text Rs) : Carries (liftM e >>= f) text Rs :=
  Carries.look (e := Traced.ofExcept e) h

/-- What is made of an answer carries what the answer does when its outline has the answer's. -/
theorem Carries.map {f : α → β} {text' : β → String} (h : Carries x text Rs)
    (hf : ∀ (o : Outline) b a b', o.Written b (text a) b' →
      ∃ o' : Outline, o <:+: o' ∧ o'.Written b (text' (f a)) b') :
    Carries (do return f (← x)) text' Rs := by
  intro b b' r hx
  obtain ⟨a, b₁, hd, hp⟩ := done_bind.mp hx
  obtain ⟨rfl, rfl⟩ := done_pure.mp hp
  obtain ⟨o, hw, hhas⟩ := h hd
  obtain ⟨o', hpart, hw'⟩ := hf o _ _ _ hw
  exact ⟨o', hw', fun R hR ↦ (hhas R hR).mono hpart⟩

/-- Text around what is written. -/
theorem Carries.around {f : α → β} {text' : β → String} (h : Carries x text Rs)
    (head tail : String) (hf : ∀ a, text' (f a) = head ++ text a ++ tail) :
    Carries (do return f (← x)) text' Rs := by
  refine h.map fun o b a b' hw ↦ ⟨.text head :: o ++ [.text tail], ?_, ?_⟩
  · exact ⟨[.text head], [.text tail], rfl⟩
  · rw [hf]
    exact (hw.cons head).snoc tail

/-- What is written one after the other. -/
theorem Carries.append {x y : Writing String} {Rs' : List (Outline → Prop)}
    (h : Carries x (fun s ↦ s) Rs) (h' : Carries y (fun s ↦ s) Rs') :
    Carries (do return (← x) ++ (← y)) (fun s ↦ s) (Rs ++ Rs') := by
  intro b b' sql hx
  obtain ⟨s, b₁, hd, hx⟩ := done_bind.mp hx
  obtain ⟨s', b₂, hd', hp⟩ := done_bind.mp hx
  obtain ⟨rfl, rfl⟩ := done_pure.mp hp
  obtain ⟨o, hw, hhas⟩ := h hd
  obtain ⟨o', hw', hhas'⟩ := h' hd'
  refine ⟨o ++ o', hw.append hw', fun R hR ↦ ?_⟩
  rcases List.mem_append.mp hR with hR | hR
  · exact (hhas R hR).mono (List.prefix_append _ _).isInfix
  · exact (hhas' R hR).mono (List.suffix_append _ _).isInfix

/-- Items carry in a row what they carry one by one. -/
theorem carries_mapM {f : ι → Writing α} {items : List ι} {Rs : ι → List (Outline → Prop)}
    (h : ∀ i ∈ items, Carries (f i) text (Rs i)) :
    AllCarry (items.mapM f) text (items.flatMap Rs) := by
  intro b b' as hx
  induction items generalizing b as with
  | nil =>
    obtain ⟨rfl, rfl⟩ := done_pure.mp hx
    exact ⟨[], .nil, by simp⟩
  | cons i items ih =>
    rw [List.mapM_cons] at hx
    obtain ⟨a, b₁, hi, hx⟩ := done_bind.mp hx
    obtain ⟨rest, b₂, his, hx⟩ := done_bind.mp hx
    obtain ⟨rfl, rfl⟩ := done_pure.mp hx
    obtain ⟨o, hw, hhas⟩ := h i (by simp) hi
    obtain ⟨os, hws, hhave⟩ := ih (fun j hj ↦ h j (by simp [hj])) his
    refine ⟨o :: os, .cons hw hws, fun R hR ↦ ?_⟩
    rw [List.flatMap_cons, List.mem_append] at hR
    rcases hR with hR | hR
    · exact ⟨o, List.mem_cons_self, hhas R hR⟩
    · obtain ⟨o', ho', hpart⟩ := hhave R hR
      exact ⟨o', List.mem_cons_of_mem _ ho', hpart⟩

/-- A row carries what its items do when its outline has all of theirs. -/
theorem AllCarry.map {x : Writing (List α)} {f : List α → β} {text' : β → String}
    (h : AllCarry x text Rs)
    (hf : ∀ (os : List Outline) b as b', AllWritten os b (as.map text) b' →
      ∃ o' : Outline, (∀ o ∈ os, o <:+: o') ∧ o'.Written b (text' (f as)) b') :
    Carries (do return f (← x)) text' Rs := by
  intro b b' r hx
  obtain ⟨as, b₁, hd, hp⟩ := done_bind.mp hx
  obtain ⟨rfl, rfl⟩ := done_pure.mp hp
  obtain ⟨os, hw, hhave⟩ := h hd
  obtain ⟨o', hparts, hw'⟩ := hf os _ _ _ hw
  refine ⟨o', hw', fun R hR ↦ ?_⟩
  obtain ⟨o, ho, hpart⟩ := hhave R hR
  exact hpart.mono (hparts o ho)

/-- Items with a text between each two of them and one in front. -/
theorem AllCarry.spaced {x : Writing (List α)} {f : List α → β} {text' : β → String}
    (h : AllCarry x text Rs) (head separator : String)
    (hf : ∀ as, text' (f as) = head ++ separator.intercalate (as.map text)) :
    Carries (do return f (← x)) text' Rs := by
  refine h.map fun os b as b' hw ↦ ⟨.text head :: Outline.spaced separator os, fun o ho ↦ ?_, ?_⟩
  · exact (Outline.infix_spaced separator ho).trans (List.suffix_cons _ _).isInfix
  · rw [hf]
    exact (hw.spaced separator).cons head

/-- Items with a text between each two of them and one in front, or another text instead of none. -/
theorem AllCarry.listed {x : Writing (List α)} {f : List α → β} {text' : β → String}
    (h : AllCarry x text Rs) (instead head separator : String)
    (hf : ∀ as, text' (f as) =
      if as.isEmpty then instead else head ++ separator.intercalate (as.map text)) :
    Carries (do return f (← x)) text' Rs := by
  refine h.map fun os b as b' hw ↦ ?_
  have hempty := hw.isEmpty
  rw [hf]
  split
  · next has =>
    rw [List.isEmpty_map, has] at hempty
    obtain rfl := List.isEmpty_iff.mp hempty
    obtain rfl := List.isEmpty_iff.mp has
    cases hw
    exact ⟨[.text instead], by simp, Outline.written_text _ _⟩
  · refine ⟨_, fun o ho ↦ ?_, (hw.spaced separator).cons head⟩
    exact (Outline.infix_spaced separator ho).trans (List.suffix_cons _ _).isInfix

end Writing

end Columnar
