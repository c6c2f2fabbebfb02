import Mathlib.Data.List.Chain
import Mathlib.Data.List.Infix

/-!
# Splitting rows of symbols

What was put together around a delimiter can be taken apart again when the parts do not have it:
at the first or the last delimiter (`eq_of_first`, `eq_of_last`), where the next part begins with
one (`eq_of_until`), part by part where each ends with one (`eq_of_terminated`) or stands between
two (`eq_of_bracketed`), and after a run of symbols of one sort (`eq_of_run`). Where delimiters
stand in a part, it may be known what they follow there (`Follows`), or that no other part has them
(`eq_of_joined`).
-/

namespace Columnar.Splitting

variable {α : Type} {d : α} {a a' r r' : List α}

/-- A row splits at its first delimiter in one way. -/
theorem eq_of_first (ha : d ∉ a) (ha' : d ∉ a') (h : a ++ d :: r = a' ++ d :: r') :
    a = a' ∧ r = r' := by
  induction a generalizing a' with
  | nil =>
    cases a' with
    | nil => exact ⟨rfl, (List.cons.inj h).2⟩
    | cons x xs =>
      obtain ⟨rfl, -⟩ := List.cons.inj h
      exact absurd (List.mem_cons_self ..) ha'
  | cons x xs ih =>
    cases a' with
    | nil =>
      obtain ⟨rfl, -⟩ := List.cons.inj h
      exact absurd (List.mem_cons_self ..) ha
    | cons y ys =>
      obtain ⟨rfl, htail⟩ := List.cons.inj h
      obtain ⟨rfl, hr⟩ := ih (fun hx ↦ ha (List.mem_cons_of_mem _ hx))
        (fun hy ↦ ha' (List.mem_cons_of_mem _ hy)) htail
      exact ⟨rfl, hr⟩

/-- A row splits at its last delimiter in one way. -/
theorem eq_of_last (hr : d ∉ r) (hr' : d ∉ r') (h : a ++ d :: r = a' ++ d :: r') :
    a = a' ∧ r = r' := by
  have hreverse := congrArg List.reverse h
  simp only [List.reverse_append, List.reverse_cons, List.append_assoc, List.singleton_append]
    at hreverse
  obtain ⟨hr, ha⟩ := eq_of_first (by simpa using hr) (by simpa using hr') hreverse
  exact ⟨List.reverse_injective ha, List.reverse_injective hr⟩

/-- What ends a part: there is no more, or the next one begins with the delimiter. -/
def Ends (d : α) (r : List α) : Prop := r = [] ∨ ∃ s, r = d :: s

theorem ends_cons (d : α) (r : List α) : Ends d (d :: r) := .inr ⟨r, rfl⟩

theorem ends_nil (d : α) : Ends d [] := .inl rfl

/-- A part ends where the next one begins with the delimiter. -/
theorem eq_of_until (ha : d ∉ a) (ha' : d ∉ a') (hr : Ends d r) (hr' : Ends d r')
    (h : a ++ r = a' ++ r') : a = a' ∧ r = r' := by
  rcases hr with rfl | ⟨s, rfl⟩ <;> rcases hr' with rfl | ⟨s', rfl⟩
  · rw [List.append_nil, List.append_nil] at h
    exact ⟨h, rfl⟩
  · rw [List.append_nil] at h
    exact absurd (h ▸ List.mem_append_right a' (List.mem_cons_self ..)) ha
  · rw [List.append_nil] at h
    exact absurd (h ▸ List.mem_append_right a (List.mem_cons_self ..)) ha'
  · obtain ⟨rfl, rfl⟩ := eq_of_first ha ha' h
    exact ⟨rfl, rfl⟩

/-- What stands before the end of a part stands in the part. -/
theorem mem_of_until {e : α} {b s : List α} (hr : Ends d r) (hb : d ∉ b) (hne : d ≠ e)
    (h : a ++ r = b ++ e :: s) : e ∈ a := by
  induction a generalizing b with
  | nil =>
    rcases hr with rfl | ⟨t, rfl⟩
    · cases b <;> cases h
    · cases b with
      | nil => exact absurd (List.cons.inj h).1 hne
      | cons x b =>
        obtain ⟨rfl, -⟩ := List.cons.inj h
        exact absurd List.mem_cons_self hb
  | cons x a ih =>
    cases b with
    | nil =>
      obtain ⟨rfl, -⟩ := List.cons.inj h
      exact List.mem_cons_self
    | cons y b =>
      obtain ⟨rfl, htail⟩ := List.cons.inj h
      exact List.mem_cons_of_mem _ (ih (fun hd ↦ hb (List.mem_cons_of_mem _ hd)) htail)

/-- A run of symbols of one sort ends where another sort follows. -/
theorem eq_of_run {p : α → Bool} (ha : ∀ x ∈ a, p x = true) (ha' : ∀ x ∈ a', p x = true)
    (hr : ∀ x ∈ r.head?, p x = false) (hr' : ∀ x ∈ r'.head?, p x = false)
    (h : a ++ r = a' ++ r') : a = a' ∧ r = r' := by
  have htake {b s : List α} (hb : ∀ x ∈ b, p x = true) (hs : ∀ x ∈ s.head?, p x = false) :
      (b ++ s).takeWhile p = b := by
    rw [List.takeWhile_append_of_pos hb]
    cases s with
    | nil => simp
    | cons x s => simp [hs x rfl]
  have heq : a = a' := by
    rw [← htake ha hr, h, htake ha' hr']
  subst heq
  exact ⟨rfl, List.append_cancel_left h⟩

/-- Parts that end with the delimiter can be told apart. -/
theorem eq_of_terminated {xs ys : List (List α)} (hx : ∀ x ∈ xs, d ∉ x) (hy : ∀ y ∈ ys, d ∉ y)
    (h : xs.flatMap (· ++ [d]) = ys.flatMap (· ++ [d])) : xs = ys := by
  induction xs generalizing ys with
  | nil =>
    cases ys with
    | nil => rfl
    | cons y ys => simp at h
  | cons x xs ih =>
    cases ys with
    | nil => simp at h
    | cons y ys =>
      rw [List.flatMap_cons, List.flatMap_cons, List.append_assoc, List.append_assoc] at h
      obtain ⟨rfl, hrest⟩ := eq_of_first (hx x (by simp)) (hy y (by simp)) h
      rw [ih (fun x hx' ↦ hx x (by simp [hx'])) (fun y hy' ↦ hy y (by simp [hy'])) hrest]

/-- Wherever the row stands, each delimiter in it directly follows one of some symbols. -/
def Follows (d : α) (before r : List α) : Prop :=
  ∀ x, (x :: r).IsChain fun a b ↦ b = d → a ∈ before

section Follows

variable {before : List α}

theorem follows_nil (d : α) (before : List α) : Follows d before [] :=
  fun _ ↦ List.isChain_singleton _

/-- Symbols without a delimiter may stand in front. -/
theorem Follows.append_left (hr : Follows d before r) (ha : d ∉ a) : Follows d before (a ++ r) := by
  intro x
  induction a generalizing x with
  | nil => exact hr x
  | cons y a ih =>
    rw [List.cons_append, List.isChain_cons_cons]
    refine ⟨?_, ih (fun hd ↦ ha (List.mem_cons_of_mem _ hd)) y⟩
    rintro rfl
    exact absurd List.mem_cons_self ha

/-- A delimiter may stand behind one of the symbols. -/
theorem Follows.cons (hr : Follows d before r) {c : α} (hc : c ∈ before) (hcd : c ≠ d) :
    Follows d before (c :: d :: r) := by
  intro x
  rw [List.isChain_cons_cons, List.isChain_cons_cons]
  exact ⟨fun h ↦ absurd h hcd, fun _ ↦ hc, hr d⟩

/-- No delimiter follows another symbol. -/
theorem Follows.not_behind (hr : Follows d before r) {c : α} (hc : c ∉ before) :
    ¬ [c, d] <:+: r := by
  intro hin
  have hchain := List.IsChain.infix (hr c) (hin.trans (List.suffix_cons c r).isInfix)
  exact hc ((List.isChain_cons_cons.mp hchain).1 rfl)

end Follows

section Brackets

variable {o c : α}

private theorem ends_bracketed (xs : List (List α)) :
    Ends o (xs.flatMap fun x ↦ o :: x ++ [c]) := by
  cases xs with
  | nil => exact ends_nil o
  | cons x xs => exact ends_cons o _

/-- A bracketed part is not longer than another one that begins alike. -/
private theorem eq_nil_of_bracketed (hoc : o ≠ c) {x w : List α} (hx : ¬ [c, o] <:+: x ++ w)
    (hr : Ends o r) (h : c :: r = w ++ c :: r') : w = [] := by
  cases w with
  | nil => rfl
  | cons e w =>
    obtain ⟨he, htail⟩ := List.cons.inj h
    subst he
    rcases hr with rfl | ⟨s, rfl⟩
    · cases w <;> cases htail
    · cases w with
      | nil => exact absurd (List.cons.inj htail).1 hoc
      | cons e w =>
        obtain ⟨he, -⟩ := List.cons.inj htail
        subst he
        exact absurd ⟨x, w, by simp⟩ hx

/-- Parts between brackets can be told apart when none of them has one bracket closed and another
opened at once. -/
theorem eq_of_bracketed (hoc : o ≠ c) {xs ys : List (List α)} (hx : ∀ x ∈ xs, ¬ [c, o] <:+: x)
    (hy : ∀ y ∈ ys, ¬ [c, o] <:+: y)
    (h : xs.flatMap (fun x ↦ o :: x ++ [c]) = ys.flatMap fun y ↦ o :: y ++ [c]) : xs = ys := by
  induction xs generalizing ys with
  | nil =>
    cases ys with
    | nil => rfl
    | cons y ys => simp at h
  | cons x xs ih =>
    cases ys with
    | nil => simp at h
    | cons y ys =>
      have hx' := hx x (by simp)
      have hy' := hy y (by simp)
      have hends := ends_bracketed (o := o) (c := c) xs
      have hends' := ends_bracketed (o := o) (c := c) ys
      have hsplit : x ++ c :: xs.flatMap (fun x ↦ o :: x ++ [c]) =
          y ++ c :: ys.flatMap (fun y ↦ o :: y ++ [c]) := by
        simpa using h
      have hxy : x = y := by
        rcases List.append_eq_append_iff.mp hsplit with ⟨w, rfl, hw⟩ | ⟨w, rfl, hw⟩
        · rw [eq_nil_of_bracketed hoc hy' hends hw, List.append_nil]
        · rw [eq_nil_of_bracketed hoc hx' hends' hw, List.append_nil]
      subst hxy
      have hrest := (List.cons.inj (List.append_cancel_left hsplit)).2
      rw [ih (fun x hx'' ↦ hx x (by simp [hx''])) (fun y hy'' ↦ hy y (by simp [hy''])) hrest]

end Brackets

section Joined

variable {x y : List α} {xs ys : List (List α)}

/-- Delimiters stand in front of all parts but the first one. -/
theorem intercalate_cons (d x : List α) (xs : List (List α)) :
    d.intercalate (x :: xs) = x ++ xs.flatMap (d ++ ·) := by
  induction xs generalizing x with
  | nil => simp
  | cons y ys ih =>
    rw [List.intercalate_cons_cons, ih, List.flatMap_cons, List.append_assoc, List.append_assoc]

/-- Parts behind delimiters that do not have them can be told apart, whatever stands in front. -/
private theorem eq_of_behind (hlength : xs.length = ys.length) (hx : ∀ x ∈ xs, d ∉ x)
    (hy : ∀ y ∈ ys, d ∉ y) (h : x ++ xs.flatMap (d :: ·) = y ++ ys.flatMap (d :: ·)) :
    x = y ∧ xs = ys := by
  induction xs using List.reverseRecOn generalizing ys with
  | nil =>
    obtain rfl := List.length_eq_zero_iff.mp hlength.symm
    simpa using h
  | append_singleton xs z ih =>
    rcases List.eq_nil_or_concat' ys with rfl | ⟨ys, w, rfl⟩
    · simp at hlength
    · rw [List.flatMap_append, List.flatMap_append, List.flatMap_singleton,
        List.flatMap_singleton, ← List.append_assoc, ← List.append_assoc] at h
      obtain ⟨hfront, rfl⟩ := eq_of_last (hx z (by simp)) (hy w (by simp)) h
      obtain ⟨rfl, rfl⟩ := ih (by simpa using hlength) (fun x hx' ↦ hx x (by simp [hx']))
        (fun y hy' ↦ hy y (by simp [hy'])) hfront
      exact ⟨rfl, rfl⟩

/-- As many parts with delimiters between them can be told apart when only one of them, at a known
place, may have delimiters. -/
theorem eq_of_joined (i : Nat) (hlength : xs.length = ys.length)
    (hx : ∀ j, j ≠ i → ∀ z ∈ (x :: xs)[j]?, d ∉ z) (hy : ∀ j, j ≠ i → ∀ z ∈ (y :: ys)[j]?, d ∉ z)
    (h : x ++ xs.flatMap (d :: ·) = y ++ ys.flatMap (d :: ·)) : x = y ∧ xs = ys := by
  induction xs generalizing i x y ys with
  | nil =>
    obtain rfl := List.length_eq_zero_iff.mp hlength.symm
    simpa using h
  | cons x₂ xs ih =>
    obtain ⟨y₂, ys, rfl⟩ := List.exists_cons_of_length_eq_add_one hlength.symm
    cases i with
    | zero =>
      have hclosed {z : List α} {zs : List (List α)}
          (hz : ∀ j, j ≠ 0 → ∀ w ∈ (z :: zs)[j]?, d ∉ w) : ∀ w ∈ zs, d ∉ w := by
        intro w hw
        obtain ⟨j, hj⟩ := List.mem_iff_getElem?.mp hw
        exact hz (j + 1) (Nat.succ_ne_zero j) w hj
      exact eq_of_behind hlength (hclosed hx) (hclosed hy) h
    | succ i =>
      rw [List.flatMap_cons, List.flatMap_cons, List.cons_append, List.cons_append] at h
      obtain ⟨rfl, hrest⟩ := eq_of_first (hx 0 (Nat.succ_ne_zero i).symm x rfl)
        (hy 0 (Nat.succ_ne_zero i).symm y rfl) h
      obtain ⟨rfl, rfl⟩ := ih i (Nat.succ.inj hlength)
        (fun j hj ↦ hx (j + 1) fun he ↦ hj (Nat.succ.inj he))
        (fun j hj ↦ hy (j + 1) fun he ↦ hj (Nat.succ.inj he)) hrest
      exact ⟨rfl, rfl⟩

end Joined

end Columnar.Splitting
