import Columnar.Fetch.Engine

/-!
# Rows with text names

A row whose names are all text is a keyed list: looking a name up and setting one are the same in
both (`find?_named`, `setEntry_named`). Comparing two such rows compares what they hold under equal
names (`signalsIn_named`, `mem_of_isPartOf_named`).
-/

namespace Columnar

/-- A row with text names. -/
def Row.named (entries : List (String × Value)) : Row := entries.map fun e ↦ (.text e.1, e.2)

namespace Row

private theorem equals_text (a b : String) : (Value.text a).equals (.text b) = decide (a = b) := by
  change (a == b) = decide (a = b)
  rw [Bool.beq_eq_decide_eq]

private theorem named_cons (e : String × Value) (rest : List (String × Value)) :
    named (e :: rest) = (.text e.1, e.2) :: named rest := rfl

/-- A name is looked up as in the keyed list. -/
@[simp] theorem find?_named (key : String) (entries : List (String × Value)) :
    Value.find? key (named entries) = Keyed.find? key entries := by
  induction entries with
  | nil => rfl
  | cons e rest ih =>
    simp only [Value.find?, Keyed.find?] at ih
    by_cases h : e.1 = key
    · simp [Value.find?, Keyed.find?, named_cons, equals_text, h]
    · simp [Value.find?, Keyed.find?, named_cons, equals_text, h, ih]

/-- A name that is absent stands for null. -/
theorem get_named (key : String) (entries : List (String × Value)) :
    Value.get key (named entries) = (Keyed.find? key entries).getD .null := by
  rw [Value.get, find?_named]

/-- A name is set as in the keyed list. -/
@[simp] theorem setEntry_named (key : String) (v : Value) (entries : List (String × Value)) :
    Value.setEntry (.text key) v (named entries) = named (Keyed.set key v entries) := by
  induction entries with
  | nil => rfl
  | cons e rest ih =>
    by_cases h : e.1 = key
    · simp [Value.setEntry, Keyed.set, named_cons, equals_text, h]
    · have hk : ¬ key = e.1 := fun hk ↦ h hk.symm
      simp [Value.setEntry, Keyed.set, named_cons, equals_text, h, hk, ih]

/-- A new name is set behind the others. -/
theorem setEntry_new {key : String} {entries : List (String × Value)}
    (h : key ∉ Keyed.keys entries) (v : Value) :
    Value.setEntry (.text key) v (named entries) = named (entries ++ [(key, v)]) := by
  rw [setEntry_named, Keyed.set_new h]

/-- Comparing rows does not fail when comparing what they hold under equal names does not. -/
theorem signalsIn_named {xs ys : List (String × Value)}
    (h : ∀ x ∈ xs, ∀ y ∈ ys, x.1 = y.1 → x.2.signals y.2 = false) :
    Value.signalsIn (named xs) (named ys) = false := by
  induction xs with
  | nil => rfl
  | cons x xs ih =>
    have hrest := ih fun x' hx' ↦ h x' (by simp [hx'])
    rw [named_cons, Value.signalsIn]
    split
    · next e he =>
      obtain ⟨y, hy, rfl⟩ := List.mem_map.mp (List.mem_of_find?_eq_some he)
      have hk : x.1 = y.1 := by simpa [equals_text] using List.find?_some he
      rw [h x (by simp) y hy hk, hrest]
      simp
    · rfl

/-- What the first of two rows holds the second holds too when it is a part of it. -/
theorem mem_of_isPartOf_named {xs ys : List (String × Value)}
    (h : Value.isPartOf (named xs) (named ys) = true) {x : String × Value} (hx : x ∈ xs) :
    ∃ y ∈ ys, x.1 = y.1 ∧ x.2.equals y.2 = true := by
  induction xs with
  | nil => cases hx
  | cons z xs ih =>
    rw [named_cons, Value.isPartOf, Bool.and_eq_true] at h
    rcases List.mem_cons.mp hx with rfl | hx
    · obtain ⟨e, he, hequal⟩ := List.any_eq_true.mp h.1
      obtain ⟨y, hy, rfl⟩ := List.mem_map.mp he
      rw [Bool.and_eq_true, equals_text, decide_eq_true_eq] at hequal
      exact ⟨y, hy, hequal⟩
    · exact ih h.2 hx

/-- A row is a part of another one that holds an equal value under each of its names. -/
theorem isPartOf_named {xs ys : List (String × Value)}
    (h : ∀ x ∈ xs, ∃ y ∈ ys, x.1 = y.1 ∧ x.2.equals y.2 = true) :
    Value.isPartOf (named xs) (named ys) = true := by
  induction xs with
  | nil => rfl
  | cons x xs ih =>
    obtain ⟨⟨y, hy, hname, hequal⟩, hrest⟩ := List.forall_mem_cons.mp h
    have hentry : (named ys).any
        (fun e ↦ (Value.text x.1).equals e.1 && x.2.equals e.2) = true := by
      refine List.any_eq_true.mpr ⟨(.text y.1, y.2), List.mem_map.mpr ⟨y, hy, rfl⟩, ?_⟩
      rw [Bool.and_eq_true, equals_text, decide_eq_true_eq]
      exact ⟨hname, hequal⟩
    rw [named_cons, Value.isPartOf, hentry, ih hrest]
    rfl

end Row

end Columnar
