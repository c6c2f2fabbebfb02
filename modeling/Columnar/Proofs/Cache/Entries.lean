import Columnar.Template.Cache
import Mathlib.Data.List.Nodup

/-!
# Entries of a cache

What reading and storing do with the entries of a cache that is tidy: its keys are distinct, and it
has room for all of them. Every operation keeps a cache tidy, and then at most one entry leaves when
a template is stored, the one used longest ago.
-/

namespace Columnar.TemplateCache

variable {c : TemplateCache} {key : String} {t : Template}

/-- The keys of a cache are distinct, and there is room for all of them. -/
structure Tidy (c : TemplateCache) : Prop where
  nodup : c.keys.Nodup
  size_le : c.size ≤ c.capacity

/-! ### Reading -/

theorem fst_consult (key : String) : (c.consult key).1 = c.find? key := by
  unfold consult
  split <;> simp [*]

theorem consult_of_find? (h : c.find? key = some t) :
    c.consult key = (some t, { c with entries := c.touched key t }) := by
  rw [consult, h]

theorem consult_of_missing (h : c.find? key = none) : c.consult key = (none, c) := by
  rw [consult, h]

theorem find?_eq_none_iff : c.find? key = none ↔ key ∉ c.keys := by
  constructor
  · intro h hmem
    obtain ⟨e, he, hkey⟩ := List.mem_map.mp hmem
    rw [find?, Keyed.find?, Option.map_eq_none_iff, List.find?_eq_none] at h
    exact h e he (by simpa using hkey)
  · exact Keyed.find?_eq_none

theorem mem_keys_of_find? (h : c.find? key = some t) : key ∈ c.keys := by
  by_contra hnot
  rw [find?_eq_none_iff.mpr hnot] at h
  cases h

theorem mem_of_find? (h : c.find? key = some t) : (key, t) ∈ c.entries := Keyed.mem_of_find? h

/-! ### Use -/

theorem mem_of_mem_touched {e : String × Template} (h : e ∈ c.touched key t) :
    e ∈ c.entries ∨ e = (key, t) := by
  rcases List.mem_append.mp h with h | h
  · exact .inl (List.mem_filter.mp h).1
  · exact .inr (List.mem_singleton.mp h)

/-- Reading brings nothing into a cache. -/
theorem mem_of_mem_consult {e : String × Template} (h : e ∈ (c.consult key).2.entries) :
    e ∈ c.entries := by
  rcases hfound : c.find? key with _ | t
  · rwa [consult_of_missing hfound] at h
  · rw [consult_of_find? hfound] at h
    rcases mem_of_mem_touched h with h | rfl
    · exact h
    · exact mem_of_find? hfound

theorem keys_touched (key : String) (t : Template) :
    Keyed.keys (c.touched key t) = c.keys.filter (· ≠ key) ++ [key] := by
  simp [touched, without, keys, Keyed.keys, List.filter_map, Function.comp_def]

/-- Without a key that is absent the entries are the same. -/
theorem without_of_notMem (h : key ∉ c.keys) : c.without key = c.entries := by
  rw [without, List.filter_eq_self]
  intro e he
  have hne : e.1 ≠ key := by
    intro hkey
    exact h (List.mem_map.mpr ⟨e, he, hkey⟩)
  simpa using hne

/-- Without a key that is present one entry less is left. -/
theorem without_of_entries {before after : List (String × Template)} (hc : c.Tidy)
    (h : c.entries = before ++ (key, t) :: after) : c.without key = before ++ after := by
  have hnodup := hc.nodup
  rw [keys, h, Keyed.keys, List.map_append, List.map_cons, List.nodup_middle, List.nodup_cons,
    ← List.map_append] at hnodup
  have hothers : ∀ e ∈ before ++ after, decide (e.1 ≠ key) = true := by
    intro e he
    rw [decide_eq_true_eq]
    rintro rfl
    exact hnodup.1 (List.mem_map.mpr ⟨e, he, rfl⟩)
  rw [List.forall_mem_append] at hothers
  rw [without, h, List.filter_append, List.filter_cons_of_neg (by simp),
    List.filter_eq_self.mpr hothers.1, List.filter_eq_self.mpr hothers.2]

theorem Tidy.nodup_touched (hc : c.Tidy) (key : String) (t : Template) :
    (Keyed.keys (c.touched key t)).Nodup := by
  rw [keys_touched, List.nodup_append]
  refine ⟨hc.nodup.filter _, List.nodup_singleton key, ?_⟩
  intro other hother last hlast
  rw [List.mem_singleton.mp hlast]
  simpa using (List.mem_filter.mp hother).2

/-- A key that is used is there afterwards; only one that was absent is one more. -/
theorem Tidy.length_touched (hc : c.Tidy) (key : String) (t : Template) :
    (c.touched key t).length = if key ∈ c.keys then c.size else c.size + 1 := by
  by_cases hmem : key ∈ c.keys
  · obtain ⟨⟨other, u⟩, he, rfl⟩ := List.mem_map.mp hmem
    obtain ⟨before, after, h⟩ := List.append_of_mem he
    rw [if_pos hmem, touched, without_of_entries hc h, size, h]
    simp only [List.length_append, List.length_cons, List.length_nil]
    omega
  · rw [if_neg hmem, touched, without_of_notMem hmem, List.length_append, List.length_singleton,
      size]

/-! ### Storing -/

theorem entries_store (key : String) (t : Template) : (c.store key t).2.entries =
    (c.touched key t).drop ((c.touched key t).length - c.capacity) := rfl

/-- Storing brings one entry into a cache. -/
theorem mem_of_mem_store {e : String × Template} (h : e ∈ (c.store key t).2.entries) :
    e ∈ c.entries ∨ e = (key, t) := mem_of_mem_touched (List.mem_of_mem_drop h)

/-- A template under a key that is absent goes behind the others. The first of them leaves when
there is no room. -/
theorem Tidy.entries_store_of_notMem (hc : c.Tidy) (hmem : key ∉ c.keys) (t : Template) :
    (c.store key t).2.entries =
      (if c.size < c.capacity then c.entries else c.entries.tail) ++ [(key, t)] := by
  have hlength := hc.length_touched key t
  have hsize := hc.size_le
  have hpositive := c.positive
  rw [if_neg hmem] at hlength
  rw [entries_store, hlength, touched, without_of_notMem hmem]
  split
  · next hroom => rw [Nat.sub_eq_zero_of_le hroom, List.drop_zero]
  · next hfull =>
    have hone : c.size + 1 - c.capacity = 1 := by omega
    have hsome : 1 ≤ c.entries.length := by
      rw [size] at hfull hsize
      omega
    rw [hone, List.drop_append_of_le_length hsome, List.drop_one]

/-- A template that is stored is found under its key. -/
theorem find?_store (c : TemplateCache) (key : String) (t : Template) :
    (c.store key t).2.find? key = some t := by
  have hpositive := c.positive
  have hlength : (c.without key ++ [(key, t)]).length - c.capacity ≤ (c.without key).length := by
    rw [List.length_append, List.length_singleton]
    omega
  rw [find?, entries_store, touched, List.drop_append_of_le_length hlength]
  refine Keyed.find?_between ?_ t []
  intro hmem
  obtain ⟨e, he, hkey⟩ := List.mem_map.mp hmem
  have hother := (List.mem_filter.mp (List.mem_of_mem_drop he)).2
  rw [decide_eq_true_eq] at hother
  exact hother hkey

/-! ### Tidy caches -/

/-- A cache that is to have room for a template is made, and is empty. -/
theorem exists_new {capacity : Int} (h : 1 ≤ capacity) :
    ∃ c, new capacity = .ok c ∧ c.capacity = capacity.toNat ∧ c.entries = [] :=
  ⟨_, dif_pos h, rfl, rfl⟩

theorem tidy_of_entries_eq_nil (h : c.entries = []) : c.Tidy where
  nodup := by
    rw [keys, h]
    exact List.nodup_nil
  size_le := by
    rw [size, h]
    exact Nat.zero_le _

theorem tidy_clear : c.clear.Tidy := tidy_of_entries_eq_nil rfl

theorem Tidy.consult (hc : c.Tidy) (key : String) : (c.consult key).2.Tidy := by
  rcases hfound : c.find? key with _ | t
  · rw [consult_of_missing hfound]
    exact hc
  · rw [consult_of_find? hfound]
    refine ⟨hc.nodup_touched key t, ?_⟩
    have hlength := hc.length_touched key t
    rw [if_pos (mem_keys_of_find? hfound)] at hlength
    exact Nat.le_trans (Nat.le_of_eq hlength) hc.size_le

theorem Tidy.store (hc : c.Tidy) (key : String) (t : Template) : (c.store key t).2.Tidy where
  nodup := by
    rw [keys, entries_store, Keyed.keys, List.map_drop]
    exact (hc.nodup_touched key t).sublist (List.drop_sublist _ _)
  size_le := size_store_le c key t

end Columnar.TemplateCache
