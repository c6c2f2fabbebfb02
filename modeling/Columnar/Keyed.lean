/-!
# Keyed lists

A list of pairs of a key and a value in the order in which the keys were first set. `set` keeps
the place of a key that is present and appends any other; `ofList` sets pairs one by one, so
that of equal keys the first place and the last value remain.
-/

namespace Columnar.Keyed

variable {α β : Type}

/-- Sets the value of a key. -/
def set (key : String) (value : α) : List (String × α) → List (String × α)
  | [] => [(key, value)]
  | e :: rest => if e.1 = key then (key, value) :: rest else e :: set key value rest

/-- The keys, in order. -/
def keys (entries : List (String × α)) : List String := entries.map Prod.fst

/-- The value of a key. -/
def find? (key : String) (entries : List (String × α)) : Option α :=
  (entries.find? fun e ↦ e.1 = key).map Prod.snd

/-- Whether a key is present. -/
def contains (key : String) (entries : List (String × α)) : Bool := (keys entries).contains key

/-- Sets pairs one by one. -/
def ofList (pairs : List (String × α)) : List (String × α) :=
  pairs.foldl (fun entries p ↦ set p.1 p.2 entries) []

/-- The keys after one is set: the same, or one more at the end. -/
theorem keys_set (key : String) (value : α) (entries : List (String × α)) :
    keys (set key value entries) =
      if key ∈ keys entries then keys entries else keys entries ++ [key] := by
  induction entries with
  | nil => simp [set, keys]
  | cons e rest ih =>
    by_cases h : e.1 = key
    · simp [set, keys, h]
    · have h' : ¬ key = e.1 := fun hk ↦ h hk.symm
      simp only [keys] at ih
      simp only [set, h, ↓reduceIte, keys, List.map_cons, List.mem_cons, h', false_or, ih]
      split <;> rename_i hm <;> simp [hm]

/-- A key that is set has the value it was given, any other key keeps its own. -/
theorem find?_set (key other : String) (value : α) (entries : List (String × α)) :
    find? other (set key value entries) =
      if key = other then some value else find? other entries := by
  induction entries with
  | nil => by_cases h : key = other <;> simp [set, find?, h]
  | cons e rest ih =>
    simp only [find?] at ih
    by_cases h : e.1 = key
    · subst h
      by_cases ho : e.1 = other <;> simp [set, find?, ho]
    · by_cases ho : e.1 = other
      · subst ho
        have hk : ¬ key = e.1 := fun hk ↦ h hk.symm
        simp [set, find?, h, hk]
      · simp [set, find?, h, ho, ih]

/-- Keys stay distinct when one is set. -/
theorem nodup_keys_set {key : String} {value : α} {entries : List (String × α)}
    (h : (keys entries).Nodup) : (keys (set key value entries)).Nodup := by
  rw [keys_set]
  split
  · exact h
  · rename_i hk
    exact List.nodup_append.2 ⟨h, by simp, fun a ha b hb ↦ by
      rw [List.mem_singleton.1 hb]
      exact fun he ↦ hk (he ▸ ha)⟩

/-- A key is looked up in the first of two parts, and then in the second. -/
theorem find?_append (key : String) (xs ys : List (String × α)) :
    find? key (xs ++ ys) = (find? key xs).or (find? key ys) := by
  simp only [find?, List.find?_append, Option.map_or]

/-- A key that is absent has no value. -/
theorem find?_eq_none {key : String} {entries : List (String × α)} (h : key ∉ keys entries) :
    find? key entries = none := by
  simp only [find?, Option.map_eq_none_iff, List.find?_eq_none, decide_eq_true_eq]
  intro e he hk
  exact h (List.mem_map.mpr ⟨e, he, hk⟩)

/-- A value that is found stands under its key. -/
theorem mem_of_find? {key : String} {value : α} {entries : List (String × α)}
    (h : find? key entries = some value) : (key, value) ∈ entries := by
  obtain ⟨e, he, rfl⟩ := Option.map_eq_some_iff.mp h
  have hkey : e.1 = key := by simpa using List.find?_some he
  rw [← hkey]
  exact List.mem_of_find?_eq_some he

/-- Of distinct keys each has the value it stands beside. -/
theorem find?_of_mem {key : String} {value : α} {entries : List (String × α)}
    (hn : (keys entries).Nodup) (h : (key, value) ∈ entries) : find? key entries = some value := by
  induction entries with
  | nil => cases h
  | cons e rest ih =>
    obtain ⟨hnot, hrest⟩ := List.nodup_cons.mp hn
    rcases List.mem_cons.mp h with rfl | h
    · simp [find?]
    · have hk : e.1 ≠ key := by
        intro hk
        exact hnot (List.mem_map.mpr ⟨(key, value), h, hk.symm⟩)
      have := ih hrest h
      simp only [find?] at this
      simp [find?, hk, this]

/-- A key that is absent from the first part is set in the second. -/
theorem set_append {key : String} {xs : List (String × α)} (h : key ∉ keys xs) (value : α)
    (ys : List (String × α)) : set key value (xs ++ ys) = xs ++ set key value ys := by
  induction xs with
  | nil => rfl
  | cons e xs ih =>
    simp only [keys, List.map_cons, List.mem_cons, not_or] at h
    rw [List.cons_append, set, if_neg fun hk ↦ h.1 hk.symm, ih h.2]
    rfl

/-- A new key is set behind the others. -/
theorem set_new {key : String} {xs : List (String × α)} (h : key ∉ keys xs) (value : α) :
    set key value xs = xs ++ [(key, value)] := by
  have hset := set_append h value []
  rwa [List.append_nil] at hset

/-- A key is found where it first stands. -/
theorem find?_between {key : String} {before : List (String × α)} (h : key ∉ keys before)
    (value : α) (after : List (String × α)) :
    find? key (before ++ (key, value) :: after) = some value := by
  rw [find?_append, find?_eq_none h, Option.none_or, find?, List.find?_cons_of_pos (by simp)]
  rfl

/-- A key is set where it first stands. -/
theorem set_between {key : String} {before : List (String × α)} (h : key ∉ keys before)
    (old new : α) (after : List (String × α)) :
    set key new (before ++ (key, old) :: after) = before ++ (key, new) :: after := by
  rw [set_append h, set, if_pos rfl]

/-- Values change under a function, keys and places do not. -/
def mapValues (f : α → β) (entries : List (String × α)) : List (String × β) :=
  entries.map fun e ↦ (e.1, f e.2)

/-- A key is looked up before or after values change. -/
theorem find?_mapValues (f : α → β) (key : String) (entries : List (String × α)) :
    find? key (mapValues f entries) = (find? key entries).map f := by
  simp only [find?, mapValues, List.find?_map, Option.map_map]
  rfl

/-- A key is set before or after values change. -/
theorem set_mapValues (f : α → β) (key : String) (value : α) (entries : List (String × α)) :
    set key (f value) (mapValues f entries) = mapValues f (set key value entries) := by
  induction entries with
  | nil => rfl
  | cons e rest ih =>
    simp only [mapValues, List.map_cons, set] at ih ⊢
    split
    · rfl
    · rw [ih, List.map_cons]

/-- After a key is set each value is the new one or was there before. -/
theorem mem_set {key : String} {value : α} {entries : List (String × α)} {e : String × α}
    (h : e ∈ set key value entries) : e.2 = value ∨ e ∈ entries := by
  induction entries with
  | nil => exact .inl (congrArg Prod.snd (List.mem_singleton.mp h))
  | cons first rest ih =>
    rw [set] at h
    split at h
    · rcases List.mem_cons.mp h with rfl | h
      · exact .inl rfl
      · exact .inr (List.mem_cons_of_mem _ h)
    · rcases List.mem_cons.mp h with rfl | h
      · exact .inr List.mem_cons_self
      · exact (ih h).imp_right (List.mem_cons_of_mem _)

end Columnar.Keyed
