import Columnar.Proofs.Cache.Entries
import Columnar.Proofs.Templates
import Mathlib.Data.List.Dedup
import Mathlib.Data.List.DropRight

/-!
# What a cache holds after a run

A run of a cache is told by its history: the operations with their answers. `History.used` and
`History.stored` read from a history alone which keys were used and what was stored since the cache
was last cleared. `Recent` says of a cache that it holds the keys used last, each with the template
stored last; one operation keeps that (`recent_step`), so a whole run does (`recent_run`), and
`Recent` decides what every reading answers.
-/

namespace Columnar

namespace TemplateCache

/-- An operation on a cache. -/
inductive Op where
  | get (key : String)
  | put (key : String) (t : Template)
  | clear

/-- What an operation does with a cache; only reading answers a template. -/
def Op.run : Op → Session TemplateCache (Option Template)
  | get key => TemplateCache.get key
  | put key t => do
    TemplateCache.put key t
    return none
  | clear => do
    modify TemplateCache.clear
    return none

/-- Reading a key answers what is found under it. -/
theorem Op.outcome_run_get (key : String) (c : TemplateCache) :
    (Op.get key).run.outcome c = (.ok (c.find? key), (c.consult key).2) := by
  rw [Op.run, outcome_get, fst_consult]

/-- Storing a template answers none. -/
theorem Op.outcome_run_put (key : String) (t : Template) (c : TemplateCache) :
    (Op.put key t).run.outcome c = (.ok none, (c.store key t).2) := by
  rw [Op.run, Session.outcome_bind, outcome_put]
  rfl

/-- Operations in the order in which they were made, each with its answer. -/
abbrev History := List (Op × Except Failure (Option Template))

/-- Runs operations one after another: their history, and the cache after them. -/
def runAll : List Op → TemplateCache → History × TemplateCache
  | [], c => ([], c)
  | op :: rest, c =>
    let (answer, c) := op.run.outcome c
    let (after, c) := runAll rest c
    ((op, answer) :: after, c)

namespace History

/-- The part of a history after the last time the cache was cleared. -/
def sinceClear (h : History) : History :=
  h.rtakeWhile fun e ↦
    match e.1 with
    | .clear => false
    | _ => true

/-- The keys that were used since then, one for each use: a template was stored under the key or
found there. -/
def used (h : History) : List String :=
  h.sinceClear.filterMap fun e ↦
    match e with
    | (.put key _, _) => some key
    | (.get key, .ok (some _)) => some key
    | _ => none

/-- What was stored since then, under its keys. -/
def stored (h : History) : List (String × Template) :=
  h.sinceClear.filterMap fun e ↦
    match e with
    | (.put key t, _) => some (key, t)
    | _ => none

/-- The template that was stored last under a key. -/
def lastStored (h : History) (key : String) : Option Template := Keyed.find? key h.stored.reverse

/-- The keys that were used last, without repetition and the one used longest ago first; there are
no more than `n`. -/
def lastUsed (h : History) (n : Nat) : List String := h.used.dedup.rtake n

/-! ### One more operation -/

variable {h : History}

theorem used_put (key : String) (t : Template) (answer : Except Failure (Option Template)) :
    used (h ++ [(.put key t, answer)]) = h.used ++ [key] := by
  simp [used, sinceClear]

theorem used_hit (key : String) (t : Template) :
    used (h ++ [(.get key, .ok (some t))]) = h.used ++ [key] := by
  simp [used, sinceClear]

theorem used_miss (key : String) : used (h ++ [(.get key, .ok none)]) = h.used := by
  simp [used, sinceClear]

theorem used_clear (answer : Except Failure (Option Template)) :
    used (h ++ [(.clear, answer)]) = [] := by
  simp [used, sinceClear]

theorem stored_put (key : String) (t : Template) (answer : Except Failure (Option Template)) :
    stored (h ++ [(.put key t, answer)]) = h.stored ++ [(key, t)] := by
  simp [stored, sinceClear]

theorem stored_get (key : String) (answer : Except Failure (Option Template)) :
    stored (h ++ [(.get key, answer)]) = h.stored := by
  simp [stored, sinceClear]

theorem stored_clear (answer : Except Failure (Option Template)) :
    stored (h ++ [(.clear, answer)]) = [] := by
  simp [stored, sinceClear]

end History

/-! ### Keys used last -/

section Recency

variable {key : String} {keys : List String}

/-- A key that is used once more moves to the end. -/
private theorem dedup_concat : (keys ++ [key]).dedup = keys.dedup.filter (· ≠ key) ++ [key] := by
  induction keys with
  | nil => rfl
  | cons other keys ih =>
    rw [List.cons_append]
    by_cases hmem : other ∈ keys
    · rw [List.dedup_cons_of_mem (List.mem_append_left _ hmem), List.dedup_cons_of_mem hmem, ih]
    · rw [List.dedup_cons_of_notMem hmem]
      by_cases hkey : other = key
      · rw [List.dedup_cons_of_mem (by simp [hkey]), ih]
        simp [hkey]
      · rw [List.dedup_cons_of_notMem (by simp [hmem, hkey]), ih]
        simp [hkey]

private theorem length_filter_ne (h : keys.Nodup) :
    (keys.filter (· ≠ key)).length = if key ∈ keys then keys.length - 1 else keys.length := by
  have hremove : keys.filter (· ≠ key) = keys.erase key := by
    rw [h.erase_eq_filter]
    exact List.filter_congr fun _ _ ↦ Bool.eq_iff_iff.mpr (by simp)
  rw [hremove, List.length_erase]

private theorem rtake_append {xs ys : List String} {n : Nat} (h : n ≤ ys.length) :
    (xs ++ ys).rtake n = ys.rtake n := by
  have hlength : (xs ++ ys).length - n = xs.length + (ys.length - n) := by
    rw [List.length_append]
    omega
  rw [List.rtake, hlength, List.drop_length_add_append]
  rfl

private theorem rtake_of_length_le {n : Nat} (h : keys.length ≤ n) : keys.rtake n = keys := by
  rw [List.rtake, Nat.sub_eq_zero_of_le h, List.drop_zero]

/-- Which keys were used last is told by the keys used last before. -/
private theorem rtake_concat {n : Nat} (h : keys.Nodup) :
    ((keys.rtake n).filter (· ≠ key) ++ [key]).rtake n =
      (keys.filter (· ≠ key) ++ [key]).rtake n := by
  by_cases hn : keys.length ≤ n
  · rw [rtake_of_length_le hn]
  · have hlast : n ≤ ((keys.rtake n).filter (· ≠ key) ++ [key]).length := by
      have hnodup : (keys.rtake n).Nodup := h.sublist (List.drop_sublist _ _)
      have hlength : (keys.rtake n).length = n := by
        rw [List.rtake, List.length_drop]
        omega
      rw [List.length_append, List.length_singleton, length_filter_ne hnodup, hlength]
      split <;> omega
    have hsplit : keys.filter (· ≠ key) ++ [key] = (keys.take (keys.length - n)).filter (· ≠ key)
        ++ ((keys.rtake n).filter (· ≠ key) ++ [key]) := by
      rw [← List.append_assoc, ← List.filter_append, List.rtake, List.take_append_drop]
    rw [hsplit, rtake_append hlast]

end Recency

/-- The cache holds the keys that were used last, each with the template that was stored last, and
no key was used that was not stored. -/
structure Recent (h : History) (c : TemplateCache) : Prop where
  keys : c.keys = h.lastUsed c.capacity
  templates : ∀ e ∈ c.entries, h.lastStored e.1 = some e.2
  known : ∀ key, key ∈ h.used ↔ key ∈ Keyed.keys h.stored

variable {h : History} {c : TemplateCache}

theorem Recent.length_keys_le (hr : Recent h c) : c.keys.length ≤ c.capacity := by
  rw [hr.keys, History.lastUsed, List.rtake, List.length_drop]
  omega

theorem Recent.nodup_keys (hr : Recent h c) : c.keys.Nodup := by
  rw [hr.keys]
  exact (List.nodup_dedup h.used).sublist (List.drop_sublist _ _)

/-- What is found under a key is told by the history. -/
theorem Recent.find? (hr : Recent h c) (key : String) : c.find? key =
    if key ∈ h.lastUsed c.capacity then h.lastStored key else none := by
  rw [← hr.keys]
  split
  · next hmem =>
    obtain ⟨e, he, rfl⟩ := List.mem_map.mp hmem
    rw [hr.templates e he]
    exact Keyed.find?_of_mem hr.nodup_keys he
  · next hmem => exact Keyed.find?_eq_none hmem

private theorem recent_put (hr : Recent h c) (key : String) (t : Template)
    (answer : Except Failure (Option Template)) :
    Recent (h ++ [(.put key t, answer)]) (c.store key t).2 where
  keys := by
    change Keyed.keys ((c.touched key t).drop ((c.touched key t).length - c.capacity)) =
      History.lastUsed _ c.capacity
    have hdrop : Keyed.keys ((c.touched key t).drop ((c.touched key t).length - c.capacity)) =
        (Keyed.keys (c.touched key t)).rtake c.capacity := by
      rw [Keyed.keys, Keyed.keys, List.rtake, List.map_drop, List.length_map]
    rw [hdrop, keys_touched, hr.keys, History.lastUsed, History.lastUsed, History.used_put,
      dedup_concat, rtake_concat (List.nodup_dedup _)]
  templates := by
    intro e he
    rw [History.lastStored, History.stored_put, List.reverse_concat]
    rcases List.mem_append.mp (List.mem_of_mem_drop he) with he | he
    · obtain ⟨he, hne⟩ := List.mem_filter.mp he
      have hne : ¬ key = e.1 := fun hk ↦ of_decide_eq_true hne hk.symm
      rw [← hr.templates e he, Keyed.find?, List.find?_cons_of_neg (by simpa using hne)]
      rfl
    · obtain rfl := List.mem_singleton.mp he
      simp [Keyed.find?]
  known := by
    intro other
    rw [History.used_put, History.stored_put, Keyed.keys, List.map_append, List.mem_append,
      List.mem_append, hr.known]
    rfl

private theorem mem_of_touched {key : String} {t : Template} (hr : Recent h c)
    (hfound : c.find? key = some t) {e : String × Template} (he : e ∈ c.touched key t) :
    h.lastStored e.1 = some e.2 := by
  rcases List.mem_append.mp he with he | he
  · exact hr.templates e (List.mem_filter.mp he).1
  · obtain rfl := List.mem_singleton.mp he
    rw [hr.find?] at hfound
    split at hfound
    · exact hfound
    · cases hfound

private theorem recent_hit (hr : Recent h c) {key : String} {t : Template}
    (hfound : c.find? key = some t) :
    Recent (h ++ [(.get key, .ok (some t))]) { c with entries := c.touched key t } where
  keys := by
    have hmem := mem_keys_of_find? hfound
    have hle : (c.keys.filter (· ≠ key) ++ [key]).length ≤ c.capacity := by
      have hpos := List.length_pos_of_mem hmem
      have hsize := hr.length_keys_le
      rw [List.length_append, List.length_singleton, length_filter_ne hr.nodup_keys, if_pos hmem]
      omega
    change Keyed.keys (c.touched key t) = _
    rw [keys_touched, ← rtake_of_length_le hle, hr.keys, History.lastUsed, History.lastUsed,
      History.used_hit, dedup_concat, rtake_concat (List.nodup_dedup _)]
  templates := by
    intro e he
    rw [History.lastStored, History.stored_get]
    exact mem_of_touched hr hfound he
  known := by
    intro other
    have hused : key ∈ h.used := by
      have hmem := mem_keys_of_find? hfound
      rw [hr.keys] at hmem
      exact List.mem_dedup.mp (List.mem_of_mem_drop hmem)
    rw [History.used_hit, History.stored_get, ← hr.known, List.mem_append, List.mem_singleton]
    constructor
    · rintro (hother | rfl)
      · exact hother
      · exact hused
    · exact Or.inl

/-- One operation, which never fails, keeps a cache recent. -/
theorem recent_step (hr : Recent h c) (op : Op) : ∃ t c', op.run.outcome c = (.ok t, c') ∧
    c'.capacity = c.capacity ∧ Recent (h ++ [(op, .ok t)]) c' := by
  cases op with
  | get key =>
    refine ⟨(c.consult key).1, (c.consult key).2, outcome_get key c, capacity_consult c key, ?_⟩
    unfold consult
    rcases hfound : c.find? key with _ | t
    · exact {
        keys := by
          rw [History.lastUsed, History.used_miss]
          exact hr.keys
        templates := by
          intro e he
          rw [History.lastStored, History.stored_get]
          exact hr.templates e he
        known := by
          intro other
          rw [History.used_miss, History.stored_get, hr.known] }
    · exact recent_hit hr hfound
  | put key t =>
    exact ⟨none, (c.store key t).2, Op.outcome_run_put key t c, rfl, recent_put hr key t _⟩
  | clear =>
    refine ⟨none, c.clear, rfl, rfl, ?_⟩
    exact {
      keys := by
        rw [History.lastUsed, History.used_clear, List.dedup_nil, List.rtake_nil]
        rfl
      templates := by
        intro e he
        cases he
      known := by
        intro other
        rw [History.used_clear, History.stored_clear]
        exact Iff.rfl }

/-! ### Runs -/

/-- Every reading answers the template stored last under its key, when the key is one of the `n`
keys used last before it; otherwise it answers none. -/
def History.Faithful (n : Nat) (h : History) : Prop :=
  ∀ (before : History) key answer after, h = before ++ (.get key, answer) :: after →
    answer =
      .ok (if key ∈ History.lastUsed before n then History.lastStored before key else none)

private theorem faithful_concat {n : Nat} {op : Op} {answer : Except Failure (Option Template)}
    (hf : h.Faithful n) (hlast : ∀ key, op = .get key →
      answer = .ok (if key ∈ h.lastUsed n then h.lastStored key else none)) :
    History.Faithful n (h ++ [(op, answer)]) := by
  intro before key given after hsplit
  rcases List.eq_nil_or_concat after with rfl | ⟨rest, e, rfl⟩
  · obtain ⟨rfl, hevent⟩ := List.append_inj' hsplit rfl
    obtain ⟨rfl, rfl⟩ := Prod.mk.inj (List.singleton_inj.mp hevent)
    exact hlast key rfl
  · rw [List.concat_eq_append, ← List.cons_append, ← List.append_assoc] at hsplit
    exact hf before key given rest (List.append_inj' hsplit rfl).1

/-- A run, in which no operation fails, keeps a cache recent, and its readings are faithful. -/
theorem recent_run (hr : Recent h c) (hf : h.Faithful c.capacity) (ops : List Op) :
    ∃ after c', runAll ops c = (after, c') ∧ after.map Prod.fst = ops ∧
      c'.capacity = c.capacity ∧ Recent (h ++ after) c' ∧
      History.Faithful c.capacity (h ++ after) := by
  induction ops generalizing h c with
  | nil => exact ⟨[], c, rfl, rfl, rfl, by rwa [List.append_nil], by rwa [List.append_nil]⟩
  | cons op ops ih =>
    obtain ⟨t, c₁, hop, hcapacity, hr₁⟩ := recent_step hr op
    have hanswer : ∀ key, op = .get key → (.ok t : Except Failure (Option Template)) =
        .ok (if key ∈ h.lastUsed c.capacity then h.lastStored key else none) := by
      rintro key rfl
      have hread := Op.outcome_run_get key c
      rw [← hr.find? key, ← (Prod.mk.inj (hop.symm.trans hread)).1]
    have hf₁ := faithful_concat hf hanswer
    rw [← hcapacity] at hf₁
    obtain ⟨after, c₂, hrun, hops, hcapacity₂, hr₂, hf₂⟩ := ih hr₁ hf₁
    refine ⟨(op, .ok t) :: after, c₂, ?_, ?_, hcapacity₂.trans hcapacity, ?_, ?_⟩
    · rw [runAll, hop]
      simp only [hrun]
    · rw [List.map_cons, hops]
    · rwa [List.append_assoc] at hr₂
    · rwa [List.append_assoc, hcapacity] at hf₂

private theorem recent_empty {capacity : Nat} (hpos : 0 < capacity) :
    Recent [] { capacity := capacity, positive := hpos } where
  keys := by
    have hunused : History.used [] = [] := by simp [History.used, History.sinceClear]
    rw [History.lastUsed, hunused, List.dedup_nil, List.rtake_nil]
    rfl
  templates := by
    intro e he
    cases he
  known := by
    intro key
    simp [History.used, History.stored, History.sinceClear, Keyed.keys]

/-- After any run of a new cache its keys are those used last, without repetition and the one used
longest ago first: as many as there are different keys under which something was stored since the
cache was last cleared, but no more than the capacity. Each has the template stored last, and a
template that has just been stored is there. Every reading of the run answered accordingly. -/
theorem holds_last_used (capacity : Int) (hcap : 1 ≤ capacity) (ops : List Op) :
    ∃ new h c, TemplateCache.new capacity = .ok new ∧ runAll ops new = (h, c) ∧
      h.map Prod.fst = ops ∧ c.keys = h.lastUsed capacity.toNat ∧ c.keys.Nodup ∧
      h.used.dedup.Perm (Keyed.keys h.stored).dedup ∧
      c.size = min capacity.toNat (Keyed.keys h.stored).dedup.length ∧
      (∀ e ∈ c.entries, h.lastStored e.1 = some e.2) ∧ h.Faithful capacity.toNat ∧
      ∀ before key t, ops = before ++ [.put key t] → c.keys.getLast? = some key := by
  have hpos : 0 < capacity.toNat := by omega
  have hnew : TemplateCache.new capacity =
      .ok { capacity := capacity.toNat, positive := hpos } := by
    rw [TemplateCache.new, dif_pos hcap]
  have hempty : History.Faithful capacity.toNat [] := by
    intro before key answer after hsplit
    cases before <;> cases hsplit
  obtain ⟨h, c, hrun, hops, hcapacity, hr, hf⟩ := recent_run (recent_empty hpos) hempty ops
  simp only [List.nil_append] at hcapacity hr hf
  have hkeys : c.keys = h.lastUsed capacity.toNat := by rw [hr.keys, hcapacity]
  have hsame : h.used.dedup.Perm (Keyed.keys h.stored).dedup :=
    (List.perm_ext_iff_of_nodup (List.nodup_dedup _) (List.nodup_dedup _)).mpr fun key ↦ by
      rw [List.mem_dedup, List.mem_dedup, hr.known]
  refine ⟨_, h, c, hnew, hrun, hops, hkeys, hr.nodup_keys, hsame, ?_, hr.templates, hf, ?_⟩
  · have hsize : c.size = c.keys.length := (List.length_map _).symm
    rw [hsize, hkeys, History.lastUsed, List.rtake, List.length_drop, ← hsame.length_eq]
    omega
  · rintro before key t rfl
    obtain ⟨before, last, rfl, -, hlast⟩ := List.map_eq_append_iff.mp hops
    obtain ⟨⟨_, answer⟩, rfl, rfl⟩ := List.map_eq_singleton_iff.mp hlast
    obtain ⟨n, hn⟩ := Nat.exists_eq_succ_of_ne_zero hpos.ne'
    rw [hkeys, hn, History.lastUsed, History.used_put, dedup_concat, List.rtake_concat_succ,
      List.getLast?_concat]

/-- A key that was read again is kept; the one used longest ago leaves. -/
theorem holds_last_used_evicting : (1 : Int) ≤ 2 ∧ ∃ new h c, TemplateCache.new 2 = .ok new ∧
    runAll [.put "a" { sql := "A" }, .put "b" { sql := "B" }, .get "a",
      .put "c" { sql := "C" }] new = (h, c) ∧ c.keys = ["a", "c"] := by
  refine ⟨by decide, ?_⟩
  obtain ⟨new, h, c, hnew, hrun, -, hkeys, -⟩ := holds_last_used 2 (by decide)
    [.put "a" { sql := "A" }, .put "b" { sql := "B" }, .get "a", .put "c" { sql := "C" }]
  refine ⟨new, h, c, hnew, hrun, ?_⟩
  rw [hkeys]
  obtain rfl := Except.ok.inj hnew
  obtain ⟨rfl, -⟩ := Prod.mk.inj hrun
  decide

end TemplateCache

end Columnar
