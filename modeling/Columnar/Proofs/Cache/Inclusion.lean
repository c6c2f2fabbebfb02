import Columnar.Proofs.Cache.Recency

/-!
# Caches with more room

Two caches go through the same operations, and one has more room than the other. What the smaller
one holds the larger one holds too, in the same order (`Within`): they differ only once the smaller
one is full, and from then on whatever makes room in the larger one makes room in the smaller one.
One operation keeps that (`Within.step`), so a whole run does, and every template that is found in
the smaller cache is found in the larger one (`found_in_larger`).
-/

namespace Columnar.TemplateCache

/-- A cache holds what a smaller one holds, in the same order, and holds nothing else while the
smaller one has room left. -/
structure Within (small large : TemplateCache) : Prop where
  capacity_le : small.capacity ≤ large.capacity
  tidySmall : small.Tidy
  tidyLarge : large.Tidy
  sublist : small.entries.Sublist large.entries
  entries_eq : small.size < small.capacity → small.entries = large.entries

variable {small large : TemplateCache} {key : String} {t : Template}

namespace Within

theorem notMem_keys (h : Within small large) (hkey : key ∉ large.keys) : key ∉ small.keys :=
  fun hmem ↦ hkey ((h.sublist.map Prod.fst).subset hmem)

/-- What is found in the smaller cache is found in the larger one. -/
theorem find? (h : Within small large) (hfound : small.find? key = some t) :
    large.find? key = some t :=
  Keyed.find?_of_mem h.tidyLarge.nodup (h.sublist.subset (mem_of_find? hfound))

theorem sublist_touched (h : Within small large) (key : String) (t : Template) :
    (small.touched key t).Sublist (large.touched key t) :=
  (h.sublist.filter _).append_right _

/-- Where the smaller cache has room for a key that is used, the larger one has no other. -/
theorem touched_eq (h : Within small large)
    (hroom : (small.touched key t).length < small.capacity) :
    small.touched key t = large.touched key t := by
  have hlength := h.tidySmall.length_touched key t
  have hsize : small.size < small.capacity := by
    split at hlength <;> omega
  rw [touched, touched, without, without, h.entries_eq hsize]

/-- When an entry leaves the larger cache one leaves the smaller one. -/
theorem excess_le (h : Within small large) (key : String) (t : Template) :
    (large.touched key t).length - large.capacity ≤
      (small.touched key t).length - small.capacity := by
  have hsmall := h.tidySmall.length_touched key t
  have hlarge := h.tidyLarge.length_touched key t
  have hsmallSize := h.tidySmall.size_le
  have hlargeSize := h.tidyLarge.size_le
  have hcapacity := h.capacity_le
  by_cases hkey : key ∈ large.keys
  · rw [if_pos hkey] at hlarge
    omega
  · rw [if_neg hkey] at hlarge
    rw [if_neg (h.notMem_keys hkey)] at hsmall
    by_cases hroom : small.size < small.capacity
    · have hsame : small.size = large.size := congrArg List.length (h.entries_eq hroom)
      omega
    · omega

/-- A template that is stored in both caches. -/
theorem store (h : Within small large) (key : String) (t : Template) :
    Within (small.store key t).2 (large.store key t).2 where
  capacity_le := h.capacity_le
  tidySmall := h.tidySmall.store key t
  tidyLarge := h.tidyLarge.store key t
  sublist := by
    have hfewer := List.drop_sublist_drop_left (small.touched key t) (h.excess_le key t)
    rw [entries_store, entries_store]
    exact hfewer.trans ((h.sublist_touched key t).drop _)
  entries_eq := by
    intro hroom
    have hpositive := small.positive
    have hcapacity := h.capacity_le
    change ((small.touched key t).drop _).length < small.capacity at hroom
    rw [List.length_drop] at hroom
    have hsmall : (small.touched key t).length < small.capacity := by omega
    have hsame := h.touched_eq hsmall
    rw [hsame] at hsmall
    rw [entries_store, entries_store, hsame, Nat.sub_eq_zero_of_le (by omega),
      Nat.sub_eq_zero_of_le (by omega)]

/-- A key that is read in both caches. -/
theorem consult (h : Within small large) (key : String) :
    Within (small.consult key).2 (large.consult key).2 := by
  rcases hlarge : large.find? key with _ | t
  · have hsmall : small.find? key = none :=
      find?_eq_none_iff.mpr (h.notMem_keys (find?_eq_none_iff.mp hlarge))
    rw [consult_of_missing hlarge, consult_of_missing hsmall]
    exact h
  · rcases hsmall : small.find? key with _ | u
    · -- The key moves behind all others in the larger cache, and is none of those it shares.
      have hkey := find?_eq_none_iff.mp hsmall
      have hfull : ¬ small.size < small.capacity := by
        intro hroom
        have hnone : large.find? key = none := by
          rw [TemplateCache.find?, ← h.entries_eq hroom]
          exact hsmall
        cases hlarge.symm.trans hnone
      rw [consult_of_missing hsmall]
      refine ⟨?_, h.tidySmall, h.tidyLarge.consult key, ?_, fun hroom ↦ absurd hroom hfull⟩
      · rw [capacity_consult]
        exact h.capacity_le
      · have hwithout := h.sublist.filter fun e ↦ e.1 ≠ key
        change (small.without key).Sublist (large.without key) at hwithout
        rw [without_of_notMem hkey] at hwithout
        rw [consult_of_find? hlarge]
        exact hwithout.trans (List.sublist_append_left _ _)
    · obtain rfl : u = t := Option.some.inj ((h.find? hsmall).symm.trans hlarge)
      refine ⟨?_, h.tidySmall.consult key, h.tidyLarge.consult key, ?_, ?_⟩
      · rw [capacity_consult, capacity_consult]
        exact h.capacity_le
      · rw [consult_of_find? hlarge, consult_of_find? hsmall]
        exact h.sublist_touched key u
      · rw [consult_of_find? hlarge, consult_of_find? hsmall]
        exact h.touched_eq

theorem clear (h : Within small large) : Within small.clear large.clear where
  capacity_le := h.capacity_le
  tidySmall := tidy_clear
  tidyLarge := tidy_clear
  sublist := List.Sublist.slnil
  entries_eq _ := rfl

/-- One operation on both caches: what it finds in the smaller one it finds in the larger one. -/
theorem step (h : Within small large) (op : Op) :
    Within (op.run.outcome small).2 (op.run.outcome large).2 ∧
      ∀ t, (op.run.outcome small).1 = .ok (some t) → (op.run.outcome large).1 = .ok (some t) := by
  cases op with
  | get key =>
    rw [Op.outcome_run_get, Op.outcome_run_get]
    refine ⟨h.consult key, fun t hfound ↦ ?_⟩
    rw [h.find? (Except.ok.inj hfound)]
  | put key t =>
    rw [Op.outcome_run_put, Op.outcome_run_put]
    refine ⟨h.store key t, ?_⟩
    rintro u ⟨⟩
  | clear =>
    refine ⟨h.clear, ?_⟩
    rintro u ⟨⟩

end Within

/-- Whatever was found in one run was found at the same place in another run of the same
operations. -/
def History.FoundIn (h h' : History) : Prop :=
  List.Forall₂ (fun e e' ↦ e.1 = e'.1 ∧ ∀ t, e.2 = .ok (some t) → e'.2 = .ok (some t)) h h'

/-- Operations one after another on both caches. -/
theorem Within.runAll (h : Within small large) (ops : List Op) :
    Within (TemplateCache.runAll ops small).2 (TemplateCache.runAll ops large).2 ∧
      (TemplateCache.runAll ops small).1.FoundIn (TemplateCache.runAll ops large).1 := by
  induction ops generalizing small large with
  | nil => exact ⟨h, .nil⟩
  | cons op ops ih =>
    obtain ⟨hstep, hfound⟩ := h.step op
    obtain ⟨hrest, hanswers⟩ := ih hstep
    exact ⟨hrest, .cons ⟨rfl, hfound⟩ hanswers⟩

private theorem within_empty (hcapacity : small.capacity ≤ large.capacity)
    (hsmall : small.entries = []) (hlarge : large.entries = []) : Within small large where
  capacity_le := hcapacity
  tidySmall := tidy_of_entries_eq_nil hsmall
  tidyLarge := tidy_of_entries_eq_nil hlarge
  sublist := by
    rw [hsmall]
    exact List.nil_sublist _
  entries_eq _ := hsmall.trans hlarge.symm

/-- Two new caches, of which the second has at least as much room, go through the same operations.
At every point the entries of the first are entries of the second, in the same order; and whatever a
reading finds in the first, the same reading finds in the second. -/
theorem found_in_larger (room more : Int) (hroom : 1 ≤ room) (hmore : room ≤ more)
    (ops : List Op) : ∃ small large, TemplateCache.new room = .ok small ∧
      TemplateCache.new more = .ok large ∧
      (∀ n, (runAll (ops.take n) small).2.entries.Sublist (runAll (ops.take n) large).2.entries) ∧
      (runAll ops small).1.FoundIn (runAll ops large).1 := by
  obtain ⟨small, hsmall, hsmallRoom, hsmallEmpty⟩ := exists_new hroom
  obtain ⟨large, hlarge, hlargeRoom, hlargeEmpty⟩ := exists_new (Int.le_trans hroom hmore)
  have hcapacity : small.capacity ≤ large.capacity := by
    rw [hsmallRoom, hlargeRoom]
    exact Int.toNat_le_toNat hmore
  have hwithin := within_empty hcapacity hsmallEmpty hlargeEmpty
  refine ⟨small, large, hsmall, hlarge, fun n ↦ ?_, (hwithin.runAll ops).2⟩
  exact (hwithin.runAll (ops.take n)).1.sublist

private def reread : List Op :=
  [.put "a" { sql := "A" }, .put "b" { sql := "B" }, .get "a", .put "c" { sql := "C" }]

/-- The key that is read again has left the smaller cache. In the larger one it is found, and stays
when the next template is stored. -/
theorem found_in_larger_reread : (1 : Int) ≤ 1 ∧ (1 : Int) ≤ 2 ∧ ∃ small large,
    TemplateCache.new 1 = .ok small ∧ TemplateCache.new 2 = .ok large ∧
      (runAll reread small).2.keys = ["c"] ∧ (runAll reread large).2.keys = ["a", "c"] ∧
      (runAll reread small).2.entries.Sublist (runAll reread large).2.entries ∧
      (runAll reread small).1.FoundIn (runAll reread large).1 := by
  refine ⟨by decide, by decide, ?_⟩
  obtain ⟨small, large, hsmall, hlarge, hentries, hfound⟩ :=
    found_in_larger 1 2 (by decide) (by decide) reread
  refine ⟨small, large, hsmall, hlarge, ?_, ?_, hentries 4, hfound⟩
  · obtain rfl := Except.ok.inj hsmall
    decide
  · obtain rfl := Except.ok.inj hlarge
    decide

end Columnar.TemplateCache
