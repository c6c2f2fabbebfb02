import Columnar.Proofs.Identity.Grouping
import Columnar.Proofs.Value.Inspect

/-!
# Merged objects stand for one entity

The part of a key that a value makes tells it from the other values of its column, but for moments
less than two milliseconds apart (`Identity.same_of_part`). Where all key columns but one are free
of the delimiter, a key can be taken apart again, so that only objects of one entity are merged
(`Merge.byIdentity_joins`).
-/

namespace Columnar

namespace Identity

/-- The moment of a date or a date-time, in microseconds; a clock without offset shows universal
time. -/
def moment : Value → Option Int
  | .date d => some (DateTime.ofDate d).instant
  | .dateTime t => some t.instant
  | _ => none

/-- Whether one column can hold both values: they are of one kind, or one of them is null. -/
def OfOneColumn (v w : Value) : Prop :=
  v.kind = w.kind ∨ ((moment v).isSome ∧ (moment w).isSome) ∨ v = .null ∨ w = .null

/-- Whether two values are the same, or moments less than two milliseconds apart. -/
def Same (v w : Value) : Prop :=
  v = w ∨ ∃ a b, moment v = some a ∧ moment w = some b ∧ (a - b).natAbs < 2000

/-- Dates and date-times make the milliseconds of their moments. -/
private theorem exists_dateTime {v : Value} (h : (moment v).isSome) (hv : v.Sound) :
    ∃ t : DateTime, t.OffsetInRange ∧ part v = Text.ofInt t.epochMillis ∧
      moment v = some t.instant := by
  cases v with
  | date d => exact ⟨.ofDate d, DateTime.offsetInRange_ofDate d, rfl, rfl⟩
  | dateTime t => exact ⟨t, hv, rfl, rfl⟩
  | _ => cases h

private theorem same_of_moment {v w : Value} (hv : v.Sound) (hw : w.Sound)
    (hmoment : (moment v).isSome) (hmoment' : (moment w).isSome) (h : part v = part w) :
    Same v w := by
  obtain ⟨t, ht, hpart, hinstant⟩ := exists_dateTime hmoment hv
  obtain ⟨t', ht', hpart', hinstant'⟩ := exists_dateTime hmoment' hw
  rw [hpart, hpart'] at h
  exact .inr ⟨_, _, hinstant, hinstant',
    DateTime.near_of_epochMillis ht ht' (Text.ofInt_injective h)⟩

/-- Only null itself and the text of its name make the part that null makes. -/
private theorem eq_of_part_null {v : Value} (hv : v.Sound) (h : part v = "None") :
    v = .null ∨ v = .text "None" := by
  have hmillis {n : Int} (h : Text.ofInt n = "None") : False := by
    have hintegral := Text.isIntegral_of_mem_ofInt (n := n) 'N' (h ▸ by decide)
    cases hintegral
  cases v with
  | text s => exact .inr (congrArg Value.text h)
  -- what is written for the others reads back, and the name of null does not
  | decimal d =>
    have hread := Decimal.ofText?_toText d
    have hnone : Decimal.ofText? "None" = none := by decide +kernel
    have htext : d.toText = "None" := h
    rw [htext, hnone] at hread
    cases hread
  | uuid u =>
    have hdigits := u.filter_toText
    have htext : u.toText = "None" := h
    rw [htext] at hdigits
    have hlength := congrArg List.length hdigits
    rw [Text.length_hex (by decide) u.bits.isLt] at hlength
    exact absurd hlength (by decide)
  | date d => exact (hmillis h).elim
  | dateTime t => exact (hmillis h).elim
  | _ => exact .inl (Value.inspect_injective hv trivial h)

/-- Values of one kind that are not moments and make the same part are written alike. -/
private theorem inspect_of_part {v w : Value} (hkind : v.kind = w.kind) (hv : moment v = none)
    (h : part v = part w) : v.inspect = w.inspect := by
  cases v with
  | text s =>
    cases w with
    | text s' => exact congrArg Text.quote h
    | _ => cases hkind
  | decimal d =>
    cases w with
    | decimal d' => exact congrArg (fun s ↦ "Decimal(" ++ Text.quote s ++ ")") h
    | _ => cases hkind
  | uuid u =>
    cases w with
    | uuid u' => exact congrArg (fun s ↦ "UUID(" ++ Text.quote s ++ ")") h
    | _ => cases hkind
  | date d => cases hv
  | dateTime t => cases hv
  | _ => cases w <;> first | (cases hkind; done) | exact h

/-- Values of one kind are both moments or neither of them is. -/
private theorem isSome_moment {v w : Value} (hkind : v.kind = w.kind) (hv : (moment v).isSome) :
    (moment w).isSome := by
  cases v with
  | date d => cases w <;> first | rfl | cases hkind
  | dateTime t => cases w <;> first | rfl | cases hkind
  | _ => cases hv

/-- Values of one column that make the same part are the same, unless one is null and the other
one the text of its name. -/
theorem same_of_part {v w : Value} (hv : v.Sound) (hw : w.Sound) (hcolumn : OfOneColumn v w)
    (hnone : ¬ (v = .null ∧ w = .text "None")) (hnone' : ¬ (w = .null ∧ v = .text "None"))
    (h : part v = part w) : Same v w := by
  rcases hcolumn with hkind | ⟨hmoment, hmoment'⟩ | rfl | rfl
  · by_cases hmoment : (moment v).isSome
    · exact same_of_moment hv hw hmoment (isSome_moment hkind hmoment) h
    · rw [Option.not_isSome_iff_eq_none] at hmoment
      exact .inl (Value.inspect_injective hv hw (inspect_of_part hkind hmoment h))
  · exact same_of_moment hv hw hmoment hmoment' h
  · rcases eq_of_part_null hw h.symm with rfl | rfl
    · exact .inl rfl
    · exact absurd ⟨rfl, rfl⟩ hnone
  · rcases eq_of_part_null hv h with rfl | rfl
    · exact .inl rfl
    · exact absurd ⟨rfl, rfl⟩ hnone'

/-- What an object holds under a key. -/
def held (k : String) (object : Value) : Value :=
  (object.entries.toOption.map (Value.get k)).getD .null

/-- Objects whose keys can be read: each key column is of one type, and what it holds is sound; all
key columns but one are free of the delimiter; none holds both null and the text of its name. -/
structure Readable (keys : List String) (objects : List Value) : Prop where
  sound : ∀ o ∈ objects, ∀ k ∈ keys, (held k o).Sound
  columns : ∀ o ∈ objects, ∀ o' ∈ objects, ∀ k ∈ keys, OfOneColumn (held k o) (held k o')
  delimiter : ∃ i : Nat, ∀ j : Nat, j ≠ i → ∀ k ∈ keys[j]?, ∀ o ∈ objects,
    '|' ∉ (part (held k o)).toList
  names : ∀ o ∈ objects, ∀ o' ∈ objects, ∀ k ∈ keys,
    ¬ (held k o = .null ∧ held k o' = .text "None")

section Keys

variable {t : Table} {keys : List String} {objects : List Value} {o o' : Value} {s : String}

private theorem key_eq (hkeys : t.primaryKeys = .ok keys) (h : key t o = .ok s) :
    s = "|".intercalate (keys.map fun k ↦ part (held k o)) := by
  obtain ⟨_, hkeys', h⟩ := Succeeding.bind_eq_ok.mp h
  cases hkeys.symm.trans hkeys'
  cases keys with
  | nil => exact (Except.ok.inj h).symm
  | cons k ks =>
    obtain ⟨entries, hentries, h⟩ := Succeeding.bind_eq_ok.mp h
    have hheld : (fun k ↦ part (held k o)) = fun k ↦ part (Value.get k entries) := by
      funext k
      rw [held, hentries]
      rfl
    rw [hheld]
    exact (Except.ok.inj h).symm

/-- Objects of one key make the same parts. -/
private theorem part_eq_of_key (hkeys : t.primaryKeys = .ok keys) (hread : Readable keys objects)
    (ho : o ∈ objects) (ho' : o' ∈ objects) (h : key t o = .ok s) (h' : key t o' = .ok s) :
    ∀ k ∈ keys, part (held k o) = part (held k o') := by
  have hjoined := (key_eq hkeys h).symm.trans (key_eq hkeys h')
  -- only the part at `i` may have delimiters, so the others end at theirs from both sides
  obtain ⟨i, hdelimiter⟩ := hread.delimiter
  have hfree {o : Value} (ho : o ∈ objects) : ∀ j, j ≠ i →
      ∀ z ∈ (keys.map fun k ↦ (part (held k o)).toList)[j]?, '|' ∉ z := by
    intro j hj z hz
    rw [List.getElem?_map] at hz
    obtain ⟨k, hk, rfl⟩ := Option.map_eq_some_iff.mp hz
    exact hdelimiter j hj k hk o ho
  cases keys with
  | nil => exact fun k hk ↦ absurd hk List.not_mem_nil
  | cons k ks =>
    have hchars := congrArg String.toList hjoined
    rw [String.toList_intercalate, String.toList_intercalate, List.map_map, List.map_map,
      List.map_cons, List.map_cons, Splitting.intercalate_cons, Splitting.intercalate_cons]
      at hchars
    obtain ⟨hfirst, hrest⟩ := Splitting.eq_of_joined i (by simp) (hfree ho) (hfree ho') hchars
    rw [List.map_inj_left] at hrest
    intro k' hk'
    rcases List.mem_cons.mp hk' with rfl | hk'
    · exact String.toList_injective hfirst
    · exact String.toList_injective (hrest k' hk')

/-- Readable objects of one key hold the same values under it. -/
theorem same_of_key (hkeys : t.primaryKeys = .ok keys) (hread : Readable keys objects)
    (ho : o ∈ objects) (ho' : o' ∈ objects) (h : key t o = .ok s) (h' : key t o' = .ok s) :
    ∀ k ∈ keys, Same (held k o) (held k o') := fun k hk ↦
  same_of_part (hread.sound o ho k hk) (hread.sound o' ho' k hk) (hread.columns o ho o' ho' k hk)
    (hread.names o ho o' ho' k hk) (hread.names o' ho' o ho k hk)
    (part_eq_of_key hkeys hread ho ho' h h' k hk)

end Keys

end Identity

namespace Merge

open Identity

/-- The key of an object tells what it holds in the columns of the primary key, and merging only
joins objects that hold the same there. -/
theorem byIdentity_joins {t : Table} {nodes : List Node} {keys : List String}
    {objects : List Value} (hkeys : t.primaryKeys = .ok keys) (hread : Readable keys objects) :
    (∀ o ∈ objects, ∀ o' ∈ objects, ∀ s, key t o = .ok s → key t o' = .ok s →
      ∀ k ∈ keys, Same (held k o) (held k o')) ∧
    ∀ merged, (byIdentity t nodes objects).result = .ok merged →
      ∃ groups : List (List Value), groups.flatten.Perm objects ∧
        List.Forall₂ (Folds nodes) groups merged ∧
        ∀ group ∈ groups, ∀ o ∈ group, ∀ o' ∈ group, ∀ k ∈ keys, Same (held k o) (held k o') := by
  refine ⟨fun o ho o' ho' s h h' ↦ same_of_key hkeys hread ho ho' h h', fun merged hmerged ↦ ?_⟩
  obtain ⟨groups, grouped, hperm, hgroups, rfl⟩ := grouped_of_byIdentity hmerged
  refine ⟨groups, hperm, ?_, fun group hgroup o ho o' ho' ↦ ?_⟩
  · rw [List.forall₂_map_right_iff]
    exact hgroups.imp fun _ _ hgroup ↦ hgroup.folds
  · have hmem {o : Value} (ho : o ∈ group) : o ∈ objects :=
      hperm.subset (List.mem_flatten_of_mem hgroup ho)
    obtain ⟨e, -, he⟩ := Succeeding.exists_of_forall₂ hgroups hgroup
    exact same_of_key hkeys hread (hmem ho) (hmem ho') (he.keys o ho) (he.keys o' ho')

private def visits : Table :=
  { name := "visits"
    columns := [("site", { name := "site", type := "String" }),
      ("at", { name := "at", type := "DateTime64(6)" })]
    options := { primaryKey := ["site", "at"] } }

/-- A visit some microseconds after the start of 1970. -/
private def visit (site : String) (micros : Fin 1000000) (offset : Option Int) : Value :=
  .map [(.text "site", .text site),
    (.text "at", .dateTime ⟨719162 * microsPerDay + micros, by
      have h := micros.isLt
      have hday : microsPerDay = 86400000000 := rfl
      have hdays : dayCount = 3652059 := rfl
      rw [hday, hdays]
      omega, offset⟩)]

/-- Visits of two sites, of which one holds the delimiter; two are at the same moment of one. -/
private def threeVisits : List Value :=
  [visit "a|b" 5000 none, visit "c" 5000 none, visit "a|b" 5000 (some 0)]

private theorem exists_visit {o : Value} (ho : o ∈ threeVisits) :
    ∃ site, o = visit site 5000 none ∨ o = visit site 5000 (some 0) := by
  simp only [threeVisits, List.mem_cons, List.not_mem_nil, or_false] at ho
  rcases ho with rfl | rfl | rfl
  · exact ⟨_, .inl rfl⟩
  · exact ⟨_, .inl rfl⟩
  · exact ⟨_, .inr rfl⟩

private theorem eq_or_of_mem {k : String} (hk : k ∈ ["site", "at"]) : k = "site" ∨ k = "at" := by
  simpa using hk

private theorem threeVisits_readable : Readable ["site", "at"] threeVisits where
  sound o ho k hk := by
    obtain ⟨site, rfl | rfl⟩ := exists_visit ho <;> rcases eq_or_of_mem hk with rfl | rfl
    · trivial
    · rintro seconds ⟨⟩
    · trivial
    · rintro seconds ⟨⟩
      decide
  columns o ho o' ho' k hk := by
    obtain ⟨site, rfl | rfl⟩ := exists_visit ho <;>
      obtain ⟨site', rfl | rfl⟩ := exists_visit ho' <;>
      rcases eq_or_of_mem hk with rfl | rfl <;> exact .inl rfl
  delimiter := by
    refine ⟨0, fun j hj k hk o ho ↦ ?_⟩
    obtain ⟨j, rfl⟩ := Nat.exists_eq_succ_of_ne_zero hj
    cases j with
    | zero =>
      cases hk
      have hpart : part (held "at" o) = "5" := by
        obtain ⟨site, rfl | rfl⟩ := exists_visit ho <;> rfl
      rw [hpart]
      decide
    | succ j => cases hk
  names o ho o' ho' k hk := by
    rintro ⟨hnull, -⟩
    obtain ⟨site, rfl | rfl⟩ := exists_visit ho <;>
      rcases eq_or_of_mem hk with rfl | rfl <;> cases hnull

/-- Three visits are merged into two, each of one site and moment. -/
theorem byIdentity_joins_visits :
    visits.primaryKeys = .ok ["site", "at"] ∧ Readable ["site", "at"] threeVisits ∧
      ∃ merged, (byIdentity visits [] threeVisits).result = .ok merged ∧ merged.length = 2 ∧
        ∃ groups : List (List Value), groups.flatten.Perm threeVisits ∧
          List.Forall₂ (Folds []) groups merged ∧
          ∀ group ∈ groups, ∀ o ∈ group, ∀ o' ∈ group, ∀ k ∈ ["site", "at"],
            Same (held k o) (held k o') := by
  have hmerged : (byIdentity visits [] threeVisits).result =
      .ok [visit "a|b" 5000 none, visit "c" 5000 none] := rfl
  exact ⟨rfl, threeVisits_readable, _, hmerged, rfl,
    (byIdentity_joins rfl threeVisits_readable).2 _ hmerged⟩

/-- Two visits of one site become one, though they are a microsecond apart. -/
theorem not_byIdentity_joins :
    visits.primaryKeys = .ok ["site", "at"] ∧
      (byIdentity visits [] [visit "c" 5000 none, visit "c" 5001 none]).result =
        .ok [visit "c" 5000 none] ∧
      ∃ a b, moment (held "at" (visit "c" 5000 none)) = some a ∧
        moment (held "at" (visit "c" 5001 none)) = some b ∧ a ≠ b :=
  ⟨rfl, rfl, _, _, rfl, rfl, by decide⟩

end Merge

end Columnar
