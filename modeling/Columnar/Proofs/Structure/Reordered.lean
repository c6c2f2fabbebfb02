import Columnar.Proofs.Keys.Reading
import Columnar.Proofs.Parts

/-!
# The order of settings and windows

Settings and windows are maps: the order in which their entries were given is kept, and yet nothing
shows it. Queries that are the same but for this order, at any depth, compile to the same statement
and have the same fingerprint (`Query.compile_eq_of_reordered`), also where the table adds a setting
of its own.
-/

namespace Columnar

/-- The same entries of a map, perhaps in another order. -/
structure Keyed.Reordered {α : Type} (xs ys : List (String × α)) : Prop where
  perm : xs.Perm ys
  nodup : (Keyed.keys xs).Nodup

namespace Keyed.Reordered

variable {α β : Type} {xs ys : List (String × α)}

theorem sorted_eq (h : Reordered xs ys) : Setting.sorted xs = Setting.sorted ys :=
  Setting.sorted_eq_of_perm h.nodup h.perm

theorem isEmpty_eq (h : Reordered xs ys) : xs.isEmpty = ys.isEmpty := by
  rw [← Setting.isEmpty_sorted xs, h.sorted_eq, Setting.isEmpty_sorted]

theorem contains_eq (h : Reordered xs ys) (key : String) : contains key xs = contains key ys := by
  rw [Bool.eq_iff_iff, contains, contains, List.contains_iff_mem, List.contains_iff_mem]
  exact (h.perm.map Prod.fst).mem_iff

theorem mapValues (h : Reordered xs ys) (f : α → β) :
    Reordered (Keyed.mapValues f xs) (Keyed.mapValues f ys) where
  perm := h.perm.map _
  nodup := by
    rw [keys, Keyed.mapValues, List.map_map]
    exact h.nodup

/-- A new entry can be added behind all others. -/
theorem snoc (h : Reordered xs ys) {key : String} (hkey : ¬ contains key xs = true) (value : α) :
    Reordered (xs ++ [(key, value)]) (ys ++ [(key, value)]) where
  perm := h.perm.append_right _
  nodup := by
    rw [contains, List.contains_iff_mem] at hkey
    rw [← Keyed.set_new hkey]
    exact Keyed.nodup_keys_set h.nodup

end Keyed.Reordered

/-! ### Clauses -/

/-- Clauses that are the same but for the order of settings and of windows. -/
inductive Clauses.Reordered (c : Clauses) : Clauses → Prop
  | mk {settings : List (String × Value)} {windows : List (String × String)} :
    Keyed.Reordered c.settings settings → Keyed.Reordered c.windows windows →
    Reordered c { c with settings, windows }

namespace Clauses.Reordered

variable {c c' : Clauses}

theorem writeWindows_eq (h : c.Reordered c') : c.writeWindows = c'.writeWindows := by
  obtain ⟨-, hwindows⟩ := h
  unfold writeWindows
  cases c.misfits.windows with
  | none => simp only [windowText, hwindows.sorted_eq, hwindows.isEmpty_eq]
  | some v => rfl

/-- The query sets the same settings, and so the table adds its own to both or to neither. -/
theorem addsProjections_eq (h : c.Reordered c') (t : Table) :
    c.addsProjections t = c'.addsProjections t := by
  obtain ⟨hsettings, -⟩ := h
  have hsets (d : List (String × String)) (s : List (String × Value))
      (hs : Keyed.Reordered c.settings s) :
      c.setsProjections = ({ c with settings := s, windows := d } : Clauses).setsProjections := by
    unfold setsProjections
    cases c.misfits.settings with
    | none => exact hs.contains_eq _
    | some v => rfl
  rw [addsProjections, addsProjections, ← hsets _ _ hsettings]

/-- All settings are the same but for their order, the one that the table adds included. -/
theorem allSettings (h : c.Reordered c') (hm : c.misfits.settings = none) (t : Table) :
    Keyed.Reordered (c.allSettings t) (c'.allSettings t) := by
  have hadds := h.addsProjections_eq t
  obtain ⟨hsettings, -⟩ := h
  unfold Clauses.allSettings
  rw [← hadds]
  split
  · next hadd =>
    refine hsettings.snoc (fun hset ↦ ?_) _
    simp [addsProjections, setsProjections, hm, hset] at hadd
  · exact hsettings

theorem writeSettings_eq (h : c.Reordered c') (t : Table) :
    c.writeSettings t = c'.writeSettings t := by
  have hadds := h.addsProjections_eq t
  have hmisfits : c'.misfits = c.misfits := by
    obtain ⟨-, -⟩ := h
    rfl
  unfold writeSettings
  rw [hmisfits]
  cases hm : c.misfits.settings with
  | none =>
    have hall := h.allSettings hm t
    simp only [settingsText, hall.sorted_eq, hall.isEmpty_eq]
  | some v => simp only [hadds]

theorem writeSuggestions_eq (h : c.Reordered c') (t : Table) :
    c.writeSuggestions t = c'.writeSuggestions t := by
  have hadds := h.addsProjections_eq t
  obtain ⟨-, -⟩ := h
  simp only [writeSuggestions, allSuggestions, projectionHints, hadds]

theorem write_eq (h : c.Reordered c') (ctes : List (String × Traced Statement)) (t : Table)
    (inner : Option (Traced Statement)) : c.write ctes t inner = c'.write ctes t inner := by
  have hwindows := h.writeWindows_eq
  have hsettings := h.writeSettings_eq t
  have hsuggestions := h.writeSuggestions_eq t
  obtain ⟨-, -⟩ := h
  unfold write
  rw [hwindows, hsettings, hsuggestions]
  rfl

theorem tail_eq (h : c.Reordered c') : Fingerprint.tail c = Fingerprint.tail c' := by
  obtain ⟨hsettings, hwindows⟩ := h
  have hkeyed {xs ys : List (String × String)} (hxs : Keyed.Reordered xs ys) (head : String) :
      Fingerprint.entriesText head xs = Fingerprint.entriesText head ys := by
    unfold Fingerprint.entriesText
    rw [hxs.sorted_eq, hxs.isEmpty_eq]
  unfold Fingerprint.tail Fingerprint.settingsText Fingerprint.windowsText
  rw [hkeyed (hsettings.mapValues _), hkeyed hwindows]
  rfl

end Clauses.Reordered

/-! ### Queries -/

namespace Query

/-- Queries that are the same but for the order of settings and of windows, also in the named
subqueries in front of them and in the derived tables they read. -/
inductive Reordered : Query → Query → Prop
  | mk {c c' : Clauses} {ctes ctes' : List (String × Query)}
    {source source' : Option (Table × Option Query)} : c.Reordered c' →
    ctes.map Prod.fst = ctes'.map Prod.fst →
    List.Forall₂ Reordered (ctes.map Prod.snd) (ctes'.map Prod.snd) →
    source.map Prod.fst = source'.map Prod.fst →
    Option.Rel Reordered (source.bind Prod.snd) (source'.bind Prod.snd) →
    Reordered (mk c ctes source) (mk c' ctes' source')

/-- Subqueries that compile alike, under the same names. -/
private theorem compiled_eq {ctes ctes' : List (String × Query)}
    (hnames : ctes.map Prod.fst = ctes'.map Prod.fst)
    (h : (ctes.map Prod.snd).map compile = (ctes'.map Prod.snd).map compile) :
    (ctes.map fun e ↦ (e.1, e.2.compile)) = ctes'.map fun e ↦ (e.1, e.2.compile) := by
  have hzip (ctes : List (String × Query)) : (ctes.map fun e ↦ (e.1, e.2.compile)) =
      (ctes.map Prod.fst).zip ((ctes.map Prod.snd).map compile) := by
    rw [List.map_map, List.zip_map']
    rfl
  rw [hzip, hzip, hnames, h]

/-- The parts for named subqueries are made of their statements. -/
private theorem ofCtes_eq (ctes : List (String × Query)) : Fingerprint.ofCtes ctes =
    (ctes.map fun e ↦ (e.1, e.2.compile)).mapM fun e ↦ do
      return Fingerprint.ofStatement ("(" ++ e.1 ++ ":") ")" (← e.2) := by
  rw [List.mapM_map]
  rfl

/-- Sources that read the same table, and queries that compile alike. -/
private theorem compiledSource_eq {source source' : Option (Table × Option Query)}
    (htables : source.map Prod.fst = source'.map Prod.fst)
    (h : (source.bind Prod.snd).map compile = (source'.bind Prod.snd).map compile) :
    compileSource source = compileSource source' := by
  have hcompiled (source : Option (Table × Option Query)) :
      compileSource source = (source.map Prod.fst).map fun t ↦
        (t, (source.bind Prod.snd).map compile) := by
    rcases source with _ | ⟨t, _ | q⟩ <;> rfl
  rw [hcompiled, hcompiled, htables, h]

/-- The part of a source is made of its statement. -/
private theorem ofSource_eq {c : Clauses} {source source' : Option (Table × Option Query)}
    (h : compileSource source = compileSource source') :
    Fingerprint.ofSource c source = Fingerprint.ofSource c source' := by
  rcases source with _ | ⟨t, _ | q⟩ <;> rcases source' with _ | ⟨t', _ | q'⟩ <;>
    simp only [compileSource, reduceCtorEq, Option.some.injEq, Prod.mk.injEq, and_false,
      and_true] at h
  · rfl
  · rw [h]
  · obtain ⟨rfl, hq⟩ := h
    simp only [Fingerprint.ofSource, hq]

/-- The order in which settings and windows were given, in a query or in any of its subqueries, does
not show: the query compiles to the same statement or fails in the same way, and its fingerprint is
the same. -/
theorem compile_eq_of_reordered {q q' : Query} (h : q.Reordered q') :
    q.compile = q'.compile ∧ q.fingerprint = q'.fingerprint := by
  induction q using Query.induction generalizing q' with
  | step c ctes source ihCtes ihSource =>
    cases h with
    | @mk _ c' _ ctes' _ source' hc hnames hctes htables hsource =>
      have hcompiled : (ctes.map fun e ↦ (e.1, e.2.compile)) =
          ctes'.map fun e ↦ (e.1, e.2.compile) := by
        refine compiled_eq hnames ?_
        have hmembers : ∀ q ∈ ctes.map Prod.snd, ∀ {q'}, q.Reordered q' →
            q.compile = q'.compile ∧ q.fingerprint = q'.fingerprint := by
          intro q hq
          obtain ⟨e, he, rfl⟩ := List.mem_map.mp hq
          exact ihCtes e he
        exact Succeeding.map_eq ((List.forall₂_and_left _ _).mpr ⟨hmembers, hctes⟩)
          fun q q' hq ↦ (hq.1 hq.2).1
      have hread : compileSource source = compileSource source' := by
        refine compiledSource_eq htables ?_
        have hinner : ∀ q, source.bind Prod.snd = some q → ∀ {q'}, q.Reordered q' →
            q.compile = q'.compile ∧ q.fingerprint = q'.fingerprint := by
          intro q hq
          rcases source with _ | ⟨t, inner⟩
          · cases hq
          · exact ihSource t q (congrArg (fun inner ↦ some (t, inner)) hq)
        generalize source.bind Prod.snd = inner at hsource hinner
        generalize source'.bind Prod.snd = inner' at hsource
        cases hsource with
        | none => rfl
        | some hq => exact congrArg some (hinner _ rfl hq).1
      have hmisfits : c'.misfits = c.misfits := by
        obtain ⟨-, -⟩ := hc
        rfl
      constructor
      · rw [compile, compile, compileCtes_eq, compileCtes_eq, hcompiled, hread, hmisfits]
        simp only [hc.write_eq]
      · have htail := hc.tail_eq
        have hparts : Fingerprint.ofCtes ctes = Fingerprint.ofCtes ctes' := by
          rw [ofCtes_eq, ofCtes_eq, hcompiled]
        obtain ⟨-, -⟩ := hc
        unfold fingerprint
        change (_ >>= fun _ ↦ Fingerprint.ofCtes ctes >>= _) =
          (_ >>= fun _ ↦ Fingerprint.ofCtes ctes' >>= _)
        rw [hparts]
        simp only [clauses, Query.source, ofSource_eq hread, htail]
        rfl

private def quickest (windows : List (String × String)) : Query :=
  .mk { windows } [] (some ({ name := "metrics" }, none))

private def ranked (settings : List (String × Value)) (windows : List (String × String)) : Query :=
  .mk { settings } [("quickest", quickest windows)]
    (some ({ name := "metrics", options := { projections := ["by_value"] } }, none))

private def threads : String × Value := ("max_threads", .int 2)

private def balancing : String × Value := ("load_balancing", .text "random")

/-- Settings of a table with projections, and windows of a subquery in front, each given in two
orders. -/
theorem compile_eq_of_reordered_ranked :
    (ranked [threads, balancing] [("b", "ORDER BY id"), ("a", "ORDER BY value")]).Reordered
      (ranked [balancing, threads] [("a", "ORDER BY value"), ("b", "ORDER BY id")]) ∧
    (ranked [threads, balancing] [("b", "ORDER BY id"), ("a", "ORDER BY value")]).compile =
      (ranked [balancing, threads] [("a", "ORDER BY value"), ("b", "ORDER BY id")]).compile ∧
    (ranked [threads, balancing] [("b", "ORDER BY id"), ("a", "ORDER BY value")]).fingerprint =
      (ranked [balancing, threads]
        [("a", "ORDER BY value"), ("b", "ORDER BY id")]).fingerprint := by
  have hquickest : (quickest [("b", "ORDER BY id"), ("a", "ORDER BY value")]).Reordered
      (quickest [("a", "ORDER BY value"), ("b", "ORDER BY id")]) :=
    .mk (.mk ⟨.nil, .nil⟩ ⟨.swap .., by decide⟩) rfl .nil rfl .none
  have h : (ranked [threads, balancing] [("b", "ORDER BY id"), ("a", "ORDER BY value")]).Reordered
      (ranked [balancing, threads] [("a", "ORDER BY value"), ("b", "ORDER BY id")]) :=
    .mk (.mk ⟨.swap .., by decide⟩ ⟨.nil, .nil⟩) rfl (.cons hquickest .nil) rfl .none
  exact ⟨h, compile_eq_of_reordered h⟩

end Query

end Columnar
