import Columnar.Proofs.Fetch.Resolved
import Columnar.Schema.Community

/-!
# Relations requested by mappings

A relation is requested by a mapping of options: they are the defaults but for what the mapping
gives (`FindOptions.Overrides`), and the relation is planned with what is requested below it
(`Plan.entry_eq`). The empty mapping is read as the defaults, too, but it does not count as present,
so that nothing is planned for it and nothing is logged (`Plan.requested_by_mapping`).
-/

namespace Columnar

/-! ### Checks without problems -/

namespace Checked

variable {α β : Type}

theorem toExcept_eq_ok {x : Checked α} {a : α} : x.toExcept = .ok a ↔ x = good a := by
  rcases x with problems | a'
  · exact ⟨nofun, nofun⟩
  · exact ⟨fun h ↦ congrArg good (Except.ok.inj h), fun h ↦ congrArg toExcept h⟩

/-- Checks that run side by side have no problem when neither has one. -/
theorem seq_eq_good {f : Checked (α → β)} {x : Checked α} {b : β} :
    f <*> x = good b ↔ ∃ g a, f = good g ∧ x = good a ∧ g a = b := by
  constructor
  · intro h
    rcases f with problems | g <;> rcases x with problems' | a
    · cases h
    · cases h
    · cases h
    · exact ⟨g, a, rfl, rfl, Except.ok.inj h⟩
  · rintro ⟨g, a, rfl, rfl, rfl⟩
    rfl

theorem map_eq_good {f : α → β} {x : Checked α} {b : β} :
    f <$> x = good b ↔ ∃ a, x = good a ∧ f a = b := by
  rw [show f <$> x = good f <*> x from rfl, seq_eq_good]
  constructor
  · rintro ⟨g, a, hg, hx, rfl⟩
    exact ⟨a, hx, congrFun (Except.ok.inj hg) a⟩
  · rintro ⟨a, hx, rfl⟩
    exact ⟨f, a, rfl, hx, rfl⟩

theorem field_eq_good {path : String} {x : Except Issue α} {a : α} :
    field path x = good a ↔ x = .ok a := by
  rcases x with issue | a'
  · exact ⟨nofun, nofun⟩
  · exact ⟨fun h ↦ congrArg Except.ok (Except.ok.inj h), fun h ↦ congrArg good (Except.ok.inj h)⟩

end Checked

/-! ### Options of mappings -/

namespace FindOptions

/-- Options that are the defaults but for the values of named fields. No key that these were given
under names the strategy or no option at all. -/
structure Overrides (keys : List Value) (given : List (String × Field)) (options : FindOptions) :
    Prop where
  keys : ∀ key ∈ keys, ∃ name ∈ ["where", "limit", "offset", treeName given], key = .text name
  filter : options.filter = (Keyed.find? "where" given).elim default Field.toFilter
  limit : (Keyed.find? "limit" given).elim (.ok none) Field.readInteger = .ok options.limit
  offset : (Keyed.find? "offset" given).elim (.ok none) Field.readInteger = .ok options.offset
  related : (Keyed.find? (treeName given) given).elim (Checked.good none) Field.readTree =
    Checked.good options.related
  strategy : options.strategy = .auto
  unset : options.setsStrategy = false

variable {keys : List Value} {given : List (String × Field)} {options : FindOptions}

/-- A key that is no problem is the name of an option. -/
theorem exists_name_of_keyProblem? {tree : String} {key : Value} (h : keyProblem? tree key = none) :
    ∃ name ∈ ["where", "limit", "offset", tree, "join_strategy"], key = .text name := by
  unfold keyProblem? at h
  split at h
  · next name =>
    split at h
    · next hcontains => exact ⟨name, List.contains_iff_mem.mp hcontains, rfl⟩
    · cases h
  · cases h

/-- Options that are read without problems and set no strategy override the defaults. -/
theorem overrides_of_readUnder
    (hkeys : .text "join_strategy" ∈ keys → "join_strategy" ∈ Keyed.keys given)
    (hread : readUnder keys given = Checked.good options) (hunset : options.setsStrategy = false) :
    options.Overrides keys given := by
  unfold readUnder at hread
  extract_lets integer tree strategy problems extra filter at hread
  have hinteger (name : String) {n? : Option Int} (h : integer name = Checked.good n?) :
      (Keyed.find? name given).elim (.ok none) Field.readInteger = .ok n? := by
    unfold integer at h
    rcases hfound : Keyed.find? name given with _ | f <;> rw [hfound] at h
    · exact congrArg Except.ok (Except.ok.inj h)
    · exact Checked.field_eq_good.mp h
  -- The checks stand in a row, the last one outermost.
  obtain ⟨make, ⟨⟩, hfour, hextra, rfl⟩ := Checked.seq_eq_good.mp hread
  obtain ⟨make, named, hthree, hstrategy, rfl⟩ := Checked.seq_eq_good.mp hfour
  obtain ⟨make, related, htwo, htree, rfl⟩ := Checked.seq_eq_good.mp hthree
  obtain ⟨make, offset, hone, hoffset, rfl⟩ := Checked.seq_eq_good.mp htwo
  obtain ⟨limit, hlimit, rfl⟩ := Checked.map_eq_good.mp hone
  have habsent : "join_strategy" ∉ Keyed.keys given := by
    simpa [Keyed.contains] using hunset
  have hproblems : problems = [] := by
    by_contra hsome
    unfold extra at hextra
    rw [if_neg (by simpa using hsome)] at hextra
    cases hextra
  refine ⟨?_, rfl, hinteger _ hlimit, hinteger _ hoffset, ?_, ?_, hunset⟩
  · intro key hkey
    obtain ⟨name, hname, rfl⟩ :=
      exists_name_of_keyProblem? (List.filterMap_eq_nil_iff.mp hproblems key hkey)
    have hne : name ≠ "join_strategy" := by
      rintro rfl
      exact habsent (hkeys hkey)
    exact ⟨name, by simpa [hne] using hname, rfl⟩
  · unfold tree at htree
    rcases hfound : Keyed.find? (treeName given) given with _ | f <;> rw [hfound] at htree <;>
      exact htree
  · unfold strategy at hstrategy
    rw [Keyed.find?_eq_none habsent] at hstrategy
    exact (Except.ok.inj hstrategy).symm

/-- Defaults that are given over again change nothing. -/
theorem Overrides.eq_default (h : options.Overrides keys given)
    (hnull : ∀ e ∈ given, e.2 = .plain .null) : options = {} := by
  have hfind (name : String) : Keyed.find? name given = none ∨
      Keyed.find? name given = some (.plain .null) := by
    rcases hfound : Keyed.find? name given with _ | f
    · exact .inl rfl
    · exact .inr (congrArg some (hnull _ (Keyed.mem_of_find? hfound)))
  have hfilter : options.filter = default := by
    rcases hfind "where" with hfound | hfound <;> rw [h.filter, hfound] <;> rfl
  have hlimit : options.limit = none := by
    rcases hfind "limit" with hfound | hfound <;>
      exact (Except.ok.inj (hfound ▸ h.limit)).symm
  have hoffset : options.offset = none := by
    rcases hfind "offset" with hfound | hfound <;>
      exact (Except.ok.inj (hfound ▸ h.offset)).symm
  have hrelated : options.related = none := by
    rcases hfind (treeName given) with hfound | hfound <;>
      exact (Except.ok.inj (hfound ▸ h.related)).symm
  have hstrategy := h.strategy
  have hunset := h.unset
  obtain ⟨filter, limit, offset, related, strategy, sets⟩ := options
  cases hfilter; cases hlimit; cases hoffset; cases hrelated; cases hstrategy; cases hunset
  rfl

end FindOptions

namespace Choice

/-- Whether options are given as a mapping. -/
def isMapping : Choice → Bool
  | plain (.map _) | fields _ => true
  | _ => false

/-- The keys under which something is given. -/
def keys : Choice → List Value
  | plain (.map entries) | nameless (.map entries) => entries.map Prod.fst
  | fields entries | ready entries => (Keyed.keys entries).map .text
  | plain _ | nameless _ => []

/-- What is given under names. -/
def given : Choice → List (String × Field)
  | plain (.map entries) | nameless (.map entries) => entries.filterMap fun
    | (.text name, v) => some (name, .plain v)
    | _ => none
  | fields entries | ready entries => entries
  | plain _ | nameless _ => []

variable {m : Choice}

theorem options_eq_ok (hmapping : m.isMapping = true) {options : FindOptions} :
    m.options = .ok options ↔
      FindOptions.readUnder m.keys m.given = Checked.good options := by
  unfold isMapping at hmapping
  split at hmapping
  · exact Checked.toExcept_eq_ok
  · exact Checked.toExcept_eq_ok
  · cases hmapping

theorem isNamed_of_isMapping (hmapping : m.isMapping = true) : m.isNamed = true := by
  unfold isMapping at hmapping
  split at hmapping
  · rfl
  · rfl
  · cases hmapping

/-- A mapping counts as present when it is not empty. -/
theorem isPresent_eq (hmapping : m.isMapping = true) : m.isPresent = !m.keys.isEmpty := by
  unfold isMapping at hmapping
  split at hmapping
  · next entries => cases entries <;> rfl
  · next entries => cases entries <;> rfl
  · cases hmapping

theorem text_mem_keys (hmapping : m.isMapping = true) {name : String} :
    .text name ∈ m.keys ↔ name ∈ Keyed.keys m.given := by
  unfold isMapping at hmapping
  split at hmapping
  · next entries =>
    constructor
    · intro h
      obtain ⟨⟨key, v⟩, he, rfl⟩ := List.mem_map.mp h
      exact List.mem_map.mpr ⟨(name, .plain v), List.mem_filterMap.mpr ⟨_, he, rfl⟩, rfl⟩
    · intro h
      obtain ⟨e, he, rfl⟩ := List.mem_map.mp h
      obtain ⟨⟨key, v⟩, hkey, heq⟩ := List.mem_filterMap.mp he
      split at heq
      · next hentry =>
        cases hentry
        cases heq
        exact List.mem_map.mpr ⟨_, hkey, rfl⟩
      · cases heq
  · next entries => exact List.mem_map_of_injective fun _ _ ↦ Value.text.inj
  · cases hmapping

/-- Options of a mapping that set no strategy override the defaults. -/
theorem overrides (hmapping : m.isMapping = true) {options : FindOptions}
    (hoptions : m.options = .ok options) (hunset : options.setsStrategy = false) :
    options.Overrides m.keys m.given :=
  FindOptions.overrides_of_readUnder (text_mem_keys hmapping).mp
    ((options_eq_ok hmapping).mp hoptions) hunset

end Choice

/-! ### Plans -/

namespace Plan

/-- A single request is planned by itself. -/
theorem nodes_singleton (c : Catalog) (depth : Nat) (id : TableId) (stem : String)
    (request : String × Choice) :
    nodes c (depth + 1) id stem [request] =
      entry c (nodes c depth) id stem request >>= fun n? ↦ pure n?.toList := by
  rw [nodes, List.mapM_cons, List.mapM_nil]
  simp only [pure_bind, bind_assoc]
  refine bind_congr fun n? ↦ ?_
  cases n? <;> rfl

/-- A mapping of options that are read and set no strategy gives the defaults but for what it holds.
It requests a relation that is declared with columns to join on: when the mapping is not empty, and
what is requested below is planned, the plan has this relation with these options. An empty mapping
has the defaults and requests nothing, without a warning. Where a mapping that is not empty has the
defaults, as it does when it holds nothing but nulls, it requests what a plain truth value does. -/
theorem requested_by_mapping (c : Catalog) (depth : Nat) (id : TableId) (stem name : String)
    (m : Choice) (relation : Relation) (condition : Expr) (options : FindOptions)
    (hmapping : m.isMapping = true)
    (hdeclared : Keyed.find? name (c.entry id).relations = some relation)
    (hcondition : relation.joinCondition? c = .ok (some condition))
    (hoptions : m.options = .ok options) (hunset : options.setsStrategy = false) :
    options.Overrides m.keys m.given ∧
      (m.keys ≠ [] → ∀ children,
        (under (nodes c depth) (c.table id) relation stem name options).result = .ok children →
          nodes c (depth + 1) id stem [(name, m)] =
            ⟨(under (nodes c depth) (c.table id) relation stem name options).log,
              .ok [.mk (relation.level c stem name condition options) children]⟩) ∧
      (m.keys = [] → options = {} ∧ nodes c (depth + 1) id stem [(name, m)] = pure []) ∧
      ((∀ e ∈ m.given, e.2 = .plain .null) → options = {}) ∧
      (options = {} → m.keys ≠ [] →
        nodes c (depth + 1) id stem [(name, m)] =
          nodes c (depth + 1) id stem [(name, .plain (.bool true))]) := by
  have hoverrides := Choice.overrides hmapping hoptions hunset
  have hnamed : ∀ {choice : Choice}, choice.isNamed = true →
      relation? c id (name, choice) = some relation := by
    intro choice h
    rw [relation?, if_pos h, hdeclared]
  have hrelation := hnamed (Choice.isNamed_of_isMapping hmapping)
  have hpresent : m.keys ≠ [] → m.isPresent = true := by
    intro hkeys
    rw [Choice.isPresent_eq hmapping]
    simpa using hkeys
  refine ⟨hoverrides, ?_, ?_, hoverrides.eq_default, ?_⟩
  · intro hkeys children hchildren
    rw [nodes_singleton, entry_eq (hpresent hkeys) hrelation hcondition hoptions hunset,
      bind_assoc, Traced.bind_of_result hchildren]
    simp
  · intro hkeys
    have habsent : m.isPresent = false := by
      rw [Choice.isPresent_eq hmapping, hkeys]
      rfl
    refine ⟨hoverrides.eq_default ?_, ?_⟩
    · intro e he
      have hkey := (Choice.text_mem_keys hmapping).mpr (List.mem_map_of_mem he)
      rw [hkeys] at hkey
      cases hkey
    · rw [nodes_singleton, entry_of_absent habsent, pure_bind]
      rfl
  · rintro rfl hkeys
    rw [nodes_singleton, nodes_singleton,
      entry_eq (hpresent hkeys) hrelation hcondition hoptions hunset,
      entry_eq rfl (hnamed rfl) hcondition rfl rfl]

/-- A limit, and badges below. -/
private def limitedWithBadges : Choice :=
  .fields [("limit", .plain (.text " 5 ")), ("with_", .tree [("badges", .plain (.bool true))])]

/-- A profile is planned with the limit that a text stands for, and with badges below. -/
theorem requested_by_mapping_profile : ∃ n,
    (root Community.catalog 0 [("profile", limitedWithBadges)]).result = .ok [n] ∧
      n.level.options.Overrides limitedWithBadges.keys limitedWithBadges.given ∧
      n.level.options.limit = some 5 ∧ n.children.map (·.level.name) = ["badges"] := by
  obtain ⟨hoverrides, hplanned, -⟩ := requested_by_mapping Community.catalog 9 0 "" "profile"
    limitedWithBadges _ _ _ rfl rfl rfl rfl rfl
  exact ⟨_, congrArg Traced.result (hplanned nofun _ rfl), hoverrides, rfl, rfl⟩

/-- Not every mapping of options requests its relation: the empty one does not. -/
theorem not_requested_by_empty :
    ¬ ∀ (c : Catalog) (id : TableId) (name : String) (m : Choice) (relation : Relation)
      (condition : Expr) (options : FindOptions) (children : List Node), m.isMapping = true →
      Keyed.find? name (c.entry id).relations = some relation →
      relation.joinCondition? c = .ok (some condition) →
      m.options = .ok options → options.setsStrategy = false →
      (under (nodes c 9) (c.table id) relation "" name options).result = .ok children →
      ∃ ns, (root c id [(name, m)]).result = .ok ns ∧
        ∃ n ∈ ns, n.level.name = name ∧ n.level.options = options := by
  intro h
  obtain ⟨ns, hns, n, hn, -⟩ :=
    h Community.catalog 0 "posts" (.fields []) _ _ _ _ rfl rfl rfl rfl rfl rfl
  obtain rfl : [] = ns := Except.ok.inj hns
  cases hn

end Plan

end Columnar
